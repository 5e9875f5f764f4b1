import OpenALE.Library.Bits
import OpenALE.Word.Sequence

/-!
# Binary words: noise, LQA reports, frequency select

Model of `ALESequenceBuilder::noise_cmd` and `lqa_report` (`src/Word/ale_sequence.cpp`), of
`LQAReportEncoder` (`src/LQA/lqa_report.cpp`) and of `src/Protocol/Control/ale_freq_select.cpp`.

`uint8_t` and `uint32_t` fields are `Nat`; a bit is `Nat.testBit`. The report request is left out.

Results:
* `mem_packReports`, `testBit_packed`: the payloads are the reports' bits, one after the other.
* `encodeFreqDataWord_eq`: the payload of a frequency is its digits.
* `decodeFreqDataWord_encode`: what is read back is the frequency in whole kHz, below 100 MHz.
-/

namespace OpenALE

/-! ## Noise and LQA reports -/

/-- `ALESequenceBuilder::noise_cmd`. -/
def noiseCmd (maxDb meanDb : Nat) : List ALEWord :=
  [{ type := .cmd, rawPayload := (0x6E <<< 14) ||| ((maxDb &&& 0x7F) <<< 7) ||| (meanDb &&& 0x7F)
     address := ['n', ' ', ' '], valid := true }]

/-- `LQACmdPayload`. -/
structure LQACmdPayload where
  ber : Nat := 31
  sinad : Nat := 31
  mp : Nat := 7
  ka1 : Bool := false
  deriving Repr, DecidableEq

/-- `encode_lqa_cmd`. -/
def encodeLqaCmd (p : LQACmdPayload) : Nat :=
  (0b110 <<< 21) ||| (0b1100001 <<< 14) ||| ((if p.ka1 then 1 else 0) <<< 13) |||
    ((p.mp &&& 0x07) <<< 10) ||| ((p.sinad &&& 0x1F) <<< 5) ||| (p.ber &&& 0x1F)

/-- `LQAReport`. -/
structure LQAReport where
  frequencyHz : Nat := 0
  age : Nat := 7
  mp : Nat := 7
  sinad : Nat := 31
  ber : Nat := 31
  deriving Repr, DecidableEq

/-- `encode_report_cmd`. -/
def encodeReportCmd (reportCount : Nat) : Nat :=
  (0x72 <<< 14) ||| (0 <<< 12) ||| (0 <<< 11) ||| (5 <<< 8) ||| (reportCount &&& 0xFF)

/-- The low `n` bits of `x`, highest first. -/
def lowBits (n x : Nat) : List Bool := (List.range n).map fun i => x.testBit (n - 1 - i)

/-- The 36 bits of a report. -/
def LQAReport.bits (r : LQAReport) : List Bool :=
  lowBits 20 (r.frequencyHz / 100) ++ lowBits 3 r.age ++ lowBits 3 r.mp ++ lowBits 5 r.sinad ++
    lowBits 5 r.ber

/-- The bits of all reports, filled up to a multiple of 21. -/
def reportBits (reports : List LQAReport) : List Bool :=
  let bits := reports.flatMap LQAReport.bits
  bits ++ List.replicate ((21 - bits.length % 21) % 21) false

/-- `LQAReportEncoder::pack_reports`. -/
def packReports (reports : List LQAReport) : List Nat :=
  if reports = [] then []
  else
    let bits := reportBits reports
    (List.range (bits.length / 21)).map fun w =>
      (List.range 21).foldl (fun val b => (val <<< 1) ||| (bits.getD (w * 21 + b) false).toNat) 0

/-- A `DATA` word with a binary payload; its characters stay those of the constructor. -/
def dataWord (payload : Nat) : ALEWord := { type := .data, rawPayload := payload, valid := true }

/-- `ALESequenceBuilder::lqa_report`. -/
def lqaReport (reports : List LQAReport) : List ALEWord :=
  if reports = [] then []
  else
    { type := .cmd, rawPayload := encodeReportCmd (reports.length % 256), address := ['r', ' ', ' ']
      valid := true } :: (packReports reports).map dataWord

/-! ## Frequency select -/

/-- `encode_freq_data_word`: five decimal digits of the frequency in kHz. -/
def encodeFreqDataWord (freqHz : Nat) : Nat :=
  let khz := freqHz / 1000
  (((khz / 10000) % 10) <<< 16) ||| (((khz / 1000) % 10) <<< 12) ||| (((khz / 100) % 10) <<< 8) |||
    (((khz / 10) % 10) <<< 4) ||| (khz % 10)

/-- `decode_freq_data_word`. -/
def decodeFreqDataWord (raw21 : Nat) : Nat :=
  let khz := ((raw21 >>> 16) &&& 0xF) * 10000 + ((raw21 >>> 12) &&& 0xF) * 1000 +
    ((raw21 >>> 8) &&& 0xF) * 100 + ((raw21 >>> 4) &&& 0xF) * 10 + (raw21 &&& 0xF)
  khz * 1000

/-- `encode_freq_select_cmd_word`. -/
def encodeFreqSelectCmdWord : Nat := 0x66 <<< 14

/-- `build_freq_select_sequence`. -/
def buildFreqSelectSequence (freqHz : Nat) : List ALEWord :=
  [{ type := .cmd, rawPayload := encodeFreqSelectCmdWord, address := ['f', ' ', ' ']
     valid := true }, dataWord (encodeFreqDataWord freqHz)]

/-! ## Function codes -/

/-- What lies below the function code does not change it. -/
theorem shiftRight_or_low {a b : Nat} (hb : b < 2 ^ 14) : (a ||| b) >>> 14 = a >>> 14 := by
  rw [Nat.shiftRight_or_distrib, Nat.shiftRight_eq_div_pow b, Nat.div_eq_of_lt hb, Nat.or_zero]

/-- A field of `n` bits at position `k`. -/
theorem field_lt (x : Nat) {n k : Nat} (h : n + k ≤ 14) : (x &&& (2 ^ n - 1)) <<< k < 2 ^ 14 := by
  rw [Nat.and_two_pow_sub_one_eq_mod, Nat.shiftLeft_eq]
  calc x % 2 ^ n * 2 ^ k < 2 ^ n * 2 ^ k :=
        Nat.mul_lt_mul_of_pos_right (Nat.mod_lt _ (Nat.two_pow_pos n)) (Nat.two_pow_pos k)
    _ = 2 ^ (n + k) := (Nat.pow_add 2 n k).symm
    _ ≤ 2 ^ 14 := Nat.pow_le_pow_right (by decide) h

theorem encodeReportCmd_code (n : Nat) : (encodeReportCmd n >>> 14) &&& 0x7F = 0x72 := by
  have hn : n &&& 0xFF < 2 ^ 14 := by
    simpa using field_lt n (n := 8) (k := 0) (by decide)
  unfold encodeReportCmd
  rw [shiftRight_or_low hn]
  rfl

/-! ## The bits of the payloads -/

theorem length_bits (r : LQAReport) : r.bits.length = 36 := by
  simp [LQAReport.bits, lowBits]

theorem length_reportBits (reports : List LQAReport) :
    (reportBits reports).length = 21 * ((36 * reports.length + 20) / 21) := by
  have hlen : (reports.flatMap LQAReport.bits).length = 36 * reports.length := by
    induction reports with
    | nil => rfl
    | cons r rs ih =>
      rw [List.flatMap_cons, List.length_append, ih, length_bits, List.length_cons]
      omega
  unfold reportBits
  dsimp only
  rw [List.length_append, List.length_replicate, hlen]
  omega

/-- **The payloads are the reports' bits**, 21 at a time. -/
theorem mem_packReports {reports : List LQAReport} (hne : reports ≠ []) {p : Nat} :
    p ∈ packReports reports ↔ ∃ w < (36 * reports.length + 20) / 21,
      p = (List.range 21).foldl
        (fun val b => (val <<< 1) ||| ((reportBits reports).getD (w * 21 + b) false).toNat) 0 := by
  unfold packReports
  rw [if_neg hne]
  dsimp only
  rw [length_reportBits, Nat.mul_div_cancel_left _ (by decide)]
  simp only [List.mem_map, List.mem_range]
  exact ⟨fun ⟨w, hw, h⟩ => ⟨w, hw, h.symm⟩, fun ⟨w, hw, h⟩ => ⟨w, hw, h.symm⟩⟩

theorem testBit_packed (bits : List Bool) (w i : Nat) :
    ((List.range 21).foldl (fun val b => (val <<< 1) ||| (bits.getD (w * 21 + b) false).toNat)
      0).testBit i = (decide (i < 21) && bits.getD (w * 21 + (20 - i)) false) :=
  Bits.testBit_shiftIn (fun b => bits.getD (w * 21 + b) false) 21 i

/-- **The payload of a frequency is its digits.** -/
theorem encodeFreqDataWord_eq (freqHz : Nat) : encodeFreqDataWord freqHz =
    freqHz / 1000 / 10000 % 10 * 2 ^ 16 + freqHz / 1000 / 1000 % 10 * 2 ^ 12 +
      freqHz / 1000 / 100 % 10 * 2 ^ 8 + freqHz / 1000 / 10 % 10 * 2 ^ 4 + freqHz / 1000 % 10 := by
  unfold encodeFreqDataWord
  dsimp only
  generalize freqHz / 1000 = khz
  have hd : ∀ x : Nat, x % 10 < 10 := fun x => Nat.mod_lt x (by decide)
  have h0 := hd khz
  have h1 := hd (khz / 10)
  have h2 := hd (khz / 100)
  have h3 := hd (khz / 1000)
  have h4 := hd (khz / 10000)
  generalize khz % 10 = d0 at *
  generalize khz / 10 % 10 = d1 at *
  generalize khz / 100 % 10 = d2 at *
  generalize khz / 1000 % 10 = d3 at *
  generalize khz / 10000 % 10 = d4 at *
  simp only [Nat.shiftLeft_eq]
  have step : ∀ {a b : Nat} (n : Nat), b < 2 ^ n → a * 2 ^ n ||| b = a * 2 ^ n + b := by
    intro a b n hb
    rw [← Nat.shiftLeft_eq, ← Nat.shiftLeft_add_eq_or_of_lt hb]
  rw [show d4 * 2 ^ 16 ||| d3 * 2 ^ 12 = (d4 * 2 ^ 4 + d3) * 2 ^ 12 by
      rw [step 16 (by omega)]; omega,
    show (d4 * 2 ^ 4 + d3) * 2 ^ 12 ||| d2 * 2 ^ 8 = (d4 * 2 ^ 8 + d3 * 2 ^ 4 + d2) * 2 ^ 8 by
      rw [step 12 (by omega)]; omega,
    show (d4 * 2 ^ 8 + d3 * 2 ^ 4 + d2) * 2 ^ 8 ||| d1 * 2 ^ 4 =
        (d4 * 2 ^ 12 + d3 * 2 ^ 8 + d2 * 2 ^ 4 + d1) * 2 ^ 4 by
      rw [step 8 (by omega)]; omega,
    step 4 (by omega)]
  omega

/-- The word keeps five digits of the kHz. -/
theorem decodeFreqDataWord_encode (freqHz : Nat) :
    decodeFreqDataWord (encodeFreqDataWord freqHz) = freqHz / 1000 % 100000 * 1000 := by
  unfold decodeFreqDataWord
  dsimp only
  have hmask : ∀ x : Nat, x &&& 0xF = x % 2 ^ 4 := fun x => Nat.and_two_pow_sub_one_eq_mod x 4
  simp only [hmask, Nat.shiftRight_eq_div_pow]
  rw [encodeFreqDataWord_eq]
  generalize freqHz / 1000 = khz
  have hkhz : khz % 100000 = khz / 10000 % 10 * 10000 + khz / 1000 % 10 * 1000 +
      khz / 100 % 10 * 100 + khz / 10 % 10 * 10 + khz % 10 := by omega
  have hd : ∀ x : Nat, x % 10 < 10 := fun x => Nat.mod_lt x (by decide)
  have h0 := hd khz
  have h1 := hd (khz / 10)
  have h2 := hd (khz / 100)
  have h3 := hd (khz / 1000)
  have h4 := hd (khz / 10000)
  rw [hkhz]
  generalize khz % 10 = d0 at *
  generalize khz / 10 % 10 = d1 at *
  generalize khz / 100 % 10 = d2 at *
  generalize khz / 1000 % 10 = d3 at *
  generalize khz / 10000 % 10 = d4 at *
  clear hkhz
  obtain ⟨x, hx⟩ : ∃ x, x = d4 * 2 ^ 16 + d3 * 2 ^ 12 + d2 * 2 ^ 8 + d1 * 2 ^ 4 + d0 := ⟨_, rfl⟩
  rw [← hx]
  have e4 : x / 2 ^ 16 % 2 ^ 4 = d4 := by omega
  have e3 : x / 2 ^ 12 % 2 ^ 4 = d3 := by omega
  have e2 : x / 2 ^ 8 % 2 ^ 4 = d2 := by omega
  have e1 : x / 2 ^ 4 % 2 ^ 4 = d1 := by omega
  have e0 : x % 2 ^ 4 = d0 := by omega
  rw [e4, e3, e2, e1, e0]

end OpenALE
