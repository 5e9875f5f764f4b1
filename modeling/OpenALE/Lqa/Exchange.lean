import OpenALE.Library.Float
import OpenALE.Lqa.Database
import OpenALE.App.Amd

/-!
# `LqaExchangeManager`: what two stations tell each other of their channels

Model of `LQAReportDecoder` (`src/LQA/lqa_report.cpp`), of the codes of `src/LQA/lqa_metrics.cpp`,
of `on_word_lqa_cmd`, `on_report_cmd`, `on_report_data` and `apply_pending`
(`src/LQA/lqa_exchange.cpp`) and of the part of `rx_handle_lqa_exchange`
(`src/App/ale_controller.cpp`) that feeds them.

* A conversion of a `float` to `uint8_t` is `Float32.toUInt8`; `std::round` is only ever applied to
  a value from 0 to 6.
* Left out: the bookkeeping of an own request (`sent_ka1_`, `last_call_target_`) and status texts.

Results:
* `codes_fit`: the codes of an entry fit the fields of its report.
* `hear_lqaReport`: a report fed word by word is recorded entry by entry.
-/

namespace OpenALE

/-! ## Codes -/

/-- `ber_score_to_lqa_code`. -/
def berScoreToLqaCode (score : Nat) : Nat := if score ≥ 30 then 30 else score

/-- `std::round` of a value from 0 to 6, as `uint8_t`. -/
def roundSmall (x : Float32) : Nat :=
  let n := x.toUInt8.toNat
  if x - Float32.ofNat n ≥ 0.5 then n + 1 else n

/-- `multipath_delay_to_lqa_code`. -/
def multipathDelayToLqaCode (delayMs : Float32) : Nat :=
  if delayMs < 0 then 0 else if delayMs > 6 then 6 else roundSmall delayMs

/-- `lqa_age_code`. -/
def lqaAgeCode (lastContactMs nowMs : UInt32) : Nat :=
  if lastContactMs = 0 ∨ nowMs < lastContactMs then 7
  else
    let elapsed := nowMs - lastContactMs
    if elapsed ≤ 900000 then 0
    else if elapsed < 1800000 then 1
    else if elapsed < 3600000 then 2
    else if elapsed < 14400000 then 3
    else if elapsed < 28800000 then 4
    else if elapsed < 57600000 then 5
    else if elapsed < 90000000 then 6
    else 7

namespace LQAEntry

/-- The SINAD code `apply_pending` reports. -/
def sinadCode (e : LQAEntry) : Nat :=
  if e.sinadDb > 0 then (minFloat 30 e.sinadDb).toUInt8.toNat else 31

/-- The BER code `apply_pending` reports. -/
def berCode (e : LQAEntry) : Nat :=
  if 0 < e.totalWords then berScoreToLqaCode (minFloat 48 (maxFloat 0 e.ber)).toUInt8.toNat else 31

/-- The multipath code `apply_pending` reports. -/
def mpCode (e : LQAEntry) : Nat := multipathDelayToLqaCode (e.multipathScore * 6)

/-- The report of an entry. -/
def toReport (e : LQAEntry) (now : UInt32) : LQAReport :=
  { frequencyHz := e.frequencyHz, age := lqaAgeCode e.lastContactMs now, mp := e.mpCode
    sinad := e.sinadCode, ber := e.berCode }

end LQAEntry

/-! ## The decoder -/

/-- The number `bits` spell, highest first. -/
def readBits (bits : List Bool) : Nat := bits.foldl (fun v b => (v <<< 1) ||| b.toNat) 0

/-- The loop of `LQAReportDecoder::unpack`. -/
def unpackReports : Nat → List Bool → List LQAReport
  | 0, _ => []
  | count + 1, bits =>
    if bits.length < 36 then []
    else
      { frequencyHz := readBits (bits.take 20) * 100
        age := readBits ((bits.drop 20).take 3)
        mp := readBits ((bits.drop 23).take 3)
        sinad := readBits ((bits.drop 26).take 5)
        ber := readBits ((bits.drop 31).take 5) } :: unpackReports count (bits.drop 36)

/-- `LQAReportDecoder`. -/
structure LQAReportDecoder where
  active : Bool := false
  expectedCount : Nat := 0
  bitsNeeded : Nat := 0
  bitsCollected : Nat := 0
  payloads : List Nat := []
  reports : List LQAReport := []
  deriving Repr, DecidableEq

namespace LQAReportDecoder

/-- `LQAReportDecoder::start`, which resets first. -/
def start (headerRaw : Nat) : LQAReportDecoder :=
  let count := headerRaw &&& 0xFF
  if count = 0 then {}
  else { active := true, expectedCount := count, bitsNeeded := count * 36 }

/-- `LQAReportDecoder::feed`. -/
def feed (d : LQAReportDecoder) (dataRaw : Nat) : LQAReportDecoder × Bool :=
  if ¬ d.active then (d, false)
  else
    let d := { d with
      payloads := d.payloads ++ [dataRaw &&& 0x1FFFFF], bitsCollected := d.bitsCollected + 21 }
    if d.bitsNeeded ≤ d.bitsCollected then
      ({ d with
        reports := unpackReports d.expectedCount (d.payloads.flatMap (lowBits 21))
        active := false }, true)
    else (d, false)

end LQAReportDecoder

/-! ## The manager -/

/-- `LqaExchangeManager`, with the database it writes. -/
structure LqaExchange where
  db : LQADatabase := {}
  pending : LQACmdPayload := {}
  pendingValid : Bool := false
  pendingFreq : Nat := 0
  reportDecoder : LQAReportDecoder := {}
  deriving Repr, DecidableEq

namespace LqaExchange

/-- The record of one report. -/
def record (wall : UInt32) (sender : Str) (db : LQADatabase) (r : LQAReport) : LQADatabase :=
  db.updateBilateral r.frequencyHz sender r.sinad r.ber r.mp 0 wall

/-- `on_report_cmd`. -/
def onReportCmd (x : LqaExchange) (rawPayload : Nat) : LqaExchange :=
  { x with reportDecoder := .start rawPayload }

/-- `on_report_data`. -/
def onReportData (x : LqaExchange) (rawPayload : Nat) (sender : Str) (isSelf : Str → Bool)
    (wall : UInt32) : LqaExchange :=
  if ¬ x.reportDecoder.active then x
  else
    let r := x.reportDecoder.feed rawPayload
    if ¬ r.2 then { x with reportDecoder := r.1 }
    else
      { x with
        db := if sender ≠ [] ∧ ¬ isSelf sender then r.1.reports.foldl (record wall sender) x.db
          else x.db
        reportDecoder := {} }

/-- `rx_handle_lqa_exchange` on the words of a report. -/
def hear (sender : Str) (isSelf : Str → Bool) (x : LqaExchange) (w : ALEWord × UInt32) :
    LqaExchange :=
  if w.1.type = .cmd ∧ cmdCharCode w.1 = 0x72 then x.onReportCmd w.1.rawPayload
  else if w.1.type = .data then x.onReportData w.1.rawPayload sender isSelf w.2
  else x

/-- The age limit of a report, 25 hours. -/
abbrev reportMaxAgeMs : UInt32 := 90000000

/-- The reports `apply_pending` builds for `peer`. -/
def reportsFor (db : LQADatabase) (peer : Str) (wall : UInt32) : List LQAReport :=
  (db.getEntriesForStation peer reportMaxAgeMs wall).map (·.toReport wall)

/-- `apply_pending`, with the sequence it queues. -/
def applyPending (x : LqaExchange) (peer : Str) (isSelf : Str → Bool) (canQueueC5 : Bool)
    (wall : UInt32) : LqaExchange × Option (List ALEWord) :=
  if ¬ x.pendingValid then (x, none)
  else if peer = [] ∨ isSelf peer then ({ x with pendingValid := false }, none)
  else
    let p := x.pending
    let db := x.db.updateBilateral x.pendingFreq peer p.sinad p.ber p.mp 0 wall
    let reports := reportsFor db peer wall
    ({ x with db := db, pendingValid := false },
      if canQueueC5 ∧ p.ka1 ∧ reports ≠ [] then some (lqaReport reports) else none)

end LqaExchange

/-! ## The codes of an entry -/

theorem toUInt8_le_of_not_lt_thirty {x : Float32} (hx : ¬ (30 : Float32) < x) :
    x.toUInt8.toNat ≤ 30 := by
  have hc : (30 : Float32).toModel.unpack =
      .finite .positive 15728640 (-19) (by decide) := by rfl
  exact Float32.toUInt8_le hc (by decide) (by decide) hx

theorem toUInt8_le_of_not_lt_six {x : Float32} (hx : ¬ (6 : Float32) < x) :
    x.toUInt8.toNat ≤ 6 := by
  have hc : (6 : Float32).toModel.unpack =
      .finite .positive 12582912 (-21) (by decide) := by rfl
  exact Float32.toUInt8_le hc (by decide) (by decide) hx

theorem lqaAgeCode_le (last now : UInt32) : lqaAgeCode last now ≤ 7 := by
  unfold lqaAgeCode
  dsimp only
  split_ifs <;> omega

namespace LQAEntry

theorem sinadCode_le (e : LQAEntry) : e.sinadCode ≤ 31 := by
  unfold sinadCode
  split
  · have hmin : ¬ (30 : Float32) < minFloat 30 e.sinadDb := by
      unfold minFloat
      split
      · rename_i hlt
        exact Float32.lt_asymm hlt
      · decide +kernel
    exact (toUInt8_le_of_not_lt_thirty hmin).trans (by decide)
  · rfl

theorem berCode_le (e : LQAEntry) : e.berCode ≤ 31 := by
  unfold berCode berScoreToLqaCode
  split_ifs <;> omega

theorem mpCode_le (e : LQAEntry) : e.mpCode ≤ 7 := by
  unfold mpCode multipathDelayToLqaCode
  split
  · decide
  · split
    · decide
    · rename_i hle
      have hsix := toUInt8_le_of_not_lt_six hle
      unfold roundSmall
      dsimp only
      split <;> omega

end LQAEntry

/-- The fields of a report fit its bits. -/
structure LQAReport.Fits (r : LQAReport) : Prop where
  age : r.age < 2 ^ 3
  mp : r.mp < 2 ^ 3
  sinad : r.sinad < 2 ^ 5
  ber : r.ber < 2 ^ 5

/-- **The codes of an entry fit the fields of its report.** -/
theorem codes_fit (e : LQAEntry) (now : UInt32) : (e.toReport now).Fits where
  age := Nat.lt_succ_of_le (lqaAgeCode_le _ _)
  mp := Nat.lt_succ_of_le e.mpCode_le
  sinad := Nat.lt_succ_of_le e.sinadCode_le
  ber := Nat.lt_succ_of_le e.berCode_le

/-! ## Reading a report back -/

/-- The frequency that comes out of a report's designator: steps of 100 Hz, 20 bits of them. -/
def designated (frequencyHz : Nat) : Nat := frequencyHz / 100 % 2 ^ 20 * 100

theorem designated_eq_iff (f : Nat) : designated f = f ↔ 100 ∣ f ∧ f < 104857600 := by
  unfold designated
  omega

/-- A report as it comes out of its bits. -/
def LQAReport.received (r : LQAReport) : LQAReport :=
  { r with frequencyHz := designated r.frequencyHz }

theorem readBits_lowBits (n x : Nat) : readBits (lowBits n x) = x % 2 ^ n := by
  apply Nat.eq_of_testBit_eq
  intro i
  unfold readBits lowBits
  rw [List.foldl_map, Bits.testBit_shiftIn, Nat.testBit_mod_two_pow]
  by_cases hi : i < n
  · rw [show n - 1 - (n - 1 - i) = i by omega]
  · simp [hi]

theorem length_lowBits (n x : Nat) : (lowBits n x).length = n := by simp [lowBits]

/-- The first report of a bit stream is read back as it was written. -/
theorem unpackReports_bits {r : LQAReport} (hr : r.Fits) (count : Nat) (rest : List Bool) :
    unpackReports (count + 1) (r.bits ++ rest) = r.received :: unpackReports count rest := by
  have hlen : ¬ (r.bits ++ rest).length < 36 := by
    rw [List.length_append, length_bits]
    omega
  have hage : r.age % 8 = r.age := Nat.mod_eq_of_lt hr.age
  have hmp : r.mp % 8 = r.mp := Nat.mod_eq_of_lt hr.mp
  have hsinad : r.sinad % 32 = r.sinad := Nat.mod_eq_of_lt hr.sinad
  have hber : r.ber % 32 = r.ber := Nat.mod_eq_of_lt hr.ber
  have hrest : (r.bits ++ rest).drop 36 = rest := List.drop_left' (length_bits r)
  rw [unpackReports, if_neg hlen, hrest]
  unfold LQAReport.bits LQAReport.received designated
  simp [List.drop_append, List.drop_eq_nil_of_le, length_lowBits, readBits_lowBits, hage, hmp,
    hsinad, hber]

theorem unpackReports_flatMap {reports : List LQAReport} (hr : ∀ r ∈ reports, r.Fits)
    (rest : List Bool) :
    unpackReports reports.length (reports.flatMap LQAReport.bits ++ rest) =
      reports.map LQAReport.received := by
  induction reports with
  | nil => rfl
  | cons r rs ih =>
    rw [List.flatMap_cons, List.append_assoc, List.length_cons,
      unpackReports_bits (hr r List.mem_cons_self), ih fun x hx => hr x (List.mem_cons_of_mem r hx)]
    rfl

/-- The payloads, laid end to end, are the bits of the reports. -/
theorem flatMap_packReports {reports : List LQAReport} (hne : reports ≠ []) :
    ((packReports reports).map (· &&& 0x1FFFFF)).flatMap (lowBits 21) = reportBits reports := by
  have hlen := length_reportBits reports
  unfold packReports
  rw [if_neg hne]
  dsimp only
  rw [hlen, Nat.mul_div_cancel_left _ (by decide), List.map_map, List.flatMap_map]
  rw [Nat.mul_comm] at hlen
  refine Eq.trans ?_ (Bits.flatMap_rows false 21 _ hlen)
  congr 1
  funext w
  refine List.map_congr_left fun i hi => ?_
  have hi' : i < 21 := List.mem_range.mp hi
  have hmask : (0x1FFFFF).testBit (21 - 1 - i) = true := by
    rw [show (0x1FFFFF : Nat) = 2 ^ 21 - 1 from rfl, Nat.testBit_two_pow_sub_one]
    simp
    omega
  dsimp only [Function.comp_apply]
  rw [Nat.testBit_and, hmask, Bool.and_true, testBit_packed]
  have hlt : 21 - 1 - i < 21 := by omega
  rw [show 20 - (21 - 1 - i) = i by omega]
  simp [hlt]

/-! ## Hearing a report -/

theorem encodeReportCmd_count {n : Nat} (hn : n ≤ 255) : encodeReportCmd n &&& 0xFF = n := by
  have hmask : ∀ x : Nat, x &&& 0xFF = x % 2 ^ 8 := fun x => Nat.and_two_pow_sub_one_eq_mod x 8
  unfold encodeReportCmd
  rw [Nat.and_or_distrib_right, hmask (n &&& 0xFF), hmask n]
  have hhigh : ((0x72 <<< 14) ||| (0 <<< 12) ||| (0 <<< 11) ||| (5 <<< 8)) &&& 0xFF = 0 := by
    decide
  rw [hhigh, Nat.zero_or]
  omega

namespace LQAReportDecoder

/-- The decoder of `count` reports with `payloads` heard. -/
def gathering (count : Nat) (payloads : List Nat) : LQAReportDecoder :=
  { active := true, expectedCount := count, bitsNeeded := count * 36
    bitsCollected := 21 * payloads.length, payloads := payloads.map (· &&& 0x1FFFFF) }

variable {count : Nat}

theorem start_encodeReportCmd (hpos : 0 < count) (hle : count ≤ 255) :
    start (encodeReportCmd count) = gathering count [] := by
  have hne : count ≠ 0 := by omega
  unfold start
  rw [encodeReportCmd_count hle]
  dsimp only
  rw [if_neg hne]
  rfl

theorem feed_more {ps : List Nat} {p : Nat} (h : 21 * (ps.length + 1) < 36 * count) :
    (gathering count ps).feed p = (gathering count (ps ++ [p]), false) := by
  have hneed : ¬ count * 36 ≤ 21 * ps.length + 21 := by omega
  unfold feed gathering
  simp [hneed, Nat.mul_add]

theorem feed_last {ps : List Nat} {p : Nat} (h : 36 * count ≤ 21 * (ps.length + 1)) :
    ((gathering count ps).feed p).2 = true ∧ ((gathering count ps).feed p).1.reports =
      unpackReports count (((ps ++ [p]).map (· &&& 0x1FFFFF)).flatMap (lowBits 21)) := by
  have hneed : count * 36 ≤ 21 * ps.length + 21 := by omega
  unfold feed gathering
  simp [hneed]

end LQAReportDecoder

namespace LqaExchange

variable {sender : Str} {isSelf : Str → Bool}

theorem hear_dataWord (x : LqaExchange) (p : Nat) (t : UInt32) :
    x.hear sender isSelf (dataWord p, t) = x.onReportData p sender isSelf t := rfl

/-- The last word of a report. -/
theorem onReportData_done {x : LqaExchange} {p : Nat} {t : UInt32}
    (hactive : x.reportDecoder.active = true) (hdone : (x.reportDecoder.feed p).2 = true)
    (hs : sender ≠ []) (hself : isSelf sender = false) :
    x.onReportData p sender isSelf t =
      { x with
        db := (x.reportDecoder.feed p).1.reports.foldl (record t sender) x.db
        reportDecoder := {} } := by
  have hsender : sender ≠ [] ∧ ¬ isSelf sender = true := ⟨hs, by simp [hself]⟩
  unfold onReportData
  rw [if_neg (not_not.mpr hactive)]
  dsimp only
  rw [if_neg (not_not.mpr hdone), if_pos hsender]

/-- Words short of the last one are gathered. -/
theorem hear_gather {count : Nat} (y : LqaExchange) (qs : List (Nat × UInt32)) {ps : List Nat}
    (h : 21 * (ps.length + qs.length) < 36 * count) :
    (qs.map fun q => (dataWord q.1, q.2)).foldl (hear sender isSelf)
        { y with reportDecoder := .gathering count ps } =
      { y with reportDecoder := .gathering count (ps ++ qs.map Prod.fst) } := by
  induction qs generalizing ps with
  | nil => simp
  | cons q qs ih =>
    rw [List.length_cons] at h
    have hfeed := @LQAReportDecoder.feed_more count ps q.1 (by omega)
    have hstep : ({ y with reportDecoder := .gathering count ps } : LqaExchange).hear sender isSelf
        (dataWord q.1, q.2) = { y with reportDecoder := .gathering count (ps ++ [q.1]) } := by
      rw [hear_dataWord]
      unfold onReportData
      dsimp only
      rw [hfeed]
      rfl
    rw [List.map_cons, List.foldl_cons, hstep, ih (by rw [List.length_append]; simp; omega)]
    simp

theorem exists_payloads {ps : List Nat} {heard : List (ALEWord × UInt32)}
    (h : heard.map Prod.fst = ps.map dataWord) :
    ∃ qs : List (Nat × UInt32), qs.map Prod.fst = ps ∧
      heard = qs.map fun q => (dataWord q.1, q.2) := by
  induction ps generalizing heard with
  | nil => exact ⟨[], rfl, by simpa using h⟩
  | cons p ps ih =>
    cases heard with
    | nil => simp at h
    | cons w heard =>
      rw [List.map_cons, List.map_cons, List.cons.injEq] at h
      obtain ⟨qs, hps, hheard⟩ := ih h.2
      refine ⟨(p, w.2) :: qs, by rw [List.map_cons, hps], ?_⟩
      rw [List.map_cons, ← hheard, ← h.1]

/-- **A report fed word by word is recorded entry by entry**, and the decoder is at rest. -/
theorem hear_lqaReport {reports : List LQAReport} (hne : reports ≠ [])
    (hcount : reports.length ≤ 255) (hfit : ∀ r ∈ reports, r.Fits) (y : LqaExchange)
    (hs : sender ≠ []) (hself : isSelf sender = false) {heard : List (ALEWord × UInt32)}
    {last : ALEWord × UInt32} (hw : (heard ++ [last]).map Prod.fst = lqaReport reports) :
    (heard ++ [last]).foldl (hear sender isSelf) y =
      { y with
        db := (reports.map LQAReport.received).foldl (record last.2 sender) y.db
        reportDecoder := {} } := by
  have hpos : 0 < reports.length := List.length_pos_iff.mpr hne
  have hbits := flatMap_packReports hne
  have hlen : (packReports reports).length = (36 * reports.length + 20) / 21 := by
    unfold packReports
    rw [if_neg hne]
    dsimp only
    rw [List.length_map, List.length_range, length_reportBits,
      Nat.mul_div_cancel_left _ (by decide)]
  have hpack : packReports reports ≠ [] := by
    rw [← List.length_pos_iff, hlen]
    omega
  obtain ⟨front, p, hfront⟩ :=
    (List.eq_nil_or_concat (packReports reports)).resolve_left hpack
  rw [List.concat_eq_append] at hfront
  rw [hfront] at hlen hbits
  rw [List.length_append, List.length_singleton] at hlen
  -- the words heard are the header, the payloads but one, and the last payload
  unfold lqaReport at hw
  rw [if_neg hne, hfront, List.map_append, List.map_append, ← List.cons_append] at hw
  obtain ⟨hheard, hlast⟩ := List.append_inj' hw rfl
  cases heard with
  | nil => simp at hheard
  | cons header heard =>
    rw [List.map_cons, List.cons.injEq] at hheard
    obtain ⟨qs, hqs, rfl⟩ := exists_payloads hheard.2
    have hlast' : last = (dataWord p, last.2) := by
      rw [List.map_singleton, List.map_singleton, List.cons.injEq] at hlast
      exact Prod.ext hlast.1 rfl
    have hhead : y.hear sender isSelf header =
        { y with reportDecoder := .gathering reports.length [] } := by
      have hcount' : reports.length % 256 = reports.length := Nat.mod_eq_of_lt (by omega)
      have hraw : header.1.rawPayload = encodeReportCmd (reports.length % 256) := by
        rw [hheard.1]
      have hcmd : header.1.type = .cmd ∧ cmdCharCode header.1 = 0x72 := by
        rw [hheard.1]
        exact ⟨rfl, encodeReportCmd_code _⟩
      unfold hear
      rw [if_pos hcmd]
      unfold onReportCmd
      rw [hraw, hcount', LQAReportDecoder.start_encodeReportCmd hpos hcount]
    have hqlen : qs.length = front.length := by rw [← hqs, List.length_map]
    rw [List.cons_append, List.foldl_cons, hhead, List.foldl_append,
      @hear_gather sender isSelf _ y qs [] (by rw [List.length_nil]; omega), hlast', hqs]
    obtain ⟨hdone, hreports⟩ := @LQAReportDecoder.feed_last reports.length ([] ++ front) p
      (by rw [List.nil_append]; omega)
    rw [List.nil_append] at hdone hreports
    have hread : unpackReports reports.length (reportBits reports) =
        reports.map LQAReport.received := unpackReports_flatMap hfit _
    rw [hbits, hread] at hreports
    rw [List.nil_append, List.foldl_cons, List.foldl_nil, hear_dataWord,
      onReportData_done rfl hdone hs hself, hreports]

end LqaExchange

end OpenALE
