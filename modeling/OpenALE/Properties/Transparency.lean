import OpenALE.Codec.Symbols
import OpenALE.Word.Report

/-!
# What comes back of a word put on the air

Every frame the station builds is passed word by word through the encoder and the decoder, without
a channel error. Words of characters come back as they were. Binary payloads in `CMD` words do too.
A binary payload in a `DATA` word comes back only if its three 7-bit groups happen to be characters.

Results:
* `comesBack_iff`: a frame comes back exactly when its payload is `Frame.Speakable`.
* `comesBack_fail`: the frequency 7 MHz does not.
-/

namespace OpenALE

/-! ## Frames -/

/-- What the station can be asked to send. -/
inductive Frame where
  | scanningCall (dest : Str) (scanChannels : UInt32)
  | scanningCallGroup (members : List Str) (scanChannels : UInt32)
  | leadingCall (dest : Str)
  | leadingCallGroup (members : List Str)
  | conclusion (self : Str) (isReject : Bool)
  | fromId (self : Str)
  | response (caller self : Str) (isReject : Bool)
  | ack (peer self : Str) (noLink : Bool)
  | termination (peer self : Str)
  | lqaCmd (raw24 : Nat)
  | noiseCmd (maxDb meanDb : Nat)
  | lqaReport (reports : List LQAReport)
  | amd (text : Str)
  | freqSelect (freqHz : Nat)

namespace Frame

/-- The words sent. -/
def words : Frame → List ALEWord
  | scanningCall dest n => OpenALE.scanningCall dest n
  | scanningCallGroup members n => OpenALE.scanningCallGroup members n
  | leadingCall dest => OpenALE.leadingCall dest
  | leadingCallGroup members => OpenALE.leadingCallGroup members
  | conclusion self r => OpenALE.conclusion self r
  | fromId self => OpenALE.fromId self
  | response caller self r => OpenALE.response caller self r
  | ack peer self n => OpenALE.ack peer self n
  | termination peer self => OpenALE.termination peer self
  | lqaCmd raw24 => OpenALE.lqaCmd raw24
  | noiseCmd maxDb meanDb => OpenALE.noiseCmd maxDb meanDb
  | lqaReport reports => OpenALE.lqaReport reports
  | amd text => encodeAmd text
  | freqSelect freqHz => buildFreqSelectSequence freqHz

/-- The addresses of the frame. -/
def addresses : Frame → List Str
  | scanningCall dest _ | leadingCall dest => [dest]
  | scanningCallGroup members _ | leadingCallGroup members => members
  | conclusion self _ | fromId self => [self]
  | response a b _ | ack a b _ | termination a b => [a, b]
  | _ => []

/-- Every address is of Basic-38 characters: the encoder makes no word of any other. -/
def Accepted (f : Frame) : Prop := ∀ a ∈ f.addresses, ∀ c ∈ a, validBasic38 c = true

/-- The frame carries characters. -/
def isText : Frame → Bool
  | lqaCmd _ | noiseCmd _ _ | lqaReport _ | freqSelect _ => false
  | _ => true

/-- The payload passes for characters. For reports: in each group of seven of their bits, zeros
filled in after the last, the first two differ. For a frequency: 80 MHz and more, with further
conditions on the digits of the MHz and of the 10 kHz. -/
def Speakable : Frame → Prop
  | lqaReport reports => ∀ i < 3 * ((36 * reports.length + 20) / 21),
      (reports.flatMap LQAReport.bits).getD (7 * i) false ≠
        (reports.flatMap LQAReport.bits).getD (7 * i + 1) false
  | freqSelect freqHz =>
      8 ≤ freqHz / 1000 / 10000 % 10 ∧
        (freqHz / 1000 / 1000 % 10 % 4 = 1 ∨ freqHz / 1000 / 1000 % 10 % 4 = 2) ∧
        2 ≤ freqHz / 1000 / 10 % 10 % 8 ∧ freqHz / 1000 / 10 % 10 % 8 ≤ 5
  | _ => True

end Frame

/-- The word comes back valid, with its type and payload and, if it carries characters, with these. -/
def ComesBack (mode : GolayMode) (out : ALEWord) (text : Bool) (w : ALEWord) : Prop :=
  let d := ALEDecoder.decode (ALEEncoder.encode w) mode out
  d.accepted = true ∧ d.out.valid = true ∧ d.out.type = w.type ∧
    d.out.rawPayload = w.rawPayload ∧ (text = true → d.out.address = w.address)

/-! ## Single words -/

/-- A word as `WordParser` reads it. -/
structure Clean (w : ALEWord) : Prop where
  type : w.type ≠ .unknown
  payload : w.rawPayload < 2 ^ 21
  chars : decodeAscii w.rawPayload w.type = (w.address, true)

section Words

variable {mode : GolayMode} {out w : ALEWord} {t : PreambleType}

theorem comesBack_binary (ht : w.type ≠ .unknown) (hp : w.rawPayload < 2 ^ 21) :
    ComesBack mode out false w ↔ (decodeAscii w.rawPayload w.type).2 = true := by
  have h := ALEDecoder.decode_encode mode out ht
  have hmask : w.rawPayload &&& 0x1FFFFF = w.rawPayload := by
    rw [Nat.and_two_pow_sub_one_eq_mod _ 21, Nat.mod_eq_of_lt hp]
  have hacc := h.accepted
  have hpay := h.rawPayload
  rw [hmask] at hacc hpay
  constructor
  · rintro ⟨ha, -⟩
    rw [← hacc]
    exact ha
  · intro hd
    have ha := hacc.trans hd
    exact ⟨ha, h.valid.trans ha, h.type, hpay, fun hb => absurd hb (by simp)⟩

theorem comesBack_clean (hw : Clean w) : ComesBack mode out true w := by
  have h := ALEDecoder.decode_encode mode out hw.type
  have hb : ComesBack mode out false w :=
    (comesBack_binary hw.type hw.payload).mpr (by rw [hw.chars])
  obtain ⟨ha, hv, ht, hp, -⟩ := hb
  refine ⟨ha, hv, ht, hp, fun _ => ?_⟩
  have hmask : w.rawPayload &&& 0x1FFFFF = w.rawPayload := by
    rw [Nat.and_two_pow_sub_one_eq_mod _ 21, Nat.mod_eq_of_lt hw.payload]
  rw [h.address, hmask, hw.chars]

theorem clean_makeWord (ht : t ≠ .unknown) {c : Str} (hl : c.length = 3)
    (hc : ∀ x ∈ c, validChar t x = true) : Clean (makeWord t c) := by
  match c, hl with
  | [c0, c1, c2], _ =>
    have h0 := hc c0 (by simp)
    have h1 := hc c1 (by simp)
    have h2 := hc c2 (by simp)
    have l0 := lt_128_of_validChar h0
    have l1 := lt_128_of_validChar h1
    have l2 := lt_128_of_validChar h2
    rw [makeWord_eq ht h0 h1 h2]
    refine ⟨ht, ?_, ?_⟩
    · show c0.toNat * 2 ^ 14 + c1.toNat * 2 ^ 7 + c2.toNat < 2 ^ 21
      omega
    unfold decodeAscii
    rw [payloadChars_eq l0 l1 l2]
    simp [h0, h1, h2]

/-! ## Frames of characters -/

section AddressWords

variable {addr : Str}

/-- A word of an address: three Basic-38 characters under a type that is no command. -/
def AddressWord (w : ALEWord) : Prop :=
  ∃ (u : PreambleType) (c : Str), u ≠ .unknown ∧ u ≠ .cmd ∧ c.length = 3 ∧
    (∀ x ∈ c, validBasic38 x = true) ∧ w = makeWord u c

theorem AddressWord.clean (h : AddressWord w) : Clean w := by
  obtain ⟨u, c, hu, -, hl, hc, rfl⟩ := h
  exact clean_makeWord hu hl fun x hx => validChar_of_basic38 u (hc x hx)

theorem AddressWord.type_ne_cmd (h : AddressWord w) : w.type ≠ .cmd := by
  obtain ⟨u, c, hu, hcmd, hl, hc, rfl⟩ := h
  rw [(makeWord_chunk hu hl hc).1]
  exact hcmd

theorem chunk_chars (h : ∀ c ∈ addr, validBasic38 c = true) {c : Str} (hc : c ∈ chunk addr) :
    c.length = 3 ∧ ∀ x ∈ c, validBasic38 x = true := by
  unfold chunk at hc
  split at hc
  · rw [List.mem_singleton.mp hc]
    refine ⟨rfl, fun x hx => ?_⟩
    obtain rfl : x = '@' := by simpa using hx
    decide
  · rename_i d ds hd
    rw [← hd] at hc
    refine ⟨length_of_mem_triples hc, fun x hx => ?_⟩
    rcases mem_of_mem_triples hc hx with hx | rfl
    · exact h x (List.mem_of_mem_take hx)
    · decide

theorem exists_of_mem_zipWith {α β γ : Type*} {f : α → β → γ} {as : List α} {bs : List β} {c : γ}
    (h : c ∈ List.zipWith f as bs) : ∃ a ∈ as, ∃ b ∈ bs, c = f a b := by
  obtain ⟨i, hi, rfl⟩ := List.mem_iff_getElem.mp h
  rw [List.length_zipWith] at hi
  exact ⟨_, List.getElem_mem (by omega), _, List.getElem_mem (by omega), List.getElem_zipWith⟩

theorem headD_mem_chunk (addr : Str) : (chunk addr).headD [] ∈ chunk addr := by
  cases hc : chunk addr with
  | nil => exact absurd hc (chunk_ne_nil addr)
  | cons c cs => simp

theorem addressWord_encodeFirst (h : ∀ c ∈ addr, validBasic38 c = true) (ht : t ≠ .unknown)
    (hc : t ≠ .cmd) : AddressWord (encodeFirst addr t) := by
  obtain ⟨hl, hx⟩ := chunk_chars h (headD_mem_chunk addr)
  exact ⟨t, _, ht, hc, hl, hx, rfl⟩

theorem addressWord_encode (h : ∀ c ∈ addr, validBasic38 c = true) (ht : t ≠ .unknown)
    (hc : t ≠ .cmd) {w : ALEWord} (hw : w ∈ encode addr t) : AddressWord w := by
  rw [encode_cons] at hw
  rcases List.mem_cons.mp hw with rfl | hw
  · exact addressWord_encodeFirst h ht hc
  · unfold encodeExt at hw
    obtain ⟨u, hu, c, hmem, rfl⟩ := exists_of_mem_zipWith hw
    have hu' : u ≠ .unknown ∧ u ≠ .cmd := by
      constructor <;> rintro rfl <;> exact absurd hu (by decide)
    obtain ⟨hl, hx⟩ := chunk_chars h (List.mem_of_mem_tail hmem)
    exact ⟨u, c, hu'.1, hu'.2, hl, hx, rfl⟩

theorem addressWord_encodeGroupFrom (ht : t ≠ .unknown) (hc : t ≠ .cmd) {addrs : List Str}
    (h : ∀ a ∈ addrs, ∀ c ∈ a, validBasic38 c = true) (last : PreambleType) {w : ALEWord}
    (hw : w ∈ encodeGroupFrom t last addrs) : AddressWord w := by
  induction addrs generalizing last with
  | nil => exact absurd hw List.not_mem_nil
  | cons a as ih =>
    simp only [encodeGroupFrom] at hw
    rcases List.mem_append.mp hw with hw | hw
    · refine addressWord_encode (h a List.mem_cons_self) ?_ ?_ hw
      · split
        · decide
        · exact ht
      · split
        · decide
        · exact hc
    · exact ih (fun b hb => h b (List.mem_cons_of_mem a hb)) _ hw

theorem addressWord_encodeGroup (ht : t ≠ .unknown) (hc : t ≠ .cmd) {addrs : List Str}
    (h : ∀ a ∈ addrs, ∀ c ∈ a, validBasic38 c = true) {w : ALEWord}
    (hw : w ∈ encodeGroup addrs t) : AddressWord w := by
  unfold encodeGroup at hw
  split at hw
  · exact absurd hw List.not_mem_nil
  · rename_i a as
    rcases List.mem_append.mp hw with hw | hw
    · exact addressWord_encode (h a List.mem_cons_self) ht hc hw
    · exact addressWord_encodeGroupFrom ht hc (fun b hb => h b (List.mem_cons_of_mem a hb)) _ hw

theorem mem_addressed {a b : Str} {u v : PreambleType} {w : ALEWord}
    (hw : w ∈ addressedThenConclusion a u b v) : w ∈ encode a u ∨ w ∈ encode b v := by
  unfold addressedThenConclusion sentTwice at hw
  simpa [or_assoc] using hw

theorem addressWord_scanningCall (h : ∀ c ∈ addr, validBasic38 c = true) {n : UInt32} {w : ALEWord}
    (hw : w ∈ scanningCall addr n) : AddressWord w := by
  unfold scanningCall at hw
  split at hw
  · exact absurd hw List.not_mem_nil
  · rw [List.eq_of_mem_replicate hw]
    exact addressWord_encodeFirst h (by decide) (by decide)

/-- The distinct first words are characters too. -/
theorem uniqueFirst_chars {acc members : List Str}
    (ha : ∀ a ∈ acc, ∀ c ∈ a, validBasic38 c = true)
    (h : ∀ a ∈ members, ∀ c ∈ a, validBasic38 c = true) :
    ∀ a ∈ uniqueFirst acc members, ∀ c ∈ a, validBasic38 c = true := by
  induction members generalizing acc with
  | nil => exact ha
  | cons m ms ih =>
    have hfw : ∀ c ∈ cstr (encodeFirst m .to).address, validBasic38 c = true := by
      intro c hc
      have hmem : c ∈ (encodeFirst m .to).address := (List.takeWhile_prefix _).subset hc
      obtain ⟨hl, hx⟩ := chunk_chars (h m List.mem_cons_self) (headD_mem_chunk m)
      unfold encodeFirst at hmem
      rw [(makeWord_chunk (t := .to) (by decide) hl hx).2.1] at hmem
      exact hx c hmem
    have hacc : ∀ a ∈ (if cstr (encodeFirst m .to).address ∈ acc then acc
        else acc ++ [cstr (encodeFirst m .to).address]), ∀ c ∈ a, validBasic38 c = true := by
      intro a hin
      split at hin
      · exact ha a hin
      · rcases List.mem_append.mp hin with hin | hin
        · exact ha a hin
        · rw [List.mem_singleton.mp hin]
          exact hfw
    unfold uniqueFirst
    dsimp only
    generalize (if cstr (encodeFirst m .to).address ∈ acc then acc
        else acc ++ [cstr (encodeFirst m .to).address]) = acc' at hacc ⊢
    split
    · exact hacc
    · exact ih hacc fun a hin => h a (List.mem_cons_of_mem m hin)

theorem getD_chars {as : List Str} (h : ∀ a ∈ as, ∀ c ∈ a, validBasic38 c = true) (i : Nat) :
    ∀ c ∈ as.getD i [], validBasic38 c = true := by
  intro c hc
  by_cases hi : i < as.length
  · rw [List.getD_eq_getElem _ _ hi] at hc
    exact h _ (List.getElem_mem hi) c hc
  · rw [List.getD_eq_default _ _ (by omega)] at hc
    exact absurd hc List.not_mem_nil

theorem addressWord_scanningCallGroup {members : List Str}
    (h : ∀ a ∈ members, ∀ c ∈ a, validBasic38 c = true) {n : UInt32} {w : ALEWord}
    (hw : w ∈ scanningCallGroup members n) : AddressWord w := by
  have huf : ∀ a ∈ uniqueFirst [] members, ∀ c ∈ a, validBasic38 c = true :=
    uniqueFirst_chars (by simp) h
  unfold scanningCallGroup at hw
  split at hw
  · exact absurd hw List.not_mem_nil
  dsimp only at hw
  split at hw
  · refine addressWord_scanningCall ?_ hw
    rw [List.headD_eq_getD]
    exact getD_chars huf 0
  · simp only [List.mem_map] at hw
    obtain ⟨i, -, rfl⟩ := hw
    refine addressWord_encodeFirst (getD_chars huf _) ?_ ?_ <;> split <;> decide

end AddressWords

/-! ### AMD -/

theorem sanitizeAmd_valid (c : Char) : validExpanded64 (sanitizeAmd c) = true := by
  unfold sanitizeAmd
  split
  · rename_i h
    exact (validExpanded64_iff c).mpr h
  · decide

theorem makeCmdAmdWord_eq {c0 c1 c2 : Char} (h0 : validChar .data c0 = true)
    (h1 : validChar .data c1 = true) (h2 : validChar .data c2 = true) :
    makeCmdAmdWord [c0, c1, c2] =
      { type := .cmd, address := [c0, c1, c2],
        rawPayload := c0.toNat * 2 ^ 14 + c1.toNat * 2 ^ 7 + c2.toNat, valid := true } := by
  have l0 := lt_128_of_validChar h0
  have l1 := lt_128_of_validChar h1
  have l2 := lt_128_of_validChar h2
  have hp := encodeAscii_eq h0 h1 h2
  have hne : ¬ encodeAscii c0 c1 c2 .data = badPayload := by
    rw [hp]
    unfold badPayload
    omega
  simp only [makeCmdAmdWord]
  rw [if_neg hne, hp]

theorem clean_makeCmdAmdWord {c : Str} (hl : c.length = 3)
    (hc : ∀ x ∈ c, validExpanded64 x = true) : Clean (makeCmdAmdWord c) := by
  match c, hl with
  | [c0, c1, c2], _ =>
    have hv : ∀ x ∈ [c0, c1, c2], validChar .data x = true := hc
    have l0 := lt_128_of_validChar (hv c0 (by simp))
    have l1 := lt_128_of_validChar (hv c1 (by simp))
    have l2 := lt_128_of_validChar (hv c2 (by simp))
    rw [makeCmdAmdWord_eq (hv c0 (by simp)) (hv c1 (by simp)) (hv c2 (by simp))]
    refine ⟨by simp, ?_, ?_⟩
    · show c0.toNat * 2 ^ 14 + c1.toNat * 2 ^ 7 + c2.toNat < 2 ^ 21
      omega
    · unfold decodeAscii
      rw [if_pos rfl, payloadChars_eq l0 l1 l2]

theorem clean_encodeAmdFrom {cs : List Str}
    (h : ∀ c ∈ cs, c.length = 3 ∧ ∀ x ∈ c, validExpanded64 x = true) (i : Nat) {w : ALEWord}
    (hw : w ∈ encodeAmdFrom i cs) : Clean w := by
  induction cs generalizing i with
  | nil => exact absurd hw List.not_mem_nil
  | cons c cs ih =>
    simp only [encodeAmdFrom] at hw
    rcases List.mem_cons.mp hw with rfl | hw
    · obtain ⟨hl, hx⟩ := h c List.mem_cons_self
      split
      · exact clean_makeWord (by decide) hl hx
      · exact clean_makeWord (by decide) hl hx
    · exact ih (fun d hd => h d (List.mem_cons_of_mem c hd)) (i + 1) hw

/-- Every word of a text is clean. -/
theorem clean_encodeAmd {text : Str} {w : ALEWord} (hw : w ∈ encodeAmd text) : Clean w := by
  have hchunks : ∀ c ∈ triples ' ' ((text.take 90).map sanitizeAmd),
      c.length = 3 ∧ ∀ x ∈ c, validExpanded64 x = true := by
    intro c hc
    refine ⟨length_of_mem_triples hc, fun x hx => ?_⟩
    rcases mem_of_mem_triples hc hx with hx | rfl
    · obtain ⟨y, -, rfl⟩ := List.mem_map.mp hx
      exact sanitizeAmd_valid y
    · decide
  unfold encodeAmd at hw
  split at hw
  · exact absurd hw List.not_mem_nil
  · rename_i c cs hc
    rw [hc] at hchunks
    rcases List.mem_cons.mp hw with rfl | hw
    · obtain ⟨hl, hx⟩ := hchunks c List.mem_cons_self
      exact clean_makeCmdAmdWord hl hx
    · exact clean_encodeAmdFrom (fun d hd => hchunks d (List.mem_cons_of_mem c hd)) 1 hw

end Words

/-! ## Binary payloads -/

/-- Seven bits are a character of the Expanded-64 set when the two highest differ. -/
theorem validExpanded64_ofNat {n : Nat} (hn : n < 128) :
    validExpanded64 (Char.ofNat n) = true ↔ n.testBit 6 ≠ n.testBit 5 := by
  have h := Nat.toNat_testBit
  have key : ∀ n < 128, ((0x20 ≤ n ∧ n ≤ 0x5F) ↔ n.testBit 6 ≠ n.testBit 5) := by decide
  have hc : (Char.ofNat n).toNat = n := by
    rw [Char.toNat_ofNat, if_pos]
    left
    omega
  rw [validExpanded64_iff, hc]
  exact key n hn

/-- A `DATA` payload passes when each of its three groups does. -/
theorem decodeAscii_data (p : Nat) : (decodeAscii p .data).2 = true ↔
    p.testBit 20 ≠ p.testBit 19 ∧ p.testBit 13 ≠ p.testBit 12 ∧ p.testBit 6 ≠ p.testBit 5 := by
  have hlt : ∀ x : Nat, x &&& 0x7F < 128 := fun x => by
    rw [Nat.and_two_pow_sub_one_eq_mod x 7]
    exact Nat.mod_lt x (by decide)
  have hbit : ∀ x i : Nat, i < 7 → (x &&& 0x7F).testBit i = x.testBit i := by
    intro x i hi
    rw [Nat.and_two_pow_sub_one_eq_mod x 7, Nat.testBit_mod_two_pow, decide_eq_true hi,
      Bool.true_and]
  have hall : (payloadChars p).all (validChar .data) = true ↔
      p.testBit 20 ≠ p.testBit 19 ∧ p.testBit 13 ≠ p.testBit 12 ∧ p.testBit 6 ≠ p.testBit 5 := by
    have hvalid : ∀ n, n < 128 →
        (validChar .data (Char.ofNat n) = true ↔ n.testBit 6 ≠ n.testBit 5) :=
      fun n hn => validExpanded64_ofNat hn
    unfold payloadChars
    simp only [List.all_cons, List.all_nil, Bool.and_true, Bool.and_eq_true]
    rw [hvalid _ (hlt _), hvalid _ (hlt _), hvalid _ (hlt _)]
    simp only [hbit _ 6 (by decide), hbit _ 5 (by decide), Nat.testBit_shiftRight]
  unfold decodeAscii
  rw [if_neg (by decide), ← hall]
  split
  · rename_i h
    exact iff_of_true rfl h
  · rename_i h
    exact iff_of_false Bool.false_ne_true h

section Binary

variable {mode : GolayMode} {out : ALEWord}

theorem comesBack_data {p : Nat} (hp : p < 2 ^ 21) : ComesBack mode out false (dataWord p) ↔
    p.testBit 20 ≠ p.testBit 19 ∧ p.testBit 13 ≠ p.testBit 12 ∧ p.testBit 6 ≠ p.testBit 5 := by
  rw [← decodeAscii_data]
  exact comesBack_binary (w := dataWord p) (by simp [dataWord]) hp

theorem comesBack_cmd {w : ALEWord} (ht : w.type = .cmd) (hp : w.rawPayload < 2 ^ 21) :
    ComesBack mode out false w := by
  refine (comesBack_binary (by rw [ht]; decide) hp).mpr ?_
  rw [ht]
  rfl

theorem packed_lt (bits : List Bool) (w : Nat) : (List.range 21).foldl
    (fun val b => (val <<< 1) ||| (bits.getD (w * 21 + b) false).toNat) 0 < 2 ^ 21 := by
  refine Nat.lt_pow_two_of_testBit _ fun i hi => ?_
  rw [testBit_packed, decide_eq_false (by omega), Bool.false_and]

/-- Filling up with zeros changes no bit. -/
theorem getD_reportBits (reports : List LQAReport) (j : Nat) :
    (reportBits reports).getD j false = (reports.flatMap LQAReport.bits).getD j false := by
  unfold reportBits
  dsimp only
  rcases Nat.lt_or_ge j (reports.flatMap LQAReport.bits).length with hj | hj
  · exact List.getD_append _ _ _ _ hj
  · rw [List.getD_append_right _ _ _ _ hj, List.getD_eq_default (reports.flatMap LQAReport.bits) _ hj,
      List.getD_eq_getElem?_getD, List.getElem?_replicate]
    split <;> rfl

/-- The condition on one payload of a report: the three groups of its bits. -/
theorem comesBack_packed (reports : List LQAReport) (w : Nat) :
    ComesBack mode out false (dataWord ((List.range 21).foldl (fun val b => (val <<< 1) |||
      ((reportBits reports).getD (w * 21 + b) false).toNat) 0)) ↔
      ∀ k < 3, (reports.flatMap LQAReport.bits).getD (7 * (3 * w + k)) false ≠
        (reports.flatMap LQAReport.bits).getD (7 * (3 * w + k) + 1) false := by
  rw [comesBack_data (packed_lt _ _)]
  simp only [testBit_packed, getD_reportBits]
  generalize (reports.flatMap LQAReport.bits) = bits
  constructor
  · rintro ⟨h0, h1, h2⟩ k hk
    match k, hk with
    | 0, _ => rwa [show 7 * (3 * w + 0) = w * 21 + 0 by omega]
    | 1, _ => rwa [show 7 * (3 * w + 1) = w * 21 + 7 by omega]
    | 2, _ => rwa [show 7 * (3 * w + 2) = w * 21 + 14 by omega]
  · intro h
    have h0 := h 0 (by decide)
    have h1 := h 1 (by decide)
    have h2 := h 2 (by decide)
    rw [show 7 * (3 * w + 0) = w * 21 + 0 by omega] at h0
    rw [show 7 * (3 * w + 1) = w * 21 + 7 by omega] at h1
    rw [show 7 * (3 * w + 2) = w * 21 + 14 by omega] at h2
    exact ⟨h0, h1, h2⟩

/-- **An LQA report comes back** when each group of seven bits is a character. -/
theorem comesBack_lqaReport (reports : List LQAReport) :
    (∀ w ∈ lqaReport reports, ComesBack mode out false w) ↔
      (Frame.lqaReport reports).Speakable := by
  by_cases hne : reports = []
  · subst hne
    refine iff_of_true (fun w hw => absurd hw List.not_mem_nil) fun i hi => ?_
    exact absurd hi (by simp)
  have hcmd : ∀ n : Nat, encodeReportCmd n < 2 ^ 21 := by
    intro n
    unfold encodeReportCmd
    refine Nat.or_lt_two_pow (by decide) ?_
    rw [Nat.and_two_pow_sub_one_eq_mod n 8]
    omega
  unfold lqaReport Frame.Speakable
  rw [if_neg hne, List.forall_mem_cons]
  constructor
  · rintro ⟨-, h⟩ i hi
    have hm := (mem_packReports hne).mpr ⟨i / 3, by omega, rfl⟩
    have hp := (comesBack_packed reports (i / 3)).mp (h _ (List.mem_map_of_mem hm)) (i % 3)
      (Nat.mod_lt i (by decide))
    rwa [Nat.div_add_mod] at hp
  · intro h
    refine ⟨comesBack_cmd rfl (hcmd _), fun w hw => ?_⟩
    obtain ⟨p, hp, rfl⟩ := List.mem_map.mp hw
    obtain ⟨j, hj, rfl⟩ := (mem_packReports hne).mp hp
    exact (comesBack_packed reports j).mpr fun k hk => h (3 * j + k) (by omega)

/-- **A frequency comes back** when its digits make characters. -/
theorem comesBack_freqSelect (freqHz : Nat) :
    (∀ w ∈ buildFreqSelectSequence freqHz, ComesBack mode out false w) ↔
      (Frame.freqSelect freqHz).Speakable := by
  have hlt : encodeFreqDataWord freqHz < 2 ^ 21 := by
    rw [encodeFreqDataWord_eq]
    omega
  unfold buildFreqSelectSequence Frame.Speakable
  rw [List.forall_mem_cons, List.forall_mem_singleton, comesBack_data hlt]
  simp only [Nat.testBit_eq_decide_div_mod_eq, ne_eq, decide_eq_decide]
  rw [encodeFreqDataWord_eq]
  have hd : ∀ x : Nat, x % 10 < 10 := fun x => Nat.mod_lt x (by decide)
  have h0 := hd (freqHz / 1000)
  have h1 := hd (freqHz / 1000 / 10)
  have h2 := hd (freqHz / 1000 / 100)
  have h3 := hd (freqHz / 1000 / 1000)
  have h4 := hd (freqHz / 1000 / 10000)
  generalize freqHz / 1000 % 10 = d0 at *
  generalize freqHz / 1000 / 10 % 10 = d1 at *
  generalize freqHz / 1000 / 100 % 10 = d2 at *
  generalize freqHz / 1000 / 1000 % 10 = d3 at *
  generalize freqHz / 1000 / 10000 % 10 = d4 at *
  constructor
  · rintro ⟨-, g1, g2, g3⟩
    omega
  · rintro ⟨g1, g2, g3, g4⟩
    refine ⟨comesBack_cmd rfl (by decide), ?_, ?_, ?_⟩ <;> omega

end Binary

/-! ## All frames -/

/-- The frame is made of addresses only. -/
def Frame.isAddress : Frame → Bool
  | lqaCmd _ | noiseCmd _ _ | lqaReport _ | amd _ | freqSelect _ => false
  | _ => true

/-- **A frame of addresses is made of address words.** -/
theorem addressWord_of_isAddress {f : Frame} (hf : f.Accepted) (ha : f.isAddress = true) :
    ∀ w ∈ f.words, AddressWord w := by
  have haddr : ∀ {a : Str}, a ∈ f.addresses → ∀ c ∈ a, validBasic38 c = true := fun h => hf _ h
  have htwo : ∀ {a b : Str} {v : PreambleType}, a ∈ f.addresses → b ∈ f.addresses →
      v ≠ .unknown → v ≠ .cmd → ∀ w ∈ addressedThenConclusion a .to b v, AddressWord w := by
    intro a b v ha hb hv hv' w hw
    rcases mem_addressed hw with hw | hw
    · exact addressWord_encode (haddr ha) (by decide) (by decide) hw
    · exact addressWord_encode (haddr hb) hv hv' hw
  cases f with
  | scanningCall dest n =>
    exact fun w hw => addressWord_scanningCall (haddr (by simp [Frame.addresses])) hw
  | scanningCallGroup members n => exact fun w hw => addressWord_scanningCallGroup hf hw
  | leadingCall dest =>
    intro w hw
    have hw' : w ∈ encode dest .to := by simpa [Frame.words, leadingCall, sentTwice] using hw
    exact addressWord_encode (haddr (by simp [Frame.addresses])) (by decide) (by decide) hw'
  | leadingCallGroup members =>
    intro w hw
    have hw' : w ∈ encodeGroup members .to := by
      simpa [Frame.words, leadingCallGroup, sentTwice] using hw
    exact addressWord_encodeGroup (by decide) (by decide) hf hw'
  | conclusion self r =>
    exact fun w hw => addressWord_encode (haddr (by simp [Frame.addresses]))
      (by cases r <;> decide) (by cases r <;> decide) hw
  | fromId self =>
    exact fun w hw => addressWord_encode (haddr (by simp [Frame.addresses])) (by decide)
      (by decide) hw
  | response caller self r =>
    show ∀ w ∈ OpenALE.response caller self r, AddressWord w
    unfold OpenALE.response
    split
    · exact fun w hw => addressWord_encode (haddr (by simp [Frame.addresses])) (by decide)
        (by decide) hw
    · exact htwo (by simp [Frame.addresses]) (by simp [Frame.addresses]) (by decide) (by decide)
  | ack peer self n =>
    exact htwo (by simp [Frame.addresses]) (by simp [Frame.addresses]) (by cases n <;> decide)
      (by cases n <;> decide)
  | termination peer self =>
    show ∀ w ∈ OpenALE.termination peer self, AddressWord w
    unfold OpenALE.termination
    split
    · exact fun w hw => addressWord_encode (haddr (by simp [Frame.addresses])) (by decide)
        (by decide) hw
    · exact htwo (by simp [Frame.addresses]) (by simp [Frame.addresses]) (by decide) (by decide)
  | lqaCmd _ | noiseCmd _ _ | lqaReport _ | amd _ | freqSelect _ =>
    exact absurd ha Bool.false_ne_true

/-- **Transparency.** The words of a frame come back as they were sent, in every correction mode,
exactly when the frame is `Speakable`. -/
theorem comesBack_iff (f : Frame) (hf : f.Accepted) (mode : GolayMode) (out : ALEWord) :
    (∀ w ∈ f.words, ComesBack mode out f.isText w) ↔ f.Speakable := by
  have haddress : f.isAddress = true → ∀ w ∈ f.words, ComesBack mode out true w :=
    fun h w hw => comesBack_clean (addressWord_of_isAddress hf h w hw).clean
  cases f with
  | lqaCmd raw24 =>
    refine iff_of_true (fun w hw => ?_) trivial
    rw [List.mem_singleton.mp hw]
    refine comesBack_cmd rfl ?_
    show raw24 &&& 0x1FFFFF < 2 ^ 21
    rw [Nat.and_two_pow_sub_one_eq_mod _ 21]
    exact Nat.mod_lt _ (by decide)
  | noiseCmd maxDb meanDb =>
    refine iff_of_true (fun w hw => ?_) trivial
    rw [List.mem_singleton.mp hw]
    refine comesBack_cmd rfl ?_
    refine Nat.or_lt_two_pow (Nat.or_lt_two_pow (by decide) ?_) ?_
    · rw [Nat.and_two_pow_sub_one_eq_mod maxDb 7, Nat.shiftLeft_eq]
      omega
    · rw [Nat.and_two_pow_sub_one_eq_mod meanDb 7]
      omega
  | lqaReport reports => exact comesBack_lqaReport reports
  | amd text => exact iff_of_true (fun w hw => comesBack_clean (clean_encodeAmd hw)) trivial
  | freqSelect freqHz => exact comesBack_freqSelect freqHz
  | scanningCall _ _ | scanningCallGroup _ _ | leadingCall _ | leadingCallGroup _
  | conclusion _ _ | fromId _ | response _ _ _ | ack _ _ _ | termination _ _ =>
    exact iff_of_true (haddress rfl) trivial

/-- A text comes back. -/
theorem comesBack_iff_amd :
    (∀ w ∈ (Frame.amd ['H', 'i', '!', ' ', 'Q', 'S', 'Y']).words, ComesBack .mode3_4 {} true w) ↔
      (Frame.amd ['H', 'i', '!', ' ', 'Q', 'S', 'Y']).Speakable :=
  comesBack_iff (.amd ['H', 'i', '!', ' ', 'Q', 'S', 'Y']) (by simp [Frame.Accepted, Frame.addresses])
    .mode3_4 {}

/-- **The `DATA` word of 7 MHz is refused on reception.** -/
theorem comesBack_fail : ¬ ∀ (f : Frame) (mode : GolayMode) (out : ALEWord), f.Accepted →
    ∀ w ∈ f.words, ComesBack mode out f.isText w := by
  intro h
  have hw := h (.freqSelect 7000000) .mode3_4 {} (by simp [Frame.Accepted, Frame.addresses])
    (dataWord (encodeFreqDataWord 7000000)) (by simp [Frame.words, buildFreqSelectSequence])
  have hp := (comesBack_data (by decide)).mp hw
  exact absurd hp.1 (by decide)

end OpenALE
