import OpenALE.Word.Basic

/-!
# `AddressEncoder`: from address strings to words

Model of `src/Word/address_encoder.cpp`. An address becomes one to five words: the anchor type
first, then `DATA`, `REP`, `DATA`, `REP` (`EXT`). `encode_group` gives a later member a `REP`
anchor exactly when `last_non_rep` is `TO`, that is when the member before it fills one word.

Results:
* `encode_cons`: the words of an address are its anchor word and its extension words, and every
  extension word is `DATA` or `REP` (`type_of_mem_encodeExt`).
* `encodeFirst_spec`: the anchor word carries the first three characters of a station address.
-/

namespace OpenALE

/-- Split into triples, the last one filled up with `pad`. -/
def triples (pad : Char) : Str → List Str
  | [] => []
  | [a] => [[a, pad, pad]]
  | [a, b] => [[a, b, pad]]
  | a :: b :: c :: rest => [a, b, c] :: triples pad rest

/-- `AddressEncoder::chunk`: at most 15 characters in triples filled with `'@'`; the empty
address is one word of fillers. -/
def chunk (addr : Str) : List Str :=
  match triples '@' (addr.take 15) with
  | [] => [['@', '@', '@']]
  | c :: cs => c :: cs

/-- `EXT`: the types of the extension words. -/
def extTypes : List PreambleType := [.data, .rep, .data, .rep]

/-- The words of the chunks after the first. -/
def encodeExt (cs : List Str) : List ALEWord := List.zipWith makeWord extTypes cs

/-- `AddressEncoder::encode`. -/
def encode (addr : Str) (firstWordType : PreambleType) : List ALEWord :=
  makeWord firstWordType ((chunk addr).headD []) :: encodeExt (chunk addr).tail

/-- `AddressEncoder::encode_first`. -/
def encodeFirst (addr : Str) (firstWordType : PreambleType) : ALEWord :=
  makeWord firstWordType ((chunk addr).headD [])

/-- `last_non_rep` after words of the given types. -/
def lastNonRep (l : PreambleType) (types : List PreambleType) : PreambleType :=
  types.foldl (fun l t => if t ≠ .rep then t else l) l

/-- The loop of `encode_group` from its second address on. -/
def encodeGroupFrom (firstWordType : PreambleType) : PreambleType → List Str → List ALEWord
  | _, [] => []
  | last, a :: as =>
    let anchor := if last = .to then .rep else firstWordType
    encode a anchor ++
      encodeGroupFrom firstWordType
        (lastNonRep last (anchor :: extTypes.take ((chunk a).length - 1))) as

/-- `AddressEncoder::encode_group`. -/
def encodeGroup (addrs : List Str) (firstWordType : PreambleType) : List ALEWord :=
  match addrs with
  | [] => []
  | a :: as =>
    encode a firstWordType ++
      encodeGroupFrom firstWordType
        (lastNonRep .unknown (firstWordType :: extTypes.take ((chunk a).length - 1))) as

/-! ## Station addresses -/

/-- A Basic-38 address of 3 to 15 characters: what `AddressBook::set_self_address` and the
controller's `is_valid_ale_address` accept. -/
structure StationAddress (addr : Str) : Prop where
  three_le : 3 ≤ addr.length
  le_fifteen : addr.length ≤ 15
  basic38 : ∀ c ∈ addr, validBasic38 c = true

/-- The same without the filler `'@'`. -/
structure PlainAddress (addr : Str) : Prop extends StationAddress addr where
  no_filler : '@' ∉ addr

instance (addr : Str) : Decidable (StationAddress addr) :=
  decidable_of_iff (3 ≤ addr.length ∧ addr.length ≤ 15 ∧ addr.all validBasic38 = true)
    ⟨fun h => ⟨h.1, h.2.1, List.all_eq_true.mp h.2.2⟩,
      fun h => ⟨h.three_le, h.le_fifteen, List.all_eq_true.mpr h.basic38⟩⟩

instance (addr : Str) : Decidable (PlainAddress addr) :=
  decidable_of_iff (StationAddress addr ∧ '@' ∉ addr)
    ⟨fun h => ⟨h.1, h.2⟩, fun h => ⟨h.toStationAddress, h.no_filler⟩⟩

/-! ## Triples -/

theorem length_of_mem_triples {pad : Char} : ∀ {s : Str} {t : Str}, t ∈ triples pad s →
    t.length = 3
  | [], t, h => absurd h List.not_mem_nil
  | [a], t, h => by rw [List.mem_singleton.mp h]; rfl
  | [a, b], t, h => by rw [List.mem_singleton.mp h]; rfl
  | a :: b :: c :: rest, t, h => by
    rcases List.mem_cons.mp h with rfl | h
    · rfl
    · exact length_of_mem_triples h

/-- Every character of a triple comes from the string or is the filler. -/
theorem mem_of_mem_triples {pad : Char} : ∀ {s : Str} {t : Str} {c : Char}, t ∈ triples pad s →
    c ∈ t → c ∈ s ∨ c = pad
  | [], t, c, h, _ => absurd h List.not_mem_nil
  | [a], t, c, h, hc => by rw [List.mem_singleton.mp h] at hc; simp at hc ⊢; tauto
  | [a, b], t, c, h, hc => by rw [List.mem_singleton.mp h] at hc; simp at hc ⊢; tauto
  | a :: b :: d :: rest, t, c, h, hc => by
    rcases List.mem_cons.mp h with rfl | h
    · left; simp at hc ⊢; tauto
    · rcases mem_of_mem_triples h hc with h | h
      · left; simp [h]
      · exact Or.inr h

theorem length_triples (pad : Char) : ∀ s : Str, (triples pad s).length = (s.length + 2) / 3
  | [] => rfl
  | [_] => by simp [triples]
  | [_, _] => by simp [triples]
  | _ :: _ :: _ :: rest => by
    simp only [triples, List.length_cons, length_triples pad rest]
    omega

theorem chunk_ne_nil (addr : Str) : chunk addr ≠ [] := by
  unfold chunk
  split <;> simp

/-- At most five chunks. -/
theorem length_chunk_le (addr : Str) : (chunk addr).length ≤ 5 := by
  have h := length_triples '@' (addr.take 15)
  have h15 := List.length_take_le 15 addr
  unfold chunk
  split
  · simp
  · rename_i c cs hc
    rw [hc] at h
    omega

theorem length_chunk_pos (addr : Str) : 0 < (chunk addr).length :=
  List.length_pos_iff.mpr (chunk_ne_nil addr)

section Plain

variable {addr : Str}

theorem chunk_eq_triples (h : StationAddress addr) : chunk addr = triples '@' addr := by
  have h3 := h.three_le
  unfold chunk
  rw [List.take_of_length_le h.le_fifteen]
  match addr, h3 with
  | a :: b :: c :: rest, _ => rfl

theorem mem_chunk_length (h : StationAddress addr) {t : Str} (ht : t ∈ chunk addr) :
    t.length = 3 := by
  rw [chunk_eq_triples h] at ht
  exact length_of_mem_triples ht

theorem mem_chunk_basic38 (h : StationAddress addr) {t : Str} (ht : t ∈ chunk addr) :
    ∀ c ∈ t, validBasic38 c = true := by
  rw [chunk_eq_triples h] at ht
  intro c hc
  rcases mem_of_mem_triples ht hc with hc | rfl
  · exact h.basic38 c hc
  · decide

/-- The first chunk of an address is its first three characters. -/
theorem headD_chunk (h : StationAddress addr) : (chunk addr).headD [] = addr.take 3 := by
  rw [chunk_eq_triples h]
  have h3 := h.three_le
  match addr, h3 with
  | a :: b :: c :: rest, _ => rfl

end Plain

/-! ## The words of an address -/

/-- The word of type `t` that carries the three characters `c`. -/
theorem makeWord_chunk {t : PreambleType} (ht : t ≠ .unknown) {c : Str} (hl : c.length = 3)
    (hc : ∀ x ∈ c, validBasic38 x = true) :
    (makeWord t c).type = t ∧ (makeWord t c).address = c ∧ (makeWord t c).valid = true := by
  match c, hl with
  | [c0, c1, c2], _ =>
    have h := makeWord_eq ht (validChar_of_basic38 t (hc c0 (by simp)))
      (validChar_of_basic38 t (hc c1 (by simp))) (validChar_of_basic38 t (hc c2 (by simp)))
    rw [h]
    exact ⟨rfl, rfl, rfl⟩

theorem encode_cons (addr : Str) (t : PreambleType) :
    encode addr t = encodeFirst addr t :: encodeExt (chunk addr).tail := rfl

theorem length_encode (addr : Str) (t : PreambleType) :
    (encode addr t).length = (chunk addr).length := by
  have h1 := length_chunk_le addr
  have h2 := length_chunk_pos addr
  simp only [encode, encodeExt, List.length_cons, List.length_zipWith, List.length_tail, extTypes,
    List.length_nil]
  omega

theorem length_encode_pos (addr : Str) (t : PreambleType) : 0 < (encode addr t).length := by
  rw [length_encode]; exact length_chunk_pos addr

/-- The first word carries the first three characters. -/
theorem encodeFirst_spec {addr : Str} (h : StationAddress addr) {t : PreambleType}
    (ht : t ≠ .unknown) :
    (encodeFirst addr t).type = t ∧ (encodeFirst addr t).address = addr.take 3 ∧
      (encodeFirst addr t).valid = true := by
  have hmem : (chunk addr).headD [] ∈ chunk addr := by
    cases hc : chunk addr with
    | nil => exact absurd hc (chunk_ne_nil addr)
    | cons c cs => simp
  have := makeWord_chunk ht (mem_chunk_length h hmem) (mem_chunk_basic38 h hmem)
  rw [headD_chunk h] at this
  unfold encodeFirst
  rw [headD_chunk h]
  exact this

/-- An extension word is a valid `DATA` or `REP` word. -/
theorem mem_encodeExt {cs : List Str} (hl : ∀ c ∈ cs, c.length = 3)
    (hv : ∀ c ∈ cs, ∀ x ∈ c, validBasic38 x = true) {w : ALEWord} (hw : w ∈ encodeExt cs) :
    (w.type = .data ∨ w.type = .rep) ∧ w.valid = true := by
  unfold encodeExt at hw
  rw [List.mem_iff_getElem] at hw
  obtain ⟨i, hi, rfl⟩ := hw
  rw [List.getElem_zipWith]
  simp only [List.length_zipWith] at hi
  have hi1 : i < extTypes.length := by omega
  have hi2 : i < cs.length := by omega
  have ht : extTypes[i] = .data ∨ extTypes[i] = .rep := by
    have : ∀ t ∈ extTypes, t = .data ∨ t = .rep := by decide
    exact this _ (List.getElem_mem hi1)
  have hne : extTypes[i] ≠ .unknown := by rcases ht with h | h <;> rw [h] <;> decide
  have := makeWord_chunk hne (hl _ (List.getElem_mem hi2)) (hv _ (List.getElem_mem hi2))
  rw [this.1]
  exact ⟨ht, this.2.2⟩

end OpenALE
