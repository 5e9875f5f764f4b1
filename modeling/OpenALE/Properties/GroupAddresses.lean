import OpenALE.Message.Validator

/-!
# Group addresses read back

`AddressEncoder::encode_group` and `FrameValidator::reconstruct_to_addresses` each keep track of
the last word type that is not `REP`. The two agree word by word: a `REP` anchor is written exactly
where the reader takes `REP` for a new recipient.

Results:
* `foldl_encode`: the reader closes the address before and takes up the next one whole.
* `reconstruct_encodeGroup`: a list of addresses comes back from its words, and twice from the
  doubled leading call.
-/

namespace OpenALE

/-- A non-empty Basic-38 address of at most 15 characters without the filler `'@'`. -/
structure GroupAddress (addr : Str) : Prop where
  ne_nil : addr ≠ []
  le_fifteen : addr.length ≤ 15
  basic38 : ∀ c ∈ addr, validBasic38 c = true
  no_filler : '@' ∉ addr

instance (addr : Str) : Decidable (GroupAddress addr) :=
  decidable_of_iff (addr ≠ [] ∧ addr.length ≤ 15 ∧ addr.all validBasic38 = true ∧ '@' ∉ addr)
    ⟨fun h => ⟨h.1, h.2.1, List.all_eq_true.mp h.2.2.1, h.2.2.2⟩,
      fun h => ⟨h.ne_nil, h.le_fifteen, List.all_eq_true.mpr h.basic38, h.no_filler⟩⟩

/-! ## The chunks of an address -/

section Chunks

variable {addr : Str}

theorem GroupAddress.chunk_eq (h : GroupAddress addr) : chunk addr = triples '@' addr := by
  unfold chunk
  rw [List.take_of_length_le h.le_fifteen]
  match addr, h.ne_nil with
  | [_], _ => rfl
  | [_, _], _ => rfl
  | _ :: _ :: _ :: _, _ => rfl

/-- A triple of Basic-38 characters. -/
def Chunk (c : Str) : Prop := c.length = 3 ∧ ∀ x ∈ c, validBasic38 x = true

theorem GroupAddress.chunk_of_mem (h : GroupAddress addr) : ∀ c ∈ chunk addr, Chunk c := by
  intro c hc
  rw [h.chunk_eq] at hc
  refine ⟨length_of_mem_triples hc, fun x hx => ?_⟩
  rcases mem_of_mem_triples hc hx with hx | rfl
  · exact h.basic38 x hx
  · decide

namespace FrameValidator

theorem stripPadding_of_chunk {c : Str} (h : Chunk c) :
    stripPadding c = c.rdropWhile (· == '@') := by
  have hz : ∀ x ∈ c, (x != '\x00') = true := by
    intro x hx
    have := (validBasic38_iff x).mp (h.2 x hx)
    rw [bne_iff_ne]
    rintro rfl
    revert this
    decide
  unfold stripPadding cstr
  rw [List.takeWhile_eq_self_iff.mpr hz]

/-- Nothing is lost but the padding. -/
theorem flatMap_rdropWhile_triples : ∀ {s : Str}, '@' ∉ s →
    (triples '@' s).flatMap (·.rdropWhile (· == '@')) = s
  | [], _ => rfl
  | [a], h => by
    have ha : a ≠ '@' := by rintro rfl; exact h (by simp)
    simp [triples, List.rdropWhile, ha]
  | [a, b], h => by
    have hb : b ≠ '@' := by rintro rfl; exact h (by simp)
    simp [triples, List.rdropWhile, hb]
  | a :: b :: c :: rest, h => by
    have hc : c ≠ '@' := by rintro rfl; exact h (by simp)
    have hr : '@' ∉ rest := by
      intro hm
      exact h (by simp [hm])
    have ih := flatMap_rdropWhile_triples hr
    simp only [triples, List.flatMap_cons, ih]
    simp [List.rdropWhile, hc]

theorem flatMap_stripPadding_chunk (h : GroupAddress addr) :
    (chunk addr).flatMap stripPadding = addr := by
  have he : ∀ c ∈ chunk addr, stripPadding c = c.rdropWhile (· == '@') :=
    fun c hc => stripPadding_of_chunk (h.chunk_of_mem c hc)
  rw [List.flatMap_congr he, h.chunk_eq]
  exact flatMap_rdropWhile_triples h.no_filler

end FrameValidator

end Chunks

/-! ## Reading the words of an address -/

namespace FrameValidator

namespace Reconstruction

variable {r : Reconstruction} {a : Str} {cs : List Str} {ts : List PreambleType}

theorem add_makeWord {t : PreambleType} (ht : t ≠ .unknown) {c : Str} (hc : Chunk c) :
    r.add (makeWord t c) = r.add { type := t, address := c } := by
  obtain ⟨h1, h2, -⟩ := makeWord_chunk ht hc.1 hc.2
  unfold add
  rw [h1, h2]

/-- Behind a `DATA` word every extension word extends the address. -/
theorem foldl_extend (hl : r.lastNonRep = .data) (ht : ∀ t ∈ ts, t = .data ∨ t = .rep)
    (hc : ∀ c ∈ cs, Chunk c) (hlen : cs.length ≤ ts.length) :
    (List.zipWith makeWord ts cs).foldl add r =
      { r with current := r.current ++ cs.flatMap stripPadding } := by
  induction ts generalizing cs r with
  | nil =>
    have : cs = [] := List.length_eq_zero_iff.mp (Nat.le_zero.mp hlen)
    subst this
    simp
  | cons t ts ih =>
    cases cs with
    | nil => simp
    | cons c cs =>
      obtain ⟨ht, hts⟩ := List.forall_mem_cons.mp ht
      obtain ⟨hc, hcs⟩ := List.forall_mem_cons.mp hc
      have hne : t ≠ .unknown := by rcases ht with h | h <;> rw [h] <;> simp
      have hstep : r.add (makeWord t c) = { r with current := r.current ++ stripPadding c } := by
        rw [add_makeWord hne hc]
        rcases ht with rfl | rfl
        · exact congrArg (Reconstruction.mk r.addresses (r.current ++ stripPadding c)) hl.symm
        · simp [add, hl]
      have hrest := @ih { r with current := r.current ++ stripPadding c } cs hl hts hcs
        (Nat.le_of_succ_le_succ hlen)
      rw [List.zipWith_cons_cons, List.foldl_cons, hstep, hrest]
      simp [List.append_assoc]

/-- What the extension words of an address add. -/
theorem foldl_encodeExt (hc : ∀ c ∈ cs, Chunk c) (hlen : cs.length ≤ 4) :
    (encodeExt cs).foldl add r =
      { r with
        current := r.current ++ cs.flatMap stripPadding
        lastNonRep := if cs = [] then r.lastNonRep else .data } := by
  cases cs with
  | nil => simp [encodeExt]
  | cons c cs =>
    obtain ⟨hc, hcs⟩ := List.forall_mem_cons.mp hc
    have hstep : r.add (makeWord .data c) =
        { r with current := r.current ++ stripPadding c, lastNonRep := .data } := by
      rw [add_makeWord (by simp) hc]
      rfl
    have hrest : ([.rep, .data, .rep].zipWith makeWord cs).foldl add
        { r with current := r.current ++ stripPadding c, lastNonRep := .data } = _ :=
      foldl_extend rfl (by decide) hcs (Nat.le_of_succ_le_succ hlen)
    unfold encodeExt extTypes
    rw [List.zipWith_cons_cons, List.foldl_cons, hstep, hrest]
    simp [List.append_assoc]

/-- The last type that is not `REP` behind the words of an address anchored like `TO`. -/
def lastTypeOf (a : Str) : PreambleType := if (chunk a).length = 1 then .to else .data

/-- **The reader closes the address before and takes up the next one whole**, when the anchor
acts as `TO`. -/
theorem foldl_encode (h : GroupAddress a) {t : PreambleType}
    (ht : t = .to ∨ t = .rep ∧ r.lastNonRep = .to ∧ r.current ≠ []) :
    (encode a t).foldl add r =
      { addresses := r.close, current := a, lastNonRep := lastTypeOf a } := by
  have hne : t ≠ .unknown := by rcases ht with rfl | ⟨rfl, -⟩ <;> simp
  have hlen := length_chunk_le a
  obtain ⟨c, cs, hcs⟩ := List.exists_cons_of_ne_nil (chunk_ne_nil a)
  have hchunk := h.chunk_of_mem
  have hstrip := flatMap_stripPadding_chunk h
  rw [hcs] at hlen hchunk hstrip
  obtain ⟨hc, hcs'⟩ := List.forall_mem_cons.mp hchunk
  have hfirst : r.add (makeWord t c) =
      { addresses := r.close, current := stripPadding c, lastNonRep := .to } := by
    rw [add_makeWord hne hc]
    rcases ht with rfl | ⟨rfl, hl, hcur⟩
    · simp [add, close]
    · simp [add, close, hl, hcur]
  unfold encode lastTypeOf
  rw [hcs, List.headD_cons, List.tail_cons, List.foldl_cons, hfirst,
    foldl_encodeExt hcs' (Nat.le_of_succ_le_succ hlen)]
  simp only [List.flatMap_cons] at hstrip
  cases cs <;> simp_all

/-- The writer's `last_non_rep` behind an address is the reader's. -/
theorem lastNonRep_encode {l t : PreambleType} (ht : t = .to ∨ t = .rep ∧ l = .to) :
    OpenALE.lastNonRep l (t :: extTypes.take ((chunk a).length - 1)) = lastTypeOf a := by
  have h1 := length_chunk_pos a
  have h2 := length_chunk_le a
  unfold lastTypeOf
  obtain ⟨n, hn⟩ : ∃ n, (chunk a).length = n + 1 := ⟨_, (Nat.succ_pred_eq_of_pos h1).symm⟩
  rw [hn] at h2 ⊢
  have h4 : n ≤ 4 := by omega
  rcases ht with rfl | ⟨rfl, rfl⟩ <;> interval_cases n <;> rfl

/-- The members of a group from the second on. -/
theorem foldl_encodeGroupFrom {l : PreambleType} {as : List Str} (h : ∀ a ∈ as, GroupAddress a)
    (hl : r.lastNonRep = l) (hcur : r.current ≠ []) :
    ((encodeGroupFrom .to l as).foldl add r).close = r.close ++ as := by
  induction as generalizing r l with
  | nil => simp [encodeGroupFrom]
  | cons a as ih =>
    have ha := h a (by simp)
    have hanchor : ∀ t, t = (if l = .to then PreambleType.rep else .to) →
        t = .to ∨ t = .rep ∧ l = .to := by
      rintro t rfl
      split <;> simp [*]
    obtain ht := hanchor _ rfl
    have ht' : (if l = .to then PreambleType.rep else .to) = .to ∨
        (if l = .to then PreambleType.rep else .to) = .rep ∧ r.lastNonRep = .to ∧ r.current ≠ [] :=
      ht.imp id fun hr => ⟨hr.1, hl.trans hr.2, hcur⟩
    simp only [encodeGroupFrom]
    rw [List.foldl_append, foldl_encode ha ht', lastNonRep_encode ht,
      ih (fun a' ha' => h a' (by simp [ha'])) rfl ha.ne_nil]
    simp [close, ha.ne_nil]

/-- A whole group, whatever was read before. -/
theorem foldl_encodeGroup {as : List Str} (h : ∀ a ∈ as, GroupAddress a) :
    ((encodeGroup as .to).foldl add r).close = r.close ++ as := by
  cases as with
  | nil => simp [encodeGroup]
  | cons a as =>
    have ha := h a (by simp)
    simp only [encodeGroup]
    rw [List.foldl_append, foldl_encode ha (Or.inl rfl), lastNonRep_encode (Or.inl rfl),
      foldl_encodeGroupFrom (fun a' ha' => h a' (by simp [ha'])) rfl ha.ne_nil]
    simp [close, ha.ne_nil]

end Reconstruction

theorem reconstructToAddresses_encodeGroup {addrs : List Str} (h : ∀ a ∈ addrs, GroupAddress a) :
    reconstructToAddresses (encodeGroup addrs .to) = addrs :=
  Reconstruction.foldl_encodeGroup h

end FrameValidator

open FrameValidator in
/-- **Group address encoding is invertible.** The addresses come back from the words of the group
and, twice, from the doubled leading call; two lists with the same words are the same list; a
group of one is encoded like the address alone. -/
theorem reconstruct_encodeGroup (addrs : List Str) (h : ∀ a ∈ addrs, GroupAddress a) :
    reconstructToAddresses (encodeGroup addrs .to) = addrs ∧
      reconstructToAddresses (leadingCallGroup addrs) = addrs ++ addrs ∧
      (∀ addrs' : List Str, (∀ a ∈ addrs', GroupAddress a) →
        encodeGroup addrs .to = encodeGroup addrs' .to → addrs = addrs') ∧
      ∀ (a : Str) (t : PreambleType), encodeGroup [a] t = encode a t := by
  refine ⟨reconstructToAddresses_encodeGroup h, ?_, ?_, ?_⟩
  · unfold reconstructToAddresses leadingCallGroup sentTwice
    rw [List.foldl_append, Reconstruction.foldl_encodeGroup h, Reconstruction.foldl_encodeGroup h]
    rfl
  · intro addrs' h' hw
    rw [← reconstructToAddresses_encodeGroup h, hw, reconstructToAddresses_encodeGroup h']
  · intro a t
    simp [encodeGroup, encodeGroupFrom]

theorem reconstruct_encodeGroup_four :
    FrameValidator.reconstructToAddresses
        (leadingCallGroup ["ABC".toList, "D".toList, "EFGHIJ".toList, "XYZ".toList]) =
      ["ABC".toList, "D".toList, "EFGHIJ".toList, "XYZ".toList,
        "ABC".toList, "D".toList, "EFGHIJ".toList, "XYZ".toList] :=
  (reconstruct_encodeGroup ["ABC".toList, "D".toList, "EFGHIJ".toList, "XYZ".toList]
    (by simp only [List.forall_mem_cons]; decide +kernel)).2.1

end OpenALE
