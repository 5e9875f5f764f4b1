import OpenALE.App.SoundingIdentity
import OpenALE.Library.Machine
import OpenALE.Properties.GroupAddresses

/-!
# The name a sounding is filed under

A station sends the words of its address over and over, one each `Trw`. Each word is heard, heard
as invalid, or lost; `tick_frame_settle` runs at any time. The accumulator knows the place of an
extension word by the words it heard before it.

Results:
* `filed_iff`: soundings are filed under their names exactly if no extension word is heard where
  another one of its type is expected, and no cycle begins after the session has timed out.
* `filed_fail`: two words lost in a row put a third one into the wrong slot.
-/

namespace OpenALE

open SoundingIdentityAccumulator

/-- A sounding: the address, the type of its conclusion and how many words of it are sent. -/
structure SoundingOnAir where
  addr : Str
  twas : Bool := false
  total : Nat
  frequencyHz : UInt32 := 7102000
  startMs : UInt32 := 0

namespace SoundingOnAir

variable (on : SoundingOnAir)

/-- The words of one cycle. -/
def words : List ALEWord := encode on.addr (if on.twas then .twas else .tis)

/-- What the chunks of the address say. -/
def texts : List Str := (chunk on.addr).map trimAleAddress

end SoundingOnAir

/-- The reception: the accumulator, the words sent so far, the time since the start, the results,
and how many words from the conclusion on were heard in a row: in this cycle, and at best in one
cycle of the session. -/
structure SoundingRun where
  acc : SoundingIdentityAccumulator := {}
  sent : Nat := 0
  now : Nat := 0
  results : List Result := []
  clean : Nat := 0
  reached : Nat := 0

/-- How a word is received. A valid word has unanimous votes. -/
inductive Reception where
  | heard (votes : Nat) (positive : 0 < votes)
  | invalid (word : ALEWord) (invalid : word.valid = false)
  | lost

/-- What happens. -/
inductive SoundingOp where
  | word (r : Reception) (sinadDb : Float32)
  /-- Not before the last word, and not behind the next one. -/
  | poll (later : Nat)

namespace SoundingRun

variable (on : SoundingOnAir)

/-- The place of the next word in its cycle. -/
def place (x : SoundingRun) : Nat := x.sent % on.words.length

/-- A word of the sounding, as it is heard. -/
def heardWord (x : SoundingRun) (votes : Nat) : ALEWord :=
  { on.words.getD (x.place on) {} with unanimousVotes := votes }

/-- The word that is handed to the accumulator; a sounding that is over sends none. -/
def delivered (x : SoundingRun) (r : Reception) : Option ALEWord :=
  if x.sent < on.total then
    match r with
    | .heard votes _ => some (x.heardWord on votes)
    | .invalid word _ => some word
    | .lost => none
  else none

/-- When the next word ends, in milliseconds. -/
def due (x : SoundingRun) : Nat := (x.sent + 1) * trwMs.toNat

/-- The time of an operation. -/
def time (x : SoundingRun) : SoundingOp → Nat
  | .word _ _ => x.due
  | .poll later => if x.sent < on.total then min (x.now + later) x.due else x.now + later

/-- The accumulator's reaction. -/
def react (x : SoundingRun) (op : SoundingOp) : Option Result × SoundingIdentityAccumulator :=
  let nowMs := on.startMs + UInt32.ofNat (x.time on op)
  match op with
  | .word r sinadDb =>
    match x.delivered on r with
    | some word => x.acc.onWord word sinadDb on.frequencyHz nowMs
    | none => (none, x.acc)
  | .poll _ => x.acc.tickFrameSettle nowMs

/-- The words heard in a row after another one. -/
def cleanAfter (x : SoundingRun) : Reception → Nat
  | .heard _ _ =>
    if x.place on = 0 then 1 else if x.clean = x.place on then x.clean + 1 else x.clean
  | _ => if x.place on = 0 then 0 else x.clean

/-- One operation. -/
def step (x : SoundingRun) (op : SoundingOp) : SoundingRun :=
  match op with
  | .word r _ =>
    if x.sent < on.total then
      { acc := (x.react on op).2
        sent := x.sent + 1
        now := x.time on op
        results := x.results ++ (x.react on op).1.toList
        clean := x.cleanAfter on r
        reached := max x.reached (x.cleanAfter on r) }
    else x
  | .poll _ =>
    let timedOut := x.acc.timedOut (on.startMs + UInt32.ofNat (x.time on op))
    { acc := (x.react on op).2
      sent := x.sent
      now := x.time on op
      results := x.results ++ (x.react on op).1.toList
      clean := if timedOut then 0 else x.clean
      reached := if timedOut then 0 else x.reached }

/-! ## The property -/

/-- The slot a word would be counted in, if it is of the right type. -/
def openSlot (x : SoundingRun) : Option Nat :=
  match x.acc.session with
  | none => none
  | some s => if s.cycleOpen = true ∧ s.nextSlot ≤ kMaxExtSlots then some s.nextSlot else none

/-- The name is made of the first chunks, all of them if they were heard in a row. -/
def Names (x : SoundingRun) (station : Str) : Prop :=
  (∃ m, 1 ≤ m ∧ m ≤ on.words.length ∧ station = on.addr.take (3 * m)) ∧
    (x.reached = on.words.length → station = on.addr)

/-- An operation files what is right: a result has the sounding's name, there is one and no second
session, and an extension word that is counted is counted at its place. -/
structure Filed (x : SoundingRun) (op : SoundingOp) : Prop where
  named : ∀ r, (x.react on op).1 = some r → x.Names on r.station
  once : (x.step on op).results = [] ∨
    (x.step on op).results.length = 1 ∧ (x.step on op).acc.session = none
  placed : ∀ s s', 0 < x.place on → x.acc.session = some s →
    (x.step on op).acc.session = some s' → s'.nextSlot = s.nextSlot + 1 → s.nextSlot = x.place on

/-- No extension word is heard where another one of its type is expected, and no conclusion after
the session has timed out. -/
def Keeps (x : SoundingRun) : SoundingOp → Prop
  | .word (.heard _ _) _ => x.sent < on.total →
    if x.place on = 0 then x.results = []
    else ∀ slot, x.openSlot = some slot → x.place on % 2 = slot % 2 → slot = x.place on
  | _ => True

end SoundingRun

/-! ## The words of an address -/

/-- The first triples say the first characters. -/
theorem flatten_take_triples : ∀ {s : Str} (m : Nat), (∀ c ∈ s, (c == ' ' || c == '@') = false) →
    (((triples '@' s).map trimAleAddress).take m).flatten = s.take (3 * m)
  | [], m, _ => by simp [triples]
  | s, 0, _ => by simp
  | [a], m + 1, h => by
    have ha := h a (by simp)
    rw [List.take_of_length_le (l := [a]) (by simp; omega)]
    simp_all [triples, trimAleAddress, List.rdropWhile]
  | [a, b], m + 1, h => by
    have hb := h b (by simp)
    rw [List.take_of_length_le (l := [a, b]) (by simp; omega)]
    simp_all [triples, trimAleAddress, List.rdropWhile]
  | a :: b :: c :: rest, m + 1, h => by
    have hc := h c (by simp)
    have ih := flatten_take_triples (s := rest) m fun x hx => h x (by simp [hx])
    have htrim : trimAleAddress [a, b, c] = [a, b, c] := by
      simp_all [trimAleAddress, List.rdropWhile]
    rw [triples, List.map_cons, List.take_succ_cons, List.flatten_cons, ih, htrim]
    rfl

theorem GroupAddress.plain {addr : Str} (h : GroupAddress addr) :
    ∀ c ∈ addr, (c == ' ' || c == '@') = false := by
  intro c hc
  have hspace : c ≠ ' ' := by
    rintro rfl
    exact absurd (h.basic38 ' ' hc) (by decide)
  have hfiller : c ≠ '@' := by
    rintro rfl
    exact h.no_filler hc
  rw [beq_eq_false_iff_ne.mpr hspace, beq_eq_false_iff_ne.mpr hfiller]
  rfl

namespace SoundingOnAir

variable (on : SoundingOnAir)

theorem length_words : on.words.length = (chunk on.addr).length := length_encode _ _

theorem length_texts : on.texts.length = on.words.length := by
  rw [length_words]
  exact List.length_map _

theorem words_pos : 0 < on.words.length := length_encode_pos _ _

theorem words_le : on.words.length ≤ 5 := by
  rw [length_words]
  exact length_chunk_le _

variable {on}

/-- The texts of the first chunks are the first characters. -/
theorem texts_take (h : GroupAddress on.addr) (m : Nat) :
    (on.texts.take m).flatten = on.addr.take (3 * m) := by
  unfold texts
  rw [h.chunk_eq]
  exact flatten_take_triples m h.plain

/-- All chunks are the whole address. -/
theorem take_words (h : GroupAddress on.addr) : on.addr.take (3 * on.words.length) = on.addr := by
  rw [length_words, h.chunk_eq, length_triples]
  exact List.take_of_length_le (by omega)

/-- What the words of the address are. -/
theorem word_spec (h : GroupAddress on.addr) {j : Nat} (hj : j < on.words.length) :
    (on.words.getD j {}).valid = true ∧
      trimAleAddress (on.words.getD j {}).address = on.texts.getD j [] ∧
      (on.words.getD j {}).type =
        if j = 0 then (if on.twas then .twas else .tis) else expectedTypeForSlot j := by
  have hle := words_le on
  have hconclusion : (if on.twas then PreambleType.twas else .tis) ≠ .unknown := by
    split <;> decide
  have hchunks := h.chunk_of_mem
  unfold words encode texts at *
  cases hchunk : chunk on.addr with
  | nil => exact absurd hchunk (chunk_ne_nil _)
  | cons c cs =>
    rw [hchunk] at hj hle hchunks
    cases j with
    | zero =>
      obtain ⟨htype, haddress, hvalid⟩ := makeWord_chunk hconclusion
        (hchunks c List.mem_cons_self).1 (hchunks c List.mem_cons_self).2
      refine ⟨hvalid, ?_, htype⟩
      exact congrArg trimAleAddress haddress
    | succ j =>
      unfold encodeExt at *
      simp only [List.length_cons, List.length_zipWith, List.tail_cons] at hj hle
      have hcs : j < cs.length := by omega
      have hext : j < extTypes.length := by omega
      have htypes : ∀ j (hj : j < extTypes.length), extTypes[j] = expectedTypeForSlot (j + 1) ∧
          extTypes[j] ≠ .unknown := by
        decide
      have hmem : cs[j] ∈ c :: cs := List.mem_cons_of_mem _ (List.getElem_mem hcs)
      obtain ⟨htype, haddress, hvalid⟩ := makeWord_chunk (htypes j hext).2
        (hchunks _ hmem).1 (hchunks _ hmem).2
      have hword : (makeWord (if on.twas then PreambleType.twas else .tis) ((c :: cs).headD []) ::
          List.zipWith makeWord extTypes (c :: cs).tail).getD (j + 1) {} =
            makeWord extTypes[j] cs[j] := by
        rw [List.getD_cons_succ, List.tail_cons,
          List.getD_eq_getElem _ _ (by rw [List.length_zipWith]; omega), List.getElem_zipWith]
      have htext : ((c :: cs).map trimAleAddress).getD (j + 1) [] = trimAleAddress cs[j] := by
        rw [List.map_cons, List.getD_cons_succ,
          List.getD_eq_getElem _ _ (by rw [List.length_map]; exact hcs), List.getElem_map]
      rw [hword, htext, htype, haddress, hvalid, (htypes j hext).1]
      exact ⟨rfl, rfl, rfl⟩

end SoundingOnAir

/-! ## The session -/

namespace SoundingRun

variable {on : SoundingOnAir}

/-- The first slots up to one were observed and hold the votes of their chunks. -/
structure Sound (on : SoundingOnAir) (reached : Nat) (s : Session) : Prop where
  anchor : s.anchor = on.texts.getD 0 []
  slot_pos : 1 ≤ s.nextSlot
  slots : ∃ m, s.nextSlot ≤ m + 1 ∧ m + 1 ≤ on.words.length ∧ reached ≤ m + 1 ∧
    (∀ i < m, Agrees (s.slotVotes i) (on.texts.getD (i + 1) [])) ∧
      ∀ i, m ≤ i → s.slotVotes i = []

theorem Sound.mono {a b : Nat} {s : Session} (h : Sound on a s) (hle : b ≤ a) : Sound on b s := by
  obtain ⟨hanchor, hpos, m, hnext, hm, hreached, hslots⟩ := h
  exact ⟨hanchor, hpos, m, hnext, hm, hle.trans hreached, hslots⟩

/-- The name of a sound session. -/
theorem station_of_sound (h : GroupAddress on.addr) {reached : Nat} {s : Session}
    (hs : Sound on reached s) : ∃ m, 1 ≤ m ∧ m ≤ on.words.length ∧ reached ≤ m ∧
      (buildResult s).station = on.addr.take (3 * m) := by
  obtain ⟨hanchor, -, m, -, hm, hreached, hagree, hempty⟩ := hs
  refine ⟨m + 1, by omega, hm, hreached, ?_⟩
  have hlength : ((on.texts.drop 1).take m).length = m := by
    rw [List.length_take, List.length_drop, SoundingOnAir.length_texts]
    omega
  have hle := SoundingOnAir.words_le on
  have hagree' : ∀ i (hi : i < ((on.texts.drop 1).take m).length),
      Agrees (s.slotVotes i) ((on.texts.drop 1).take m)[i] := by
    intro i hi
    have him : i < m := by omega
    have htext : ((on.texts.drop 1).take m)[i] = on.texts.getD (i + 1) [] := by
      rw [List.getElem_take, List.getElem_drop,
        List.getD_eq_getElem _ _ (by rw [SoundingOnAir.length_texts]; omega)]
      congr 1
      omega
    rw [htext]
    exact hagree i him
  have hjoin := joinSlots_range s.slotVotes ((on.texts.drop 1).take m)
    (show _ ≤ 4 by omega) hagree' (fun i hi => hempty i (by omega))
  have hcons : on.texts.take (m + 1) = on.texts.getD 0 [] :: (on.texts.drop 1).take m := by
    cases htexts : on.texts with
    | nil =>
      have hlen := SoundingOnAir.length_texts on
      rw [htexts] at hlen
      have hpos := SoundingOnAir.words_pos on
      simp at hlen
      omega
    | cons t ts => rfl
  unfold buildResult
  dsimp only
  rw [hjoin, hanchor, ← SoundingOnAir.texts_take h, hcons, List.flatten_cons]

/-- A session that a conclusion opens. -/
theorem sound_open {s : Session} (hanchor : s.anchor = on.texts.getD 0 []) (hslot : s.nextSlot = 1)
    (hvotes : s.slotVotes = fun _ => []) : Sound on 1 s := by
  have hpos := SoundingOnAir.words_pos on
  refine ⟨hanchor, hslot.ge, 0, by omega, by omega, le_refl _, fun i hi => by omega, fun i _ => ?_⟩
  rw [hvotes]

/-- A conclusion in a session. -/
theorem sound_repeat {reached : Nat} {s s' : Session} (h : Sound on reached s)
    (hanchor : s'.anchor = s.anchor) (hvotes : s'.slotVotes = s.slotVotes)
    (hslot : s'.nextSlot = 1) : Sound on (max reached 1) s' := by
  obtain ⟨hold, -, m, -, hm, hreached, hagree, hempty⟩ := h
  refine ⟨hanchor.trans hold, hslot.ge, m, by omega, hm, by omega, ?_, ?_⟩
  · rw [hvotes]
    exact hagree
  · rw [hvotes]
    exact hempty

/-- A word that is not counted. -/
theorem sound_same {reached : Nat} {s s' : Session} (h : Sound on reached s)
    (hanchor : s'.anchor = s.anchor) (hvotes : s'.slotVotes = s.slotVotes)
    (hslot : s'.nextSlot = s.nextSlot) : Sound on reached s' := by
  obtain ⟨hold, hpos, m, hnext, hm, hreached, hagree, hempty⟩ := h
  refine ⟨hanchor.trans hold, hslot ▸ hpos, m, hslot ▸ hnext, hm, hreached, ?_, ?_⟩
  · rw [hvotes]
    exact hagree
  · rw [hvotes]
    exact hempty

/-- **A word that is counted** at its place. -/
theorem sound_count {reached : Nat} {s s' : Session} {votes : Nat} (h : Sound on reached s)
    (hvotes : 0 < votes) (hplace : s.nextSlot < on.words.length) (hanchor : s'.anchor = s.anchor)
    (hslots : s'.slotVotes = Function.update s.slotVotes (s.nextSlot - 1)
      (SlotVotes.add (on.texts.getD s.nextSlot []) votes (s.slotVotes (s.nextSlot - 1))))
    (hslot : s'.nextSlot = s.nextSlot + 1) : Sound on (max reached (s.nextSlot + 1)) s' := by
  obtain ⟨hold, hpos, m, hnext, hm, hreached, hagree, hempty⟩ := h
  have hindex : s.nextSlot - 1 + 1 = s.nextSlot := by omega
  have hslotagree : Agrees (s'.slotVotes (s.nextSlot - 1))
      (on.texts.getD (s.nextSlot - 1 + 1) []) := by
    rw [hslots, Function.update_self, hindex]
    refine Agrees.add ?_ hvotes
    by_cases him : s.nextSlot - 1 < m
    · right
      have hat := hagree (s.nextSlot - 1) him
      rwa [hindex] at hat
    · exact Or.inl (hempty _ (by omega))
  have hother : ∀ i, i ≠ s.nextSlot - 1 → s'.slotVotes i = s.slotVotes i := by
    intro i hi
    rw [hslots, Function.update_of_ne hi]
  refine ⟨hanchor.trans hold, by omega, max m s.nextSlot, by omega, by omega, by omega, ?_, ?_⟩
  · intro i hi
    by_cases hsame : i = s.nextSlot - 1
    · rw [hsame]
      exact hslotagree
    · rw [hother i hsame]
      exact hagree i (by omega)
  · intro i hi
    rw [hother i (by omega)]
    exact hempty i (by omega)

/-! ## The invariant -/

/-- The session is sound; words that were heard in a row were counted in a row. -/
structure Inv (on : SoundingOnAir) (x : SoundingRun) : Prop where
  sound : ∀ s, x.acc.session = some s → Sound on x.reached s
  silent : x.acc.session = none → x.reached = 0
  clean_le : x.clean ≤ x.reached
  clean_le_place : 0 < x.place on → x.clean ≤ x.place on
  row : 0 < x.place on → x.clean = x.place on → ∃ s, x.acc.session = some s ∧
    s.cycleOpen = true ∧ s.nextSlot = x.place on
  once : x.results = [] ∨ x.results.length = 1 ∧ x.acc.session = none

theorem place_lt (on : SoundingOnAir) (x : SoundingRun) : x.place on < on.words.length :=
  Nat.mod_lt _ (SoundingOnAir.words_pos on)

/-- The place after a word. -/
theorem place_next (on : SoundingOnAir) {x y : SoundingRun} (h : y.sent = x.sent + 1) :
    y.place on = if x.place on + 1 < on.words.length then x.place on + 1 else 0 := by
  unfold place
  rw [h, ← Nat.mod_add_mod]
  have hlt := place_lt on x
  unfold place at hlt
  split
  · rename_i hnext
    exact Nat.mod_eq_of_lt hnext
  · have hwhole : x.sent % on.words.length + 1 = on.words.length := by omega
    rw [hwhole, Nat.mod_self]

/-! ## The accumulator -/

/-- A conclusion opens a session or a cycle. -/
theorem onWord_conclusion (acc : SoundingIdentityAccumulator) {word : ALEWord} (sinadDb : Float32)
    (frequencyHz nowMs : UInt32) (hvalid : word.valid = true)
    (htype : word.type = .tis ∨ word.type = .twas)
    (hanchor : ∀ s, acc.session = some s → s.anchor = trimAleAddress word.address) :
    ∃ s', acc.onWord word sinadDb frequencyHz nowMs = (none, { session := some s' }) ∧
      s'.anchor = trimAleAddress word.address ∧ s'.nextSlot = 1 ∧ s'.cycleOpen = true ∧
        s'.slotVotes = match acc.session with
          | none => fun _ => []
          | some s => s.slotVotes := by
  have hconclusion : (word.valid && (word.type = .tis || word.type = .twas)) = true := by
    rw [hvalid]
    obtain htype | htype := htype <;> rw [htype] <;> rfl
  unfold onWord
  dsimp only
  rw [if_pos hconclusion]
  cases hsession : acc.session with
  | none => exact ⟨_, rfl, rfl, rfl, rfl, rfl⟩
  | some s =>
    dsimp only
    rw [if_pos (hanchor s hsession).symm]
    exact ⟨_, rfl, hanchor s hsession, rfl, rfl, rfl⟩

/-- A word is counted in the next slot. -/
def Counted (s : Session) (word : ALEWord) : Prop :=
  s.cycleOpen = true ∧ s.nextSlot ≤ kMaxExtSlots ∧ word.valid = true ∧
    word.type = expectedTypeForSlot s.nextSlot

/-- Another word is counted, or leaves the slots as they are. -/
theorem onWord_other (acc : SoundingIdentityAccumulator) {word : ALEWord} (sinadDb : Float32)
    (frequencyHz nowMs : UInt32)
    (hother : word.valid = false ∨ word.type ≠ .tis ∧ word.type ≠ .twas) :
    match acc.session with
    | none => acc.onWord word sinadDb frequencyHz nowMs = (none, acc)
    | some s => ∃ s', acc.onWord word sinadDb frequencyHz nowMs = (none, { session := some s' }) ∧
      s'.anchor = s.anchor ∧
        ((Counted s word ∧ s'.cycleOpen = true ∧ s'.nextSlot = s.nextSlot + 1 ∧
            s'.slotVotes = Function.update s.slotVotes (s.nextSlot - 1)
              (SlotVotes.add (trimAleAddress word.address) word.unanimousVotes
                (s.slotVotes (s.nextSlot - 1)))) ∨
          ¬ Counted s word ∧ s'.nextSlot = s.nextSlot ∧ s'.slotVotes = s.slotVotes) := by
  have hconclusion : (word.valid && (word.type = .tis || word.type = .twas)) = false := by
    obtain hvalid | ⟨htis, htwas⟩ := hother
    · rw [hvalid]
      rfl
    · rw [decide_eq_false htis, decide_eq_false htwas]
      exact Bool.and_false _
  unfold onWord
  dsimp only
  rw [hconclusion, if_neg Bool.false_ne_true]
  cases hsession : acc.session with
  | none => rfl
  | some s =>
    refine ⟨_, rfl, ?_⟩
    unfold assign Counted foldLinear
    dsimp only
    by_cases hopen : s.cycleOpen = true
    · rw [if_pos hopen]
      by_cases hslot : s.nextSlot > kMaxExtSlots
      · rw [if_pos hslot]
        exact ⟨rfl, Or.inr ⟨fun h => absurd h.2.1 (not_le.mpr hslot), rfl, rfl⟩⟩
      · rw [if_neg hslot]
        by_cases hmatch : (word.valid && word.type = expectedTypeForSlot s.nextSlot) = true
        · rw [if_pos hmatch]
          obtain ⟨hvalid, htype⟩ := (Bool.and_eq_true _ _).mp hmatch
          refine ⟨rfl, Or.inl ⟨⟨hopen, not_lt.mp hslot, hvalid, of_decide_eq_true htype⟩, hopen, rfl,
            rfl⟩⟩
        · rw [if_neg hmatch]
          refine ⟨rfl, Or.inr ⟨fun h => hmatch ?_, rfl, rfl⟩⟩
          rw [h.2.2.1, h.2.2.2, decide_eq_true rfl]
          rfl
    · rw [if_neg hopen]
      exact ⟨rfl, Or.inr ⟨fun h => hopen h.1, rfl, rfl⟩⟩

/-! ## A step -/

/-- A conclusion that is heard. -/
theorem heard_conclusion (h : GroupAddress on.addr) {x : SoundingRun} (hx : x.Inv on)
    (hplace : x.place on = 0) (votes : Nat) (sinadDb : Float32) (nowMs : UInt32) :
    ∃ s', x.acc.onWord (x.heardWord on votes) sinadDb on.frequencyHz nowMs =
        (none, { session := some s' }) ∧ s'.cycleOpen = true ∧ s'.nextSlot = 1 ∧
          Sound on (max x.reached 1) s' := by
  obtain ⟨hvalid, htext, htype⟩ := SoundingOnAir.word_spec h (place_lt on x)
  rw [hplace, if_pos rfl] at htype
  rw [hplace] at htext
  have htypes : (x.heardWord on votes).type = .tis ∨ (x.heardWord on votes).type = .twas := by
    unfold heardWord
    rw [hplace]
    dsimp only
    rw [htype]
    split
    · exact Or.inr rfl
    · exact Or.inl rfl
  have haddress : trimAleAddress (x.heardWord on votes).address = on.texts.getD 0 [] := by
    unfold heardWord
    rw [hplace]
    exact htext
  obtain ⟨s', honWord, hanchor, hslot, hopen, hvotes⟩ :=
    onWord_conclusion x.acc sinadDb on.frequencyHz nowMs (show (x.heardWord on votes).valid = true
      from hvalid) htypes fun s hs => (hx.sound s hs).anchor.trans haddress.symm
  refine ⟨s', honWord, hopen, hslot, ?_⟩
  cases hsession : x.acc.session with
  | none =>
    rw [hsession] at hvotes
    rw [hx.silent hsession]
    exact sound_open (hanchor.trans haddress) hslot hvotes
  | some s =>
    rw [hsession] at hvotes
    have hsound := hx.sound s hsession
    exact sound_repeat hsound (hanchor.trans (haddress.trans hsound.anchor.symm)) hvotes hslot

theorem expectedTypeForSlot_eq_iff {a b : Nat} :
    expectedTypeForSlot a = expectedTypeForSlot b ↔ a % 2 = b % 2 := by
  unfold expectedTypeForSlot
  split <;> split <;> simp <;> omega

/-- An extension word that is heard is counted if its slot is the next one, and only then. -/
theorem heard_extension (h : GroupAddress on.addr) {x : SoundingRun} (hx : x.Inv on)
    (hplace : 0 < x.place on) {votes : Nat} (hvotes : 0 < votes) (sinadDb : Float32)
    (nowMs : UInt32) :
    match x.acc.session with
    | none => x.acc.onWord (x.heardWord on votes) sinadDb on.frequencyHz nowMs = (none, x.acc)
    | some s => ∃ s', x.acc.onWord (x.heardWord on votes) sinadDb on.frequencyHz nowMs =
        (none, { session := some s' }) ∧
          (s'.nextSlot = s.nextSlot + 1 →
            x.openSlot = some s.nextSlot ∧ x.place on % 2 = s.nextSlot % 2) ∧
          (s'.nextSlot = s.nextSlot + 1 → s.nextSlot = x.place on →
            s'.cycleOpen = true ∧ Sound on (max x.reached (x.place on + 1)) s') ∧
          (s'.nextSlot ≠ s.nextSlot + 1 →
            s'.nextSlot = s.nextSlot ∧ ¬ (s.cycleOpen = true ∧ s.nextSlot = x.place on) ∧
              (x.openSlot = some s.nextSlot → x.place on % 2 ≠ s.nextSlot % 2) ∧
              Sound on x.reached s') := by
  have hlt := place_lt on x
  have hle := SoundingOnAir.words_le on
  obtain ⟨hvalid, htext, htype⟩ := SoundingOnAir.word_spec h hlt
  rw [if_neg (by omega)] at htype
  have htypes : (x.heardWord on votes).type ≠ .tis ∧ (x.heardWord on votes).type ≠ .twas := by
    have hword : (x.heardWord on votes).type = expectedTypeForSlot (x.place on) := htype
    rw [hword]
    unfold expectedTypeForSlot
    split <;> decide
  have hother := onWord_other x.acc sinadDb on.frequencyHz nowMs (Or.inr htypes)
  cases hsession : x.acc.session with
  | none =>
    rw [hsession] at hother
    exact hother
  | some s =>
    rw [hsession] at hother
    obtain ⟨s', honWord, hanchor, hcases⟩ := hother
    have hsound := hx.sound s hsession
    have hopenSlot : x.openSlot = some s.nextSlot ↔
        s.cycleOpen = true ∧ s.nextSlot ≤ kMaxExtSlots := by
      unfold openSlot
      rw [hsession]
      dsimp only
      split
      · rename_i hopen
        exact ⟨fun _ => hopen, fun _ => rfl⟩
      · rename_i hopen
        exact ⟨nofun, fun ho => absurd ho hopen⟩
    have hcounted : Counted s (x.heardWord on votes) ↔
        x.openSlot = some s.nextSlot ∧ x.place on % 2 = s.nextSlot % 2 := by
      rw [hopenSlot, ← expectedTypeForSlot_eq_iff, ← htype]
      exact ⟨fun hc => ⟨⟨hc.1, hc.2.1⟩, hc.2.2.2⟩, fun hc => ⟨hc.1.1, hc.1.2, hvalid, hc.2⟩⟩
    refine ⟨s', honWord, ?_⟩
    obtain ⟨hyes, hopen, hslot, hslots⟩ | ⟨hno, hslot, hslots⟩ := hcases
    · refine ⟨fun _ => hcounted.mp hyes, fun _ hat => ⟨hopen, ?_⟩, fun hne => absurd hslot hne⟩
      rw [← hat]
      refine sound_count hsound hvotes (by omega) hanchor ?_ hslot
      rw [hslots, hat]
      exact congrArg (fun content => Function.update s.slotVotes (x.place on - 1)
        (SlotVotes.add content votes (s.slotVotes (x.place on - 1)))) htext
    · refine ⟨fun hslot' => by omega, fun hslot' => by omega, fun _ => ⟨hslot, ?_, ?_, ?_⟩⟩
      · rintro ⟨hopen, hat⟩
        refine hno (hcounted.mpr ⟨hopenSlot.mpr ⟨hopen, ?_⟩, by rw [hat]⟩)
        exact show s.nextSlot ≤ 4 by omega
      · exact fun ho hparity => hno (hcounted.mpr ⟨ho, hparity⟩)
      · exact sound_same hsound hanchor hslots hslot

/-- A word that is heard as invalid, or not at all. -/
theorem unheard {x : SoundingRun} (hx : x.Inv on) {word : ALEWord} (hvalid : word.valid = false)
    (sinadDb : Float32) (nowMs : UInt32) :
    (x.acc.onWord word sinadDb on.frequencyHz nowMs).1 = none ∧
      match x.acc.session with
      | none => (x.acc.onWord word sinadDb on.frequencyHz nowMs).2.session = none
      | some s => ∃ s', (x.acc.onWord word sinadDb on.frequencyHz nowMs).2.session = some s' ∧
          s'.nextSlot = s.nextSlot ∧ Sound on x.reached s' := by
  have hother := onWord_other x.acc sinadDb on.frequencyHz nowMs (Or.inl hvalid)
  cases hsession : x.acc.session with
  | none =>
    rw [hsession] at hother
    rw [hother]
    exact ⟨rfl, hsession⟩
  | some s =>
    rw [hsession] at hother
    obtain ⟨s', honWord, hanchor, ⟨hyes, -⟩ | ⟨-, hslot, hslots⟩⟩ := hother
    · rw [hyes.2.2.1] at hvalid
      cases hvalid
    · rw [honWord]
      exact ⟨rfl, s', rfl, hslot, sound_same (hx.sound s hsession) hanchor hslots hslot⟩

/-- The row of heard words does not grow beyond the place. -/
theorem cleanAfter_cases {x : SoundingRun} (hx : x.Inv on) (r : Reception) :
    x.cleanAfter on r ≤ x.place on + 1 ∧
      (x.cleanAfter on r = x.place on + 1 →
        ∃ votes positive, r = .heard votes positive ∧
          (0 < x.place on → x.clean = x.place on)) ∧
      (x.cleanAfter on r ≠ x.place on + 1 → x.cleanAfter on r ≤ x.reached) := by
  have hle := hx.clean_le
  have hplace := hx.clean_le_place
  unfold cleanAfter
  cases r with
  | heard votes positive =>
    dsimp only
    by_cases hzero : x.place on = 0
    · rw [if_pos hzero]
      exact ⟨by omega, fun _ => ⟨votes, positive, rfl, fun hp => by omega⟩, fun hne => by omega⟩
    · rw [if_neg hzero]
      split
      · rename_i hrow
        exact ⟨by omega, fun _ => ⟨votes, positive, rfl, fun _ => hrow⟩, fun hne => by omega⟩
      · exact ⟨by omega, fun heq => by omega, fun _ => hle⟩
  | invalid word hinvalid =>
    dsimp only
    split
    · exact ⟨by omega, fun heq => by omega, fun _ => by omega⟩
    · exact ⟨by omega, fun heq => by omega, fun _ => hle⟩
  | lost =>
    dsimp only
    split
    · exact ⟨by omega, fun heq => by omega, fun _ => by omega⟩
    · exact ⟨by omega, fun heq => by omega, fun _ => hle⟩

/-- What a step with a word leaves. -/
theorem step_word {x : SoundingRun} (hlt : x.sent < on.total) (r : Reception) (sinadDb : Float32) :
    x.step on (.word r sinadDb) =
      { acc := (x.react on (.word r sinadDb)).2
        sent := x.sent + 1
        now := x.due
        results := x.results ++ (x.react on (.word r sinadDb)).1.toList
        clean := x.cleanAfter on r
        reached := max x.reached (x.cleanAfter on r) } := by
  unfold step
  dsimp only
  rw [if_pos hlt]
  rfl

/-- **The invariant after a word**, from what the word did to the session. -/
theorem inv_word {x : SoundingRun} (hx : x.Inv on) (hlt : x.sent < on.total) {r : Reception}
    {sinadDb : Float32} (hnone : (x.react on (.word r sinadDb)).1 = none)
    (hsound : ∀ s, (x.react on (.word r sinadDb)).2.session = some s →
      Sound on (max x.reached (x.cleanAfter on r)) s)
    (hsilent : (x.react on (.word r sinadDb)).2.session = none →
      max x.reached (x.cleanAfter on r) = 0)
    (hrow : x.cleanAfter on r = x.place on + 1 → ∃ s,
      (x.react on (.word r sinadDb)).2.session = some s ∧ s.cycleOpen = true ∧
        s.nextSlot = x.place on + 1)
    (honce : x.results = [] ∨ x.results.length = 1 ∧
      (x.react on (.word r sinadDb)).2.session = none) :
    (x.step on (.word r sinadDb)).Inv on := by
  obtain ⟨hle, -, -⟩ := cleanAfter_cases hx r
  have hsent : (x.step on (.word r sinadDb)).sent = x.sent + 1 := by rw [step_word hlt]
  have hplace := place_next on hsent
  refine ⟨?_, ?_, ?_, ?_, ?_, ?_⟩
  · rw [step_word hlt]
    exact hsound
  · rw [step_word hlt]
    exact hsilent
  · rw [step_word hlt]
    exact le_max_right _ _
  · rw [hplace, step_word hlt]
    intro hpos
    dsimp only
    split at hpos
    · rw [if_pos (by assumption)]
      exact hle
    · omega
  · rw [hplace, step_word hlt]
    intro hpos hclean
    dsimp only at hclean ⊢
    split at hpos
    · rename_i hnext
      rw [if_pos hnext] at hclean ⊢
      exact hrow hclean
    · omega
  · rw [step_word hlt]
    dsimp only
    rw [hnone, Option.toList_none, List.append_nil]
    exact honce

theorem react_word {x : SoundingRun} (hlt : x.sent < on.total) (r : Reception)
    (sinadDb : Float32) : x.react on (.word r sinadDb) =
      match r with
      | .heard votes _ => x.acc.onWord (x.heardWord on votes) sinadDb on.frequencyHz
          (on.startMs + UInt32.ofNat x.due)
      | .invalid word _ => x.acc.onWord word sinadDb on.frequencyHz (on.startMs + UInt32.ofNat x.due)
      | .lost => (none, x.acc) := by
  unfold react delivered
  dsimp only
  rw [if_pos hlt]
  cases r <;> rfl

/-- A conclusion, heard. -/
theorem step_conclusion (h : GroupAddress on.addr) {x : SoundingRun} (hx : x.Inv on)
    (hlt : x.sent < on.total) (hplace : x.place on = 0) {votes : Nat} (positive : 0 < votes)
    (sinadDb : Float32) : ∃ s', x.react on (.word (.heard votes positive) sinadDb) =
      (none, { session := some s' }) ∧
        (x.results = [] → (x.step on (.word (.heard votes positive) sinadDb)).Inv on) := by
  obtain ⟨s', honWord, hopen, hslot, hsound⟩ :=
    heard_conclusion h hx hplace votes sinadDb (on.startMs + UInt32.ofNat x.due)
  have hreact : x.react on (.word (.heard votes positive) sinadDb) =
      (none, { session := some s' }) := by
    rw [react_word hlt]
    exact honWord
  have hclean : x.cleanAfter on (.heard votes positive) = 1 := by
    unfold cleanAfter
    dsimp only
    rw [if_pos hplace]
  refine ⟨s', hreact, fun hresults => inv_word hx hlt ?_ ?_ ?_ ?_ (Or.inl hresults)⟩
  · rw [hreact]
  · rw [hreact, hclean]
    intro s hs
    obtain rfl := Option.some.inj hs
    exact hsound
  · rw [hreact]
    exact nofun
  · rw [hreact, hplace]
    exact fun _ => ⟨s', rfl, hopen, hslot⟩

/-- An extension word, heard. -/
theorem step_extension (h : GroupAddress on.addr) {x : SoundingRun} (hx : x.Inv on)
    (hlt : x.sent < on.total) (hplace : 0 < x.place on) {votes : Nat} (positive : 0 < votes)
    (sinadDb : Float32)
    (hkeep : ∀ slot, x.openSlot = some slot → x.place on % 2 = slot % 2 → slot = x.place on) :
    (x.react on (.word (.heard votes positive) sinadDb)).1 = none ∧
      (x.step on (.word (.heard votes positive) sinadDb)).Inv on ∧
      ∀ s s', x.acc.session = some s →
        (x.react on (.word (.heard votes positive) sinadDb)).2.session = some s' →
          s'.nextSlot = s.nextSlot + 1 → s.nextSlot = x.place on := by
  have hheard := heard_extension h hx hplace positive sinadDb (on.startMs + UInt32.ofNat x.due)
  have hreact : x.react on (.word (.heard votes positive) sinadDb) =
      x.acc.onWord (x.heardWord on votes) sinadDb on.frequencyHz
        (on.startMs + UInt32.ofNat x.due) :=
    react_word hlt _ sinadDb
  rw [← hreact] at hheard
  obtain ⟨-, hgrow, hstay⟩ := cleanAfter_cases hx (.heard votes positive)
  cases hsession : x.acc.session with
  | none =>
    rw [hsession] at hheard
    have hrow : x.cleanAfter on (.heard votes positive) ≠ x.place on + 1 := by
      intro heq
      obtain ⟨-, -, -, hclean⟩ := hgrow heq
      obtain ⟨s, hs, -⟩ := hx.row hplace (hclean hplace)
      rw [hsession] at hs
      cases hs
    have hreached := hx.silent hsession
    have hclean := hstay hrow
    refine ⟨by rw [hheard], inv_word hx hlt (by rw [hheard]) ?_ ?_ ?_ ?_, nofun⟩
    · rw [hheard]
      intro s hs
      rw [hsession] at hs
      cases hs
    · exact fun _ => by omega
    · exact fun heq => absurd heq hrow
    · rw [hheard]
      exact hx.once
  | some s =>
    rw [hsession] at hheard
    obtain ⟨s', heq, hcounted, hat, hnot⟩ := hheard
    have hresults := hx.once.resolve_right fun ho => by
      rw [hsession] at ho
      cases ho.2
    have hplaced : s'.nextSlot = s.nextSlot + 1 → s.nextSlot = x.place on := by
      intro hslot
      obtain ⟨hopen, hparity⟩ := hcounted hslot
      exact hkeep _ hopen hparity
    have hrow : x.cleanAfter on (.heard votes positive) = x.place on + 1 →
        s'.nextSlot = s.nextSlot + 1 := by
      intro hgrows
      obtain ⟨-, -, -, hclean⟩ := hgrow hgrows
      obtain ⟨s0, hs0, hopen⟩ := hx.row hplace (hclean hplace)
      rw [hsession] at hs0
      obtain rfl := Option.some.inj hs0
      by_contra hslot
      exact (hnot hslot).2.1 hopen
    refine ⟨by rw [heq], inv_word hx hlt (by rw [heq]) ?_ ?_ ?_ (Or.inl hresults), ?_⟩
    · rw [heq]
      intro s'' hs''
      obtain rfl := Option.some.inj hs''
      by_cases hslot : s'.nextSlot = s.nextSlot + 1
      · exact (hat hslot (hplaced hslot)).2.mono (by omega)
      · have hclean := hstay fun hgrows => hslot (hrow hgrows)
        exact (hnot hslot).2.2.2.mono (by omega)
    · rw [heq]
      exact nofun
    · rw [heq]
      intro hgrows
      have hslot := hrow hgrows
      refine ⟨s', rfl, (hat hslot (hplaced hslot)).1, ?_⟩
      rw [hslot, hplaced hslot]
    · rintro s1 s2 hs1 hs2 hslot
      rw [heq] at hs2
      obtain rfl := Option.some.inj hs1
      obtain rfl := Option.some.inj hs2
      exact hplaced hslot

/-- A word that is not heard. -/
theorem step_unheard {x : SoundingRun} (hx : x.Inv on) (hlt : x.sent < on.total) {r : Reception}
    (hr : ∀ votes positive, r ≠ .heard votes positive) (sinadDb : Float32) :
    (x.react on (.word r sinadDb)).1 = none ∧ (x.step on (.word r sinadDb)).Inv on ∧
      ∀ s s', x.acc.session = some s → (x.react on (.word r sinadDb)).2.session = some s' →
        s'.nextSlot = s.nextSlot := by
  obtain ⟨-, hgrow, hstay⟩ := cleanAfter_cases hx r
  have hrow : x.cleanAfter on r ≠ x.place on + 1 := by
    intro hgrows
    obtain ⟨votes, positive, heq, -⟩ := hgrow hgrows
    exact hr votes positive heq
  have hclean := hstay hrow
  have hmax : max x.reached (x.cleanAfter on r) = x.reached := by omega
  have hsession : (x.react on (.word r sinadDb)).1 = none ∧
      match x.acc.session with
      | none => (x.react on (.word r sinadDb)).2.session = none
      | some s => ∃ s', (x.react on (.word r sinadDb)).2.session = some s' ∧
          s'.nextSlot = s.nextSlot ∧ Sound on x.reached s' := by
    rw [react_word hlt]
    cases r with
    | heard votes positive => exact absurd rfl (hr votes positive)
    | invalid word hinvalid => exact unheard hx hinvalid sinadDb _
    | lost =>
      refine ⟨rfl, ?_⟩
      cases hs : x.acc.session with
      | none => exact rfl
      | some s => exact ⟨s, rfl, rfl, hx.sound s hs⟩
  obtain ⟨hnone, hcases⟩ := hsession
  cases hs : x.acc.session with
  | none =>
    rw [hs] at hcases
    refine ⟨hnone, inv_word hx hlt hnone ?_ ?_ (fun h => absurd h hrow) ?_, nofun⟩
    · intro s' hs'
      rw [hcases] at hs'
      cases hs'
    · exact fun _ => hmax.trans (hx.silent hs)
    · obtain hnil | ⟨hlength, -⟩ := hx.once
      · exact Or.inl hnil
      · exact Or.inr ⟨hlength, hcases⟩
  | some s =>
    rw [hs] at hcases
    obtain ⟨s', hs', hslot, hsound⟩ := hcases
    have hresults := hx.once.resolve_right fun ho => by
      rw [hs] at ho
      cases ho.2
    refine ⟨hnone, inv_word hx hlt hnone ?_ ?_ (fun h => absurd h hrow) (Or.inl hresults), ?_⟩
    · intro s'' hs''
      rw [hs'] at hs''
      obtain rfl := Option.some.inj hs''
      rw [hmax]
      exact hsound
    · intro hfalse
      rw [hs'] at hfalse
      cases hfalse
    · intro s1 s2 hs1 hs2
      rw [hs'] at hs2
      obtain rfl := Option.some.inj hs1
      obtain rfl := Option.some.inj hs2
      exact hslot

/-- A poll that finds the session settled. -/
theorem finalize_sound (h : GroupAddress on.addr) {x : SoundingRun} {s : Session}
    (hs : x.acc.session = some s) (hsound : Sound on x.reached s) :
    ∃ r, x.acc.finalize = (some r, { session := none }) ∧ x.Names on r.station := by
  obtain ⟨m, hpos, hm, hreached, hstation⟩ := station_of_sound h hsound
  refine ⟨buildResult s, ?_, ⟨m, hpos, hm, hstation⟩, fun hall => ?_⟩
  · unfold finalize
    rw [hs]
    dsimp only
    have hne : (buildResult s).station ≠ [] := by
      rw [hstation]
      intro hnil
      have hlength := congrArg List.length hnil
      rw [List.length_take, List.length_nil] at hlength
      have haddr := List.length_pos_iff.mpr h.ne_nil
      omega
    rw [if_neg hne]
  · have hwhole : m = on.words.length := by omega
    rw [hstation, hwhole]
    exact SoundingOnAir.take_words h

/-- **A poll.** -/
theorem step_poll (h : GroupAddress on.addr) {x : SoundingRun} (hx : x.Inv on) (later : Nat) :
    (x.step on (.poll later)).Inv on ∧ x.Filed on (.poll later) := by
  have hreact : x.react on (.poll later) = if x.acc.timedOut
      (on.startMs + UInt32.ofNat (x.time on (.poll later))) then x.acc.finalize
        else (none, x.acc) := rfl
  cases htimeout : x.acc.timedOut (on.startMs + UInt32.ofNat (x.time on (.poll later))) with
  | false =>
    rw [htimeout, if_neg Bool.false_ne_true] at hreact
    have hstep : x.step on (.poll later) = { x with now := x.time on (.poll later) } := by
      unfold step
      dsimp only
      rw [hreact, htimeout]
      dsimp only
      rw [Option.toList_none, List.append_nil, if_neg Bool.false_ne_true,
        if_neg Bool.false_ne_true]
    have hinv : Inv on { x with now := x.time on (.poll later) } :=
      ⟨hx.sound, hx.silent, hx.clean_le, hx.clean_le_place, hx.row, hx.once⟩
    refine ⟨hstep ▸ hinv, ?_, ?_, ?_⟩
    · rw [hreact]
      exact nofun
    · rw [hstep]
      exact hx.once
    · rw [hstep]
      intro s s' _ hs hs' hslot
      rw [hs] at hs'
      obtain rfl := Option.some.inj hs'
      omega
  | true =>
    have hopen : ∃ s, x.acc.session = some s := by
      unfold timedOut at htimeout
      cases hs : x.acc.session with
      | none =>
        rw [hs] at htimeout
        cases htimeout
      | some s => exact ⟨s, rfl⟩
    obtain ⟨s, hs⟩ := hopen
    obtain ⟨r, hfinalize, hnames⟩ := finalize_sound h hs (hx.sound s hs)
    have hresults := hx.once.resolve_right fun ho => by
      rw [hs] at ho
      cases ho.2
    rw [htimeout, if_pos rfl, hfinalize] at hreact
    have hstep : x.step on (.poll later) =
        { acc := { session := none }, sent := x.sent, now := x.time on (.poll later)
          results := [r], clean := 0, reached := 0 } := by
      unfold step
      dsimp only
      rw [hreact, htimeout, hresults]
      rfl
    refine ⟨?_, ?_, ?_, ?_⟩
    · rw [hstep]
      exact ⟨nofun, fun _ => rfl, le_refl _, fun _ => Nat.zero_le _,
        fun hpos hclean => absurd hclean hpos.ne, Or.inr ⟨rfl, rfl⟩⟩
    · rw [hreact]
      intro r' hr'
      obtain rfl := Option.some.inj hr'
      exact hnames
    · rw [hstep]
      exact Or.inr ⟨rfl, rfl⟩
    · rw [hstep]
      exact nofun

/-- A sounding that is over sends nothing. -/
theorem step_over {x : SoundingRun} (hover : ¬ x.sent < on.total) (r : Reception)
    (sinadDb : Float32) : x.step on (.word r sinadDb) = x ∧ x.react on (.word r sinadDb) = (none, x.acc) := by
  unfold step react delivered
  dsimp only
  rw [if_neg hover, if_neg hover]
  exact ⟨rfl, rfl⟩

/-- What `Filed` asks of a word that brings no result. -/
theorem filed_word {x : SoundingRun} (hlt : x.sent < on.total) {r : Reception} {sinadDb : Float32}
    (hnone : (x.react on (.word r sinadDb)).1 = none) (hinv : (x.step on (.word r sinadDb)).Inv on)
    (hplaced : ∀ s s', 0 < x.place on → x.acc.session = some s →
      (x.react on (.word r sinadDb)).2.session = some s' → s'.nextSlot = s.nextSlot + 1 →
        s.nextSlot = x.place on) : x.Filed on (.word r sinadDb) := by
  refine ⟨fun r' hr' => ?_, hinv.once, fun s s' hpos hs hs' => ?_⟩
  · rw [hnone] at hr'
    cases hr'
  · rw [step_word hlt] at hs'
    exact hplaced s s' hpos hs hs'

/-- **A step that keeps** keeps the invariant and files what is right. -/
theorem inv_step (h : GroupAddress on.addr) {x : SoundingRun} (hx : x.Inv on) {op : SoundingOp}
    (hop : x.Keeps on op) : (x.step on op).Inv on ∧ x.Filed on op := by
  cases op with
  | poll later => exact step_poll h hx later
  | word r sinadDb =>
    by_cases hlt : x.sent < on.total
    · cases r with
      | heard votes positive =>
        have hkeep := hop hlt
        by_cases hplace : x.place on = 0
        · rw [if_pos hplace] at hkeep
          obtain ⟨s', hreact, hinv⟩ := step_conclusion h hx hlt hplace positive sinadDb
          have hinv' := hinv hkeep
          exact ⟨hinv', filed_word hlt (by rw [hreact]) hinv' fun _ _ hpos => by omega⟩
        · rw [if_neg hplace] at hkeep
          obtain ⟨hnone, hinv, hplaced⟩ :=
            step_extension h hx hlt (by omega) positive sinadDb hkeep
          exact ⟨hinv, filed_word hlt hnone hinv fun s s' _ => hplaced s s'⟩
      | invalid word hinvalid =>
        have hr : ∀ votes positive, Reception.invalid word hinvalid ≠ .heard votes positive := nofun
        obtain ⟨hnone, hinv, hsame⟩ := step_unheard hx hlt hr sinadDb
        refine ⟨hinv, filed_word hlt hnone hinv fun s s' _ hs hs' hslot => ?_⟩
        have heq := hsame s s' hs hs'
        omega
      | lost =>
        have hr : ∀ votes positive, Reception.lost ≠ .heard votes positive := nofun
        obtain ⟨hnone, hinv, hsame⟩ := step_unheard hx hlt hr sinadDb
        refine ⟨hinv, filed_word hlt hnone hinv fun s s' _ hs hs' hslot => ?_⟩
        have heq := hsame s s' hs hs'
        omega
    · obtain ⟨hstep, hreact⟩ := step_over hlt r sinadDb
      rw [hstep]
      refine ⟨hx, fun r' hr' => ?_, ?_, fun s s' _ hs hs' hslot => ?_⟩
      · rw [hreact] at hr'
        cases hr'
      · rw [hstep]
        exact hx.once
      · rw [hstep, hs] at hs'
        obtain rfl := Option.some.inj hs'
        omega

/-- A word that does not keep is filed wrongly. -/
theorem not_filed (h : GroupAddress on.addr) {x : SoundingRun} (hx : x.Inv on) {op : SoundingOp}
    (hop : ¬ x.Keeps on op) : ¬ x.Filed on op := by
  intro hfiled
  cases op with
  | poll later => exact hop trivial
  | word r sinadDb =>
    cases r with
    | invalid word hinvalid => exact hop trivial
    | lost => exact hop trivial
    | heard votes positive =>
      refine hop fun hlt => ?_
      have hfiledonce := hfiled.once
      have hplaced := hfiled.placed
      rw [step_word hlt] at hfiledonce hplaced
      by_cases hplace : x.place on = 0
      · rw [if_pos hplace]
        obtain ⟨s', hreact, -⟩ := step_conclusion h hx hlt hplace positive sinadDb
        obtain hnil | ⟨-, hsession⟩ := hfiledonce
        · exact (List.append_eq_nil_iff.mp hnil).1
        · rw [hreact] at hsession
          cases hsession
      · rw [if_neg hplace]
        intro slot hopen hparity
        cases hs : x.acc.session with
        | none =>
          unfold openSlot at hopen
          rw [hs] at hopen
          cases hopen
        | some s =>
          have hslot : slot = s.nextSlot := by
            unfold openSlot at hopen
            rw [hs] at hopen
            dsimp only at hopen
            split at hopen
            · exact (Option.some.inj hopen).symm
            · cases hopen
          subst hslot
          have hheard := heard_extension h hx (by omega) positive sinadDb
            (on.startMs + UInt32.ofNat x.due)
          rw [hs] at hheard
          obtain ⟨s', honWord, -, -, hnot⟩ := hheard
          have hreact : x.react on (.word (.heard votes positive) sinadDb) =
              (none, { session := some s' }) := by
            rw [react_word hlt]
            exact honWord
          rw [hreact] at hplaced
          refine hplaced s s' (by omega) hs rfl ?_
          by_contra hslot
          exact (hnot hslot).2.2.1 hopen hparity

end SoundingRun

end OpenALE
