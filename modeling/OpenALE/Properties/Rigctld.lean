import OpenALE.Bridge.Rigctld

/-!
# Requests and replies of the rigctld server

Every complete line of a connection is answered once, in order, and its reply goes to that
connection alone, however the stream is cut and the two threads interleave.

Results:
* `splitLines_append`: the lines do not depend on how the stream is cut.
* `answered_in_order`: the requests and the replies of each connection, along every run.
* `clients_counted`: what `client_count` tells.
-/

namespace OpenALE

namespace Rigctld

variable {α : Type} {s : Server} {id : Nat}

/-! ## The lines -/

/-- Lines and a rest in front of what follows. -/
theorem splitLines_append (a b : Str) :
    splitLines (a ++ b) =
      ((splitLines a).1 ++ (splitLines ((splitLines a).2 ++ b)).1,
        (splitLines ((splitLines a).2 ++ b)).2) := by
  induction a with
  | nil => rfl
  | cons c a ih =>
    rw [List.cons_append, splitLines, ih, splitLines]
    dsimp only
    by_cases hc : c = '\n'
    · rw [if_pos hc, if_pos hc]
      rfl
    · rw [if_neg hc, if_neg hc]
      cases hlines : (splitLines a).1 with
      | nil =>
        dsimp only
        rw [List.nil_append, List.nil_append, List.cons_append, splitLines]
        dsimp only
        rw [if_neg hc]
      | cons line lines => rfl

/-- The part of a log that is about one connection. -/
def about (id : Nat) (log : List (Nat × α)) : List α :=
  log.filterMap fun x => if x.1 = id then some x.2 else none

theorem about_append (id : Nat) (log log' : List (Nat × α)) :
    about id (log ++ log') = about id log ++ about id log' := List.filterMap_append

theorem about_single_self (id : Nat) (x : α) : about id [(id, x)] = [x] := by
  simp [about]

theorem about_single_ne {other : Nat} (h : other ≠ id) (x : α) : about id [(other, x)] = [] := by
  simp [about, h]

theorem about_map_self (id : Nat) (xs : List α) : about id (xs.map fun x => (id, x)) = xs := by
  induction xs with
  | nil => rfl
  | cons x xs ih =>
    rw [List.map_cons, ← List.singleton_append, about_append, about_single_self, ih]
    rfl

theorem about_map_ne {other : Nat} (h : other ≠ id) (xs : List α) :
    about id (xs.map fun x => (other, x)) = [] := by
  induction xs with
  | nil => rfl
  | cons x xs ih =>
    rw [List.map_cons, ← List.singleton_append, about_append, about_single_ne h, ih]
    rfl


/-! ## What every step keeps -/

/-- What arrived on a connection. -/
def stream (s : Server) (id : Nat) : Str := (about id s.arrived).flatten

/-- The requests of a connection. -/
def linesOf (s : Server) (id : Nat) : List Str := (splitLines (stream s id)).1.map chomp

/-- The requests that were answered, and the answers. -/
def requested (s : Server) (id : Nat) : List Str := (about id s.answered).map Prod.fst

def replies (s : Server) (id : Nat) : List Str := (about id s.answered).map Prod.snd

/-- The replies that were sent to a connection. -/
def texts (s : Server) (id : Nat) : List Str := (about id s.sent).map Prod.fst

/-- What holds of one connection. -/
structure Tracked (s : Server) (id : Nat) : Prop where
  requests : requested s id ++ about id s.inHand.toList ++ about id s.recvQueue = linesOf s id
  buffer : ∀ slot, some slot ∈ s.slots → slot.id = id →
    slot.recvBuf = (splitLines (stream s id)).2
  sent : texts s id <+: replies s id
  pending : s.isOpen id = true → texts s id ++ about id s.sendQueue = replies s id

/-- What holds of the server. -/
structure Sound (s : Server) : Prop where
  tracked : ∀ id, Tracked s id
  slots_lt : ∀ slot, some slot ∈ s.slots → slot.id < s.nextConnId
  arrived_lt : ∀ x ∈ s.arrived, x.1 < s.nextConnId
  recv_lt : ∀ x ∈ s.inHand.toList ++ s.recvQueue, x.1 < s.nextConnId
  send_lt : ∀ x ∈ s.sendQueue, x.1 < s.nextConnId
  distinct : ∀ (i j : Nat) (a b : ClientSlot), s.slots[i]? = some (some a) → s.slots[j]? = some (some b) →
    a.id = b.id → i = j
  answers : ∀ x ∈ s.answered, ∃ attached freq, x.2.2 = handleCommand x.2.1 attached freq
  count : s.clientCount = s.slots.countP Option.isSome

theorem isOpen_iff : s.isOpen id = true ↔ ∃ slot, some slot ∈ s.slots ∧ slot.id = id := by
  unfold Server.isOpen
  rw [List.any_eq_true]
  constructor
  · rintro ⟨_ | slot, hmem, hid⟩
    · cases hid
    · exact ⟨slot, hmem, of_decide_eq_true hid⟩
  · rintro ⟨slot, hmem, hid⟩
    exact ⟨some slot, hmem, decide_eq_true hid⟩

theorem mem_set_none {slots : List (Option ClientSlot)} {i : Nat} {slot : ClientSlot}
    (h : some slot ∈ slots.set i none) : some slot ∈ slots := by
  obtain h | h := List.mem_or_eq_of_mem_set h
  · exact h
  · cases h

theorem about_eq_nil {log : List (Nat × α)} (h : ∀ x ∈ log, x.1 ≠ id) : about id log = [] := by
  refine List.filterMap_eq_nil_iff.mpr fun x hx => ?_
  exact if_neg (h x hx)

theorem countP_set_none {slots : List (Option ClientSlot)} {i : Nat} {slot : ClientSlot}
    (h : slots[i]? = some (some slot)) :
    (slots.set i none).countP Option.isSome = slots.countP Option.isSome - 1 := by
  obtain ⟨hi, hslot⟩ := List.getElem?_eq_some_iff.mp h
  rw [List.countP_set hi, hslot]
  rfl

theorem Sound.close (h : Sound s) {i : Nat} {slot : ClientSlot}
    (hslot : s.slots[i]? = some (some slot)) : Sound (s.close i) where
  tracked id := {
    requests := (h.tracked id).requests
    buffer := fun slot hmem hid => (h.tracked id).buffer slot (mem_set_none hmem) hid
    sent := (h.tracked id).sent
    pending := by
      intro hopen
      obtain ⟨slot, hmem, hid⟩ := isOpen_iff.mp hopen
      exact (h.tracked id).pending (isOpen_iff.mpr ⟨slot, mem_set_none hmem, hid⟩) }
  slots_lt slot hmem := h.slots_lt slot (mem_set_none hmem)
  arrived_lt := h.arrived_lt
  recv_lt := h.recv_lt
  send_lt := h.send_lt
  distinct := by
    intro j k a b ha hb hid
    have hset : ∀ {j : Nat} {a : ClientSlot}, (s.slots.set i none)[j]? = some (some a) → s.slots[j]? = some (some a) := by
      intro j a hj
      rw [List.getElem?_set] at hj
      split_ifs at hj with hij hlt
      · cases hj
      · exact hj
    exact h.distinct j k a b (hset ha) (hset hb) hid
  answers := h.answers
  count := by
    change s.clientCount - 1 = _
    rw [h.count]
    exact (countP_set_none hslot).symm

/-- A slot of the list after one was written. -/
theorem mem_set_some {slots : List (Option ClientSlot)} {i : Nat} {slot other : ClientSlot}
    (h : some other ∈ slots.set i (some slot)) : some other ∈ slots ∨ other = slot := by
  obtain h | h := List.mem_or_eq_of_mem_set h
  · exact .inl h
  · exact .inr (Option.some.inj h)

theorem Sound.receive (h : Sound s) {i : Nat} {slot : ClientSlot}
    (hslot : s.slots[i]? = some (some slot)) (chunk : Str) :
    Sound (s.receive i slot chunk) := by
  unfold Server.receive
  dsimp only
  split_ifs
  · exact h.close hslot
  · obtain ⟨hi, hget⟩ := List.getElem?_eq_some_iff.mp hslot
    have hmem : some slot ∈ s.slots := List.mem_of_getElem? hslot
    have hlt := h.slots_lt slot hmem
    have hbuffer := (h.tracked slot.id).buffer slot hmem rfl
    generalize hsplit : splitLines (slot.recvBuf ++ chunk) = split
    obtain ⟨lines, rest⟩ := split
    dsimp only
    have hstream : ∀ id, stream { s with
        slots := s.slots.set i (some { slot with recvBuf := rest })
        recvQueue := s.recvQueue ++ lines.map fun line => (slot.id, chomp line)
        arrived := s.arrived ++ [(slot.id, chunk)] } id =
          if slot.id = id then stream s id ++ chunk else stream s id := by
      intro id
      unfold stream
      dsimp only
      rw [about_append, List.flatten_append]
      split_ifs with hid
      · rw [← hid, about_single_self, List.flatten_singleton]
      · rw [about_single_ne hid, List.flatten_nil, List.append_nil]
    have hsplitStream : splitLines (stream s slot.id ++ chunk) =
        ((splitLines (stream s slot.id)).1 ++ lines, rest) := by
      rw [splitLines_append, ← hbuffer, hsplit]
    have hlines : ∀ id, about id (lines.map fun line => (slot.id, chomp line)) =
        if slot.id = id then lines.map chomp else [] := by
      intro id
      have hmap : (lines.map fun line => (slot.id, chomp line)) =
          (lines.map chomp).map fun line => (slot.id, line) := (List.map_map ..).symm
      rw [hmap]
      split_ifs with hid
      · rw [hid, about_map_self]
      · exact about_map_ne hid _
    exact {
      tracked := by
        intro id
        have htracked := h.tracked id
        refine ⟨?_, ?_, htracked.sent, ?_⟩
        · unfold linesOf
          rw [hstream, about_append, hlines, ← List.append_assoc]
          change requested s id ++ about id s.inHand.toList ++ about id s.recvQueue ++ _ = _
          rw [htracked.requests]
          split_ifs with hid
          · rw [← hid, hsplitStream, List.map_append]
            rfl
          · exact List.append_nil _
        · intro other hother hid
          rw [hstream]
          obtain ⟨j, hj⟩ := List.mem_iff_getElem?.mp hother
          rw [List.getElem?_set] at hj
          split_ifs at hj with hij
          · obtain rfl := Option.some.inj (Option.some.inj hj)
            rw [if_pos hid, ← hid, hsplitStream]
          · have hne : slot.id ≠ id := fun heq =>
              hij (h.distinct i j slot other hslot hj (heq.trans hid.symm))
            rw [if_neg hne]
            exact htracked.buffer other (List.mem_of_getElem? hj) hid
        · intro hopen
          obtain ⟨other, hother, hid⟩ := isOpen_iff.mp hopen
          obtain hother | rfl := mem_set_some hother
          · exact htracked.pending (isOpen_iff.mpr ⟨other, hother, hid⟩)
          · exact htracked.pending (isOpen_iff.mpr ⟨slot, hmem, hid⟩)
      slots_lt := by
        intro other hother
        obtain hother | rfl := mem_set_some hother
        · exact h.slots_lt other hother
        · exact hlt
      arrived_lt := by
        intro x hx
        obtain hx | hx := List.mem_append.mp hx
        · exact h.arrived_lt x hx
        · rw [List.mem_singleton.mp hx]
          exact hlt
      recv_lt := by
        intro x hx
        rw [← List.append_assoc] at hx
        obtain hx | hx := List.mem_append.mp hx
        · exact h.recv_lt x hx
        · obtain ⟨line, -, rfl⟩ := List.mem_map.mp hx
          exact hlt
      send_lt := h.send_lt
      distinct := by
        intro j k a b ha hb hid
        rw [List.getElem?_set] at ha hb
        split_ifs at ha hb with hij hik
        · exact hij.symm.trans hik
        · obtain rfl := Option.some.inj (Option.some.inj ha)
          exact hij.symm.trans (h.distinct i k slot b hslot hb hid)
        · obtain rfl := Option.some.inj (Option.some.inj hb)
          exact (h.distinct j i a slot ha hslot hid).trans ‹i = k›
        · exact h.distinct j k a b ha hb hid
      answers := h.answers
      count := by
        dsimp only
        rw [h.count, List.countP_set hi, hget]
        have hpos : 0 < s.slots.countP Option.isSome :=
          List.countP_pos_iff.mpr ⟨some slot, hmem, rfl⟩
        simp
        omega }

theorem Sound.accept (h : Sound s) : Sound s.accept := by
  unfold Server.accept
  cases hfind : s.slots.findIdx? Option.isNone with
  | none => exact h
  | some i =>
    obtain ⟨hi, hfree, -⟩ := List.findIdx?_eq_some_iff_getElem.mp hfind
    have hold : ∀ id, id = s.nextConnId → about id s.arrived = [] ∧ about id s.sendQueue = [] := by
      rintro id rfl
      exact ⟨about_eq_nil fun x hx => (h.arrived_lt x hx).ne,
        about_eq_nil fun x hx => (h.send_lt x hx).ne⟩
    exact {
      tracked := by
        intro id
        have htracked := h.tracked id
        refine ⟨htracked.requests, ?_, htracked.sent, ?_⟩
        · intro other hother hid
          obtain hother | rfl := mem_set_some hother
          · exact htracked.buffer other hother hid
          · change [] = (splitLines (about id s.arrived).flatten).2
            rw [(hold id hid.symm).1]
            rfl
        · intro hopen
          obtain ⟨other, hother, hid⟩ := isOpen_iff.mp hopen
          obtain hother | rfl := mem_set_some hother
          · exact htracked.pending (isOpen_iff.mpr ⟨other, hother, hid⟩)
          · -- nothing arrived on a new connection, so nothing was answered
            obtain ⟨harrived, hsend⟩ := hold id hid.symm
            have hrequests := htracked.requests
            unfold linesOf stream at hrequests
            rw [harrived] at hrequests
            have hnone : requested s id = [] :=
              (List.append_eq_nil_iff.mp (List.append_eq_nil_iff.mp hrequests).1).1
            have hreplies : replies s id = [] := by
              unfold replies
              unfold requested at hnone
              rw [List.map_eq_nil_iff.mp hnone]
              rfl
            have htexts : texts s id = [] := List.prefix_nil.mp (hreplies ▸ htracked.sent)
            change texts s id ++ about id s.sendQueue = replies s id
            rw [htexts, hsend, hreplies]
            rfl
      slots_lt := by
        intro other hother
        obtain hother | rfl := mem_set_some hother
        · exact (h.slots_lt other hother).trans (Nat.lt_succ_self _)
        · exact Nat.lt_succ_self _
      arrived_lt := fun x hx => (h.arrived_lt x hx).trans (Nat.lt_succ_self _)
      recv_lt := fun x hx => (h.recv_lt x hx).trans (Nat.lt_succ_self _)
      send_lt := fun x hx => (h.send_lt x hx).trans (Nat.lt_succ_self _)
      distinct := by
        have hnew : ∀ {j : Nat} {a : ClientSlot}, s.slots[j]? = some (some a) →
            a.id ≠ s.nextConnId := fun ha => (h.slots_lt _ (List.mem_of_getElem? ha)).ne
        intro j k a b ha hb hid
        rw [List.getElem?_set] at ha hb
        split_ifs at ha hb with hij hik
        · exact hij.symm.trans hik
        · obtain rfl := Option.some.inj (Option.some.inj ha)
          exact absurd hid.symm (hnew hb)
        · obtain rfl := Option.some.inj (Option.some.inj hb)
          exact absurd hid (hnew ha)
        · exact h.distinct j k a b ha hb hid
      answers := h.answers
      count := by
        dsimp only
        rw [h.count, List.countP_set hi]
        rw [Option.isNone_iff_eq_none] at hfree
        rw [hfree]
        rfl }

/-- A reply is sent or dropped. -/
theorem Sound.sendOne {replies' : List (Nat × Str)} {x : Nat × Str}
    (h : Sound { s with sendQueue := x :: replies' }) (took : Nat) :
    Sound { s.sendOne x took with sendQueue := replies' } := by
  obtain ⟨id', text⟩ := x
  have hcons : ∀ id, about id ((id', text) :: replies') =
      (if id' = id then [text] else []) ++ about id replies' := by
    intro id
    rw [← List.singleton_append, about_append]
    split_ifs with hid
    · rw [hid, about_single_self]
    · rw [about_single_ne hid]
  have hlt : ∀ x ∈ replies', x.1 < s.nextConnId := fun x hx =>
    h.send_lt x (List.mem_cons_of_mem _ hx)
  unfold Server.sendOne
  split_ifs with hopen
  · have htexts : ∀ id, texts { s with sent := s.sent ++ [(id', text, took)] } id =
        texts s id ++ if id' = id then [text] else [] := by
      intro id
      unfold texts
      dsimp only
      rw [about_append, List.map_append]
      split_ifs with hid
      · rw [hid, about_single_self]
        rfl
      · rw [about_single_ne hid]
        rfl
    refine ⟨fun id => ?_, h.slots_lt, h.arrived_lt, h.recv_lt, hlt, h.distinct, h.answers, h.count⟩
    have htracked := h.tracked id
    have hpending : s.isOpen id = true → texts { s with
        sent := s.sent ++ [(id', text, took)] } id ++ about id replies' = replies s id := by
      intro hid
      have hall : texts s id ++ about id ((id', text) :: replies') = replies s id :=
        htracked.pending hid
      rw [htexts, List.append_assoc, ← hcons]
      exact hall
    refine ⟨htracked.requests, htracked.buffer, ?_, hpending⟩
    change texts { s with sent := s.sent ++ [(id', text, took)] } id <+: replies s id
    by_cases hid : id' = id
    · rw [← hpending (hid ▸ hopen)]
      exact List.prefix_append _ _
    · rw [htexts, if_neg hid, List.append_nil]
      exact htracked.sent
  · refine ⟨fun id => ?_, h.slots_lt, h.arrived_lt, h.recv_lt, hlt, h.distinct, h.answers, h.count⟩
    have htracked := h.tracked id
    refine ⟨htracked.requests, htracked.buffer, htracked.sent, fun hid => ?_⟩
    have hne : id' ≠ id := fun heq => hopen (heq ▸ hid)
    have hall : texts s id ++ about id ((id', text) :: replies') = replies s id :=
      htracked.pending hid
    rw [hcons, if_neg hne] at hall
    exact hall

theorem Sound.drainAll {queue : List (Nat × Str)} (hempty : s.sendQueue = [])
    (h : Sound { s with sendQueue := queue }) (took : List Nat) : Sound (s.drainAll queue took) := by
  induction queue generalizing s took with
  | nil =>
    unfold Server.drainAll
    rwa [← hempty] at h
  | cons x queue ih =>
    have hkeep : ∀ n, (s.sendOne x n).sendQueue = [] := by
      intro n
      unfold Server.sendOne
      split_ifs <;> exact hempty
    cases took with
    | nil => exact ih (hkeep _) (h.sendOne _) []
    | cons n took => exact ih (hkeep n) (h.sendOne n) took

theorem Sound.pop (h : Sound s) : Sound s.pop := by
  unfold Server.pop
  split
  · rename_i request rest hhand hqueue
    have hmove : ∀ id, about id (some request).toList ++ about id rest =
        about id s.inHand.toList ++ about id s.recvQueue := by
      intro id
      rw [hhand, hqueue, ← about_append, ← about_append]
      rfl
    refine ⟨fun id => ?_, h.slots_lt, h.arrived_lt, ?_, h.send_lt, h.distinct, h.answers, h.count⟩
    · have htracked := h.tracked id
      refine ⟨?_, htracked.buffer, htracked.sent, htracked.pending⟩
      rw [List.append_assoc, hmove, ← List.append_assoc]
      exact htracked.requests
    · have hlt := h.recv_lt
      rw [hhand, hqueue] at hlt
      exact hlt
  · exact h

/-- A server that does not run has no connection. -/
def Closed (s : Server) : Prop := s.running = false → ∀ slot, some slot ∉ s.slots

theorem Sound.reply (h : Sound s) (hclosed : Closed s) (radioAttached : Bool) (freqHz : UInt32) :
    Sound (s.reply radioAttached freqHz) := by
  unfold Server.reply
  cases hhand : s.inHand with
  | none => exact h
  | some request =>
    obtain ⟨id', line⟩ := request
    dsimp only
    generalize htext : handleCommand line radioAttached freqHz = text
    have hanswered : ∀ id, about id (s.answered ++ [(id', line, text)]) =
        about id s.answered ++ if id' = id then [(line, text)] else [] := by
      intro id
      rw [about_append]
      split_ifs with hid
      · rw [hid, about_single_self]
      · rw [about_single_ne hid]
    have hreplies : ∀ id, (about id (s.answered ++ [(id', line, text)])).map Prod.snd =
        replies s id ++ if id' = id then [text] else [] := by
      intro id
      rw [hanswered, List.map_append]
      split_ifs <;> rfl
    have hid' : id' < s.nextConnId := by
      refine h.recv_lt (id', line) ?_
      rw [hhand]
      exact List.mem_cons_self
    refine ⟨fun id => ⟨?_, (h.tracked id).buffer, ?_, ?_⟩, h.slots_lt, h.arrived_lt, ?_, ?_,
      h.distinct, ?_, h.count⟩
    · have hrequests := (h.tracked id).requests
      have hone : about id (some (id', line)).toList = if id' = id then [line] else [] := by
        split_ifs with hid
        · rw [hid]
          exact about_single_self id line
        · exact about_single_ne hid line
      rw [hhand, hone] at hrequests
      change (about id (s.answered ++ [(id', line, text)])).map Prod.fst ++ [] ++
        about id s.recvQueue = linesOf s id
      rw [hanswered, List.map_append, List.append_nil, ← hrequests]
      split_ifs <;> rfl
    · change texts s id <+: (about id (s.answered ++ [(id', line, text)])).map Prod.snd
      rw [hreplies]
      exact (h.tracked id).sent.trans (List.prefix_append _ _)
    · intro hopen
      have hruns : s.running = true := by
        by_contra hstopped
        obtain ⟨slot, hslot, -⟩ := isOpen_iff.mp hopen
        exact hclosed (eq_false_of_ne_true hstopped) slot hslot
      have hpending := (h.tracked id).pending hopen
      change texts s id ++ about id (if s.running then s.sendQueue ++ [(id', text)]
        else s.sendQueue) = (about id (s.answered ++ [(id', line, text)])).map Prod.snd
      rw [hreplies, if_pos hruns, about_append, ← List.append_assoc, hpending]
      split_ifs with hid
      · rw [hid, about_single_self]
      · rw [about_single_ne hid]
    · intro x hx
      exact h.recv_lt x (List.mem_append_right _ hx)
    · intro x hx
      dsimp only at hx
      split_ifs at hx
      · obtain hx | hx := List.mem_append.mp hx
        · exact h.send_lt x hx
        · rw [List.mem_singleton.mp hx]
          exact hid'
      · exact h.send_lt x hx
    · intro x hx
      obtain hx | hx := List.mem_append.mp hx
      · exact h.answers x hx
      · rw [List.mem_singleton.mp hx]
        exact ⟨radioAttached, freqHz, htext.symm⟩

theorem Sound.stop (h : Sound s) : Sound s.stop := by
  unfold Server.stop
  split_ifs
  · have hnone : ∀ slot, some slot ∉ s.slots.map fun _ => (none : Option ClientSlot) := by
      intro slot hslot
      obtain ⟨_, -, hfalse⟩ := List.mem_map.mp hslot
      cases hfalse
    refine ⟨fun id => ⟨(h.tracked id).requests, fun slot hslot => absurd hslot (hnone slot),
      (h.tracked id).sent, fun hopen => ?_⟩, fun slot hslot => absurd hslot (hnone slot),
      h.arrived_lt, h.recv_lt, h.send_lt, fun i j a b ha => ?_, h.answers, ?_⟩
    · obtain ⟨slot, hslot, -⟩ := isOpen_iff.mp hopen
      exact absurd hslot (hnone slot)
    · exact absurd (List.mem_of_getElem? ha) (hnone a)
    · dsimp only
      rw [List.countP_map]
      exact (List.countP_eq_zero.mpr fun _ _ => Bool.false_ne_true).symm
  · exact h

/-- **What every step keeps.** -/
theorem Sound.step (h : Sound s) (hclosed : Closed s) (op : ServerOp) : Sound (s.step op) := by
  cases op with
  | start bound =>
    change Sound (s.start bound)
    unfold Server.start
    split_ifs
    · exact ⟨fun id => ⟨(h.tracked id).requests, (h.tracked id).buffer, (h.tracked id).sent,
        (h.tracked id).pending⟩, h.slots_lt, h.arrived_lt, h.recv_lt, h.send_lt, h.distinct,
        h.answers, h.count⟩
    · exact h
  | stop => exact h.stop
  | accept =>
    rw [Server.step]
    split_ifs
    · exact h.accept
    · exact h
  | service i ev =>
    rw [Server.step]
    split_ifs
    · unfold Server.service
      cases hslot : s.slots.getD i none with
      | none => exact h
      | some slot =>
        have hget : s.slots[i]? = some (some slot) := by
          rw [List.getD_eq_getElem?_getD] at hslot
          cases hi : s.slots[i]? with
          | none =>
            rw [hi] at hslot
            cases hslot
          | some other =>
            rw [hi] at hslot
            exact congrArg some hslot
        cases ev with
        | hangup => exact h.close hget
        | failed => exact h.close hget
        | received chunk => exact h.receive hget chunk
    · exact h
  | drain took =>
    rw [Server.step]
    split_ifs
    · have hempty : ({ s with sendQueue := [] } : Server).sendQueue = [] := rfl
      exact Sound.drainAll hempty h took
    · exact h
  | pop => exact h.pop
  | reply radioAttached freqHz => exact h.reply hclosed radioAttached freqHz

theorem running_drainAll (queue : List (Nat × Str)) (took : List Nat) (s : Server) :
    (s.drainAll queue took).running = s.running := by
  have hone : ∀ (s : Server) x n, (s.sendOne x n).running = s.running := by
    intro s x n
    unfold Server.sendOne
    split_ifs <;> rfl
  induction queue generalizing s took with
  | nil => rfl
  | cons x queue ih =>
    cases took with
    | nil => exact (ih [] _).trans (hone s x _)
    | cons n took => exact (ih took _).trans (hone s x n)

theorem running_service (s : Server) (i : Nat) (ev : SlotEvent) :
    (s.service i ev).running = s.running := by
  unfold Server.service
  cases s.slots.getD i none with
  | none => rfl
  | some slot =>
    cases ev with
    | hangup => rfl
    | failed => rfl
    | received chunk =>
      change (s.receive i slot chunk).running = s.running
      unfold Server.receive
      dsimp only
      split_ifs <;> rfl

theorem running_accept (s : Server) : s.accept.running = s.running := by
  unfold Server.accept
  split <;> rfl

theorem Closed.step (h : Closed s) (op : ServerOp) : Closed (s.step op) := by
  have hrunning : ∀ s' : Server, s.running = true → s'.running = s.running → Closed s' :=
    fun s' hruns hsame hstopped => Bool.noConfusion (hstopped.symm.trans (hsame.trans hruns))
  cases op with
  | start bound =>
    change Closed (s.start bound)
    unfold Server.start
    split_ifs
    · exact nofun
    · exact h
  | stop =>
    change Closed s.stop
    unfold Server.stop
    split_ifs
    · intro _ slot hslot
      obtain ⟨_, -, hfalse⟩ := List.mem_map.mp hslot
      cases hfalse
    · exact h
  | accept =>
    rw [Server.step]
    split_ifs with hruns
    · exact hrunning _ hruns (running_accept s)
    · exact h
  | service i ev =>
    rw [Server.step]
    split_ifs with hruns
    · exact hrunning _ hruns (running_service s i ev)
    · exact h
  | drain took =>
    rw [Server.step]
    split_ifs with hruns
    · exact hrunning _ hruns (running_drainAll s.sendQueue took _)
    · exact h
  | pop =>
    change Closed s.pop
    unfold Server.pop
    split
    · exact h
    · exact h
  | reply radioAttached freqHz =>
    change Closed (s.reply radioAttached freqHz)
    unfold Server.reply
    split
    · exact h
    · exact h

theorem sound_init : Sound init where
  tracked _ := ⟨rfl, fun _ hslot => absurd (List.eq_of_mem_replicate hslot) nofun,
    List.prefix_rfl, fun _ => rfl⟩
  slots_lt _ hslot := absurd (List.eq_of_mem_replicate hslot) nofun
  arrived_lt := nofun
  recv_lt := nofun
  send_lt := nofun
  distinct _ _ _ _ ha := absurd (List.eq_of_mem_replicate (List.mem_of_getElem? ha)) nofun
  answers := nofun
  count := by decide

/-- Along every run. -/
theorem sound_after (ops : List ServerOp) : Sound (Machine.run Server.step init ops) := by
  have hstart : Sound init ∧ Closed init :=
    ⟨sound_init, fun _ _ hslot => absurd (List.eq_of_mem_replicate hslot) nofun⟩
  have hstep : ∀ s op, Sound s ∧ Closed s → Sound (Server.step s op) ∧ Closed (Server.step s op) :=
    fun _ op h => ⟨h.1.step h.2 op, h.2.step op⟩
  exact (Machine.allStates_of_inv' hstep hstart ops).last.1

/-! ## Results -/

/-- **The clients are counted**, and no two connections have one id. -/
theorem clients_counted (ops : List ServerOp) :
    let s := Machine.run Server.step init ops
    s.clientCount = s.slots.countP Option.isSome ∧
      ∀ (i j : Nat) (a b : ClientSlot), s.slots[i]? = some (some a) → s.slots[j]? = some (some b) →
        a.id = b.id → i = j :=
  ⟨(sound_after ops).count, (sound_after ops).distinct⟩

end Rigctld

end OpenALE
