import OpenALE.Properties.HalfDuplex

/-!
# Word counts and the transmitter's queue

The transmitter is a queue of the words handed to `transmit_callback`; it completes them one by one
and in order. The machine only counts. A burst is meant to end, for the machine, on the completion
of its own last word.

Results:
* `conserves`: so it does along every run whose steps are all `Sender.Orderly`.
* `conserves_fail`: a burst queued behind words left over from an aborted one ends early.
-/

namespace OpenALE

/-- `m` and `m'` are phases of one burst. -/
def Mode.sameBurst : Mode → Mode → Bool
  | .call _, .call _ => true
  | m, m' => m == m'

theorem Mode.sameBurst_orderwire (m : Mode) : m.sameBurst .orderwire = (m == .orderwire) := by
  cases m <;> rfl

/-- The burst of what is being sent: `new` if `n` words were handed over for it, else the burst
that was under way, if it still is. -/
def nextBurst (m m' : Mode) (n new : Nat) (b : Option Nat) : Option Nat :=
  if m' = .listen ∨ m' = .tuning then none
  else if n ≠ 0 then some new
  else if m.sameBurst m' then b else none

/-- A machine with its transmitter. Bursts are numbered; the queue holds the number of the burst
each word belongs to. -/
structure Sender where
  sm : SM
  fifo : List Nat := []
  bursts : Nat := 0
  burst : Option Nat := none

/-- **A burst of its own ends**, as seen from `v` to `v'`: the calling frame, a sounding or a
response makes way for its window, an acknowledgement, a termination or a rejection for another
state, an orderwire for the quiet link. `done` says that a word was completed; other ways out of
the last four are time-outs and aborts. -/
def TxView.Ends (v v' : TxView) (done : Bool) : Prop :=
  match v.mode with
  | .call _ | .sounding => v'.state = v.state ∧ v'.awaits = true
  | .response =>
    (v'.state = v.state ∧ v'.awaits = true) ∨ (done = true ∧ v'.state ≠ v.state)
  | .ack | .termination => done = true ∧ v'.state ≠ v.state
  | .orderwire => done = true ∧ v'.mode = .listen
  | _ => False

instance (v v' : TxView) (done : Bool) : Decidable (v.Ends v' done) := by
  unfold TxView.Ends
  induction v.mode using Mode.casesOn <;> infer_instance

/-- A burst is under way, other than a broadcast. -/
def TxView.Busy (v : TxView) : Prop :=
  match v.mode with
  | .call _ | .response | .termination | .sounding => True
  | .ack | .orderwire => v.wordsPending ≠ 0
  | _ => False

instance (v : TxView) : Decidable v.Busy := by
  unfold TxView.Busy
  induction v.mode using Mode.casesOn <;> infer_instance

namespace SM

/-- The words `on_word_complete` still counts before `LISTENING`, from phase `p` with `c` counted:
each phase takes one at least. -/
def slotsDue (s : SM) (p : CallingPhase) (c : Nat) : Nat :=
  match p with
  | .leadingCall => max 1 (s.tlcSlots - c) + max 1 s.seqs.conclusionSeq.length
  | .conclusion => max 1 (s.seqs.conclusionSeq.length - c)
  | p => max 1 (s.slots p - c) + max 1 s.tlcSlots + max 1 s.seqs.conclusionSeq.length

/-- A calling frame has as many words pending as will be counted. -/
def Counted (s : SM) (v : TxView) : Prop :=
  match v.mode with
  | .call p => v.wordsPending = s.slotsDue p v.cycles
  | _ => True

instance (s : SM) (v : TxView) : Decidable (s.Counted v) := by
  unfold Counted
  induction v.mode using Mode.casesOn <;> infer_instance

end SM

namespace Sender

/-- A machine as its constructor leaves it. -/
def init : Sender := { sm := SM.init }

/-- The last word of the burst under way is the only one in the queue. -/
def AtLast (x : Sender) : Prop := ∃ b, x.burst = some b ∧ x.fifo = [b] ∧ x.sm.mode ≠ .broadcast

/-- One operation; a completed word leaves the queue, and none completes when it is empty. -/
def step (x : Sender) (op : Op) : Sender :=
  if op = .onWordComplete ∧ x.fifo = [] then x
  else
    let s := x.sm.step op
    let n := sends (signals s.out)
    { sm := s
      fifo := (if op = .onWordComplete then x.fifo.tail else x.fifo) ++ List.replicate n x.bursts
      bursts := if n = 0 then x.bursts else x.bursts + 1
      burst := nextBurst x.sm.mode s.mode n x.bursts x.burst }

/-- **Conservation.** A burst ends exactly on the completion of its last word. -/
def Conserves (x : Sender) (op : Op) : Prop :=
  ¬ (op = .onWordComplete ∧ x.fifo = []) →
    (x.sm.txView.Ends (x.sm.step op).txView (op == .onWordComplete) ↔
      op = .onWordComplete ∧ x.AtLast)

/-- **An orderly step.** A burst is queued only when the words counted are the words in the queue,
with no broadcast on where a call or a handshake queues it, and a calling frame has as many words as
will be counted; no watchdog of a broadcast empties the count of another burst; no word completes
while the orderwire flag of an earlier link stands with nothing counted. -/
def Orderly (x : Sender) (op : Op) : Prop :=
  let s := x.sm
  match op with
  | .update now env =>
    now - s.currentTimeMs < 0x80000000 →
      ((s.clocked now).queues env = true →
        x.fifo.length = s.tx.wordsPending ∧
        (s.currentState = .calling ∨ s.currentState = .handshake →
          s.allcallBroadcasting = false) ∧
        (s.mode = .tuning → s.seqs.callFrame.length = s.slotsDue s.firstTxPhase 0)) ∧
      (s.allcallLost now = true → ¬ s.txView.Busy)
  | .terminateLink => s.currentState = .linked → x.fifo.length = s.tx.wordsPending
  | .set (.targetScanChannels n) => SM.Counted { s with targetScanChannels := n } s.txView
  | .onWordComplete => ¬ (s.mode = .orderwire ∧ s.tx.wordsPending = 0)
  | _ => True

instance (x : Sender) (op : Op) : Decidable (x.Orderly op) := by
  unfold Orderly
  induction op using Op.casesOn with
  | set y => induction y using Setting.casesOn <;> infer_instance
  | _ => infer_instance

end Sender

/-! ## The invariant -/

/-- The queue `fifo` and the burst `b` follow the view. -/
structure Follows (v : TxView) (fifo : List Nat) (b : Option Nat) : Prop where
  busy : v.Busy → fifo.length = v.wordsPending ∧ ∃ n, b = some n ∧ fifo.getLast? = some n
  idle : ¬ v.Busy → v.mode ≠ .broadcast → b = none
  allcall : v.Busy → (∃ p, v.mode = .call p) ∨ v.mode = .response ∨ v.mode = .ack →
    v.allcall = false
  calling : v.state = .calling → v.mode = .listen ∨ v.mode = .tuning → v.wordsPending = 0

section Follows

variable {v v' : TxView} {fifo : List Nat} {b : Option Nat}

theorem Follows.pending (h : Follows v fifo b) (hb : v.Busy) : v.wordsPending ≠ 0 := by
  obtain ⟨hl, n, -, hn⟩ := h.busy hb
  rintro hw
  rw [hw, List.length_eq_zero_iff] at hl
  rw [hl] at hn
  exact absurd hn (by simp)

/-- With one word left the burst is at its last, and only then. -/
theorem Follows.last_iff (h : Follows v fifo b) (hb : v.Busy) :
    (∃ n, b = some n ∧ fifo = [n]) ↔ v.wordsPending = 1 := by
  obtain ⟨hl, n, hn, hlast⟩ := h.busy hb
  constructor
  · rintro ⟨m, -, hf⟩
    rw [← hl, hf]
    rfl
  · intro hw
    rw [hw] at hl
    obtain ⟨m, hm⟩ := List.length_eq_one_iff.mp hl
    rw [hm, List.getLast?_singleton] at hlast
    exact ⟨m, by rw [hn, ← Option.some.inj hlast], hm⟩

/-- Where nothing is sent there is nothing to follow. -/
theorem follows_quiet (hv : ¬ v'.Busy) (hb : v'.mode ≠ .broadcast → b = none)
    (hw : v'.state = .calling → v'.wordsPending = 0) : Follows v' fifo b :=
  ⟨fun h => absurd h hv, fun _ => hb, fun h => absurd h hv, fun h _ => hw h⟩

theorem not_busy_of (h : v.mode = .listen ∨ v.mode = .tuning ∨ v.mode = .broadcast) : ¬ v.Busy := by
  unfold TxView.Busy
  rcases h with h | h | h <;> rw [h] <;> exact id

/-- A burst of `n` words goes to the end of the queue. -/
theorem follows_burst {n new : Nat} (hn : n ≠ 0) (hl : fifo.length + n = v'.wordsPending)
    (ha : (∃ p, v'.mode = .call p) ∨ v'.mode = .response ∨ v'.mode = .ack → v'.allcall = false)
    (hb : b = some new) (hv : v'.Busy) : Follows v' (fifo ++ List.replicate n new) b := by
  refine ⟨fun _ => ⟨?_, new, hb, ?_⟩, fun h => absurd hv h, fun _ => ha,
    fun _ h => absurd hv (not_busy_of (h.imp_right Or.inl))⟩
  · rw [List.length_append, List.length_replicate, hl]
  · obtain ⟨k, rfl⟩ := Nat.exists_eq_succ_of_ne_zero hn
    rw [List.replicate_succ', ← List.append_assoc, List.getLast?_append]
    rfl

/-- One word of many is completed. -/
theorem follows_word (h : Follows v fifo b) (hv : v.Busy) (hw : 1 < v.wordsPending)
    (hw' : v'.wordsPending = v.wordsPending - 1)
    (ha : (∃ p, v'.mode = .call p) ∨ v'.mode = .response ∨ v'.mode = .ack → v'.allcall = false)
    (hv' : v'.Busy) : Follows v' fifo.tail b := by
  obtain ⟨hl, n, hn, hlast⟩ := h.busy hv
  refine ⟨fun _ => ⟨by rw [List.length_tail, hl, hw'], n, hn, ?_⟩, fun h' => absurd hv' h',
    fun _ => ha, fun _ h => absurd hv' (not_busy_of (h.imp_right Or.inl))⟩
  match fifo, hl, hlast with
  | [_], hl, _ => exact absurd hl (by simp only [List.length_singleton]; omega)
  | _ :: y :: ys, _, hlast => rwa [List.tail_cons, ← List.getLast?_cons_cons]

end Follows

namespace SM

section Step

variable {s : SM} {v : TxView} {sig : List Signal} {fifo : List Nat} {b : Option Nat} {new : Nat}

/-- A transition leaves nothing to follow. -/
theorem follows_go {t : ALEState} {n c : Nat} (ht : t ≠ s.currentState)
    (hn : n ≠ 0 → s.currentState = .linked) (fifo : List Nat) :
    Follows (TxView.go { s.txView with cycles := c } t) fifo
      (nextBurst s.mode (s.txView.go t).mode n new b) := by
  have hmode : (s.txView.go t).mode = .listen ∨ (s.txView.go t).mode = .broadcast ∨
      (s.txView.go t).mode = .orderwire ∧ t = .linked := by
    unfold TxView.go
    cases t <;> dsimp only
    case linked =>
      split
      · exact Or.inr (Or.inr ⟨rfl, rfl⟩)
      · exact Or.inl rfl
    all_goals
      first
        | exact Or.inl rfl
        | (split
           · exact Or.inr (Or.inl rfl)
           · exact Or.inl rfl)
  have hsame : (TxView.go { s.txView with cycles := c } t).mode = (s.txView.go t).mode := rfl
  refine follows_quiet ?_ (fun hb => ?_) fun _ => rfl
  · rcases hmode with h | h | ⟨h, -⟩
    · exact not_busy_of (Or.inl h)
    · exact not_busy_of (Or.inr (Or.inr h))
    · unfold TxView.Busy
      rw [hsame, h]
      exact fun hw => hw rfl
  · rw [hsame] at hb
    rcases hmode with h | h | ⟨h, rfl⟩
    · exact if_pos (Or.inl h)
    · exact absurd h hb
    · unfold nextBurst
      rw [h, if_neg (by decide)]
      have hn0 : n = 0 := by
        by_contra hne
        exact ht (hn hne).symm
      rw [if_neg (not_not.mpr hn0), if_neg]
      intro hs
      rw [Mode.sameBurst_orderwire, beq_iff_eq] at hs
      exact ht (linked_of_mode hs).symm

theorem counted_of_mode (hv : ∀ p, v.mode ≠ .call p) : s.Counted v := by
  unfold Counted
  split
  · rename_i p hp
    exact absurd hp (hv p)
  · trivial

/-- Without a completed word nothing ends but in its window, which is not open yet. -/
theorem not_ends (h : v.awaits = false ∨ v.state ≠ s.currentState) :
    ¬ s.txView.Ends v false := by
  unfold TxView.Ends
  have hne : ¬ (v.state = s.txView.state ∧ v.awaits = true) := by
    rintro ⟨h1, h2⟩
    rcases h with h | h
    · exact Bool.false_ne_true (h.symm.trans h2)
    · exact h h1
  split
  · exact hne
  · exact hne
  · rintro (h | ⟨h, -⟩)
    · exact hne h
    · exact Bool.false_ne_true h
  · exact fun h => Bool.false_ne_true h.1
  · exact fun h => Bool.false_ne_true h.1
  · exact fun h => Bool.false_ne_true h.1
  · exact id

/-- Where nothing is sent, nothing ends. -/
theorem not_ends_idle {done : Bool} (hm : s.mode = .listen ∨ s.mode = .tuning ∨ s.mode = .broadcast) :
    ¬ s.txView.Ends v done := by
  unfold TxView.Ends
  rw [show s.txView.mode = s.mode from rfl]
  rcases hm with h | h | h <;> rw [h] <;> exact id

/-- Nothing ends where nothing changes. -/
theorem not_ends_stay (s : SM) : ¬ s.txView.Ends s.txView false := by
  by_cases hm : s.mode = .listen
  · exact not_ends_idle (Or.inl hm)
  · exact not_ends (Or.inl (awaits_of_mode hm))

/-- What is kept by a step without a completed word. -/
structure Keeps (s : SM) (v : TxView) (fifo : List Nat) (b : Option Nat) (new : Nat)
    (sig : List Signal) : Prop where
  ends : ¬ s.txView.Ends v false
  follows : Follows v (fifo ++ List.replicate (sends sig) new)
    (nextBurst s.mode v.mode (sends sig) new b)
  counted : s.Counted v

theorem keeps_stay (h : Follows s.txView fifo b) (hc : s.Counted s.txView) :
    s.Keeps s.txView fifo b new [] := by
  refine ⟨not_ends_stay s, ?_, hc⟩
  have hb : nextBurst s.mode s.txView.mode (sends []) new b =
      if s.mode = .listen ∨ s.mode = .tuning then none else b := by
    unfold nextBurst
    rw [show s.txView.mode = s.mode from rfl, if_neg (not_not.mpr sends_nil)]
    have hsame : s.mode.sameBurst s.mode = true := by
      unfold Mode.sameBurst
      split
      · rfl
      · exact beq_self_eq_true _
    rw [if_pos hsame]
  rw [hb, sends_nil, List.replicate_zero, List.append_nil]
  split
  · rename_i hm
    exact follows_quiet (not_busy_of (hm.imp_right Or.inl)) (fun _ => rfl)
      (fun hs => h.calling hs hm)
  · exact h

theorem keeps_go {t : ALEState} {n : Nat} (ht : t ≠ s.currentState)
    (hn : n ≠ 0 → s.currentState = .linked) (hs : sends sig = n) :
    s.Keeps (s.txView.go t) fifo b new sig := by
  refine ⟨not_ends (Or.inr ht), ?_, counted_of_mode (mode_go_ne_call _ _)⟩
  rw [hs]
  exact follows_go (c := s.calling.callCyclesInPhase) ht hn _

/-- A new burst. -/
theorem keeps_burst {n : Nat} (hn : n ≠ 0) (hs : sends sig = n)
    (hl : fifo.length + n = v.wordsPending)
    (ha : (∃ p, v.mode = .call p) ∨ v.mode = .response ∨ v.mode = .ack → v.allcall = false)
    (hm : v.mode ≠ .listen ∧ v.mode ≠ .tuning) (hv : v.Busy) (he : ¬ s.txView.Ends v false)
    (hc : s.Counted v) : s.Keeps v fifo b new sig := by
  refine ⟨he, ?_, hc⟩
  rw [hs]
  refine follows_burst hn hl ha ?_ hv
  unfold nextBurst
  rw [if_neg (by rintro (h | h); exacts [hm.1 h, hm.2 h]), if_pos hn]

/-- A quiet view with no words handed over. -/
theorem keeps_quiet (hm : v.mode = .listen ∨ v.mode = .tuning) (he : ¬ s.txView.Ends v false)
    (hw : v.state = .calling → v.wordsPending = 0) : s.Keeps v fifo b new sig := by
  refine ⟨he, follows_quiet (not_busy_of (hm.imp_right Or.inl)) (fun _ => if_pos hm) hw,
    counted_of_mode fun p hp => ?_⟩
  rcases hm with h | h <;> rw [h] at hp <;> exact absurd hp (by simp)

theorem slotsDue_pos (s : SM) (p : CallingPhase) (c : Nat) : s.slotsDue p c ≠ 0 := by
  unfold slotsDue
  split <;> omega

/-- A quiet view of an acknowledgement or an orderwire with nothing handed over yet. -/
theorem keeps_waiting (hm : v.mode = .ack) (hw : v.wordsPending = 0) (hs : s.mode ≠ .ack)
    (he : ¬ s.txView.Ends v false) (hsig : sends sig = 0) : s.Keeps v fifo b new sig := by
  refine ⟨he, follows_quiet ?_ (fun _ => ?_) (fun _ => hw), counted_of_mode fun p => by rw [hm]; simp⟩
  · unfold TxView.Busy
    rw [hm]
    exact fun h => h hw
  · unfold nextBurst
    rw [hm, hsig, if_neg (by decide), if_neg (by decide), if_neg]
    intro h
    have hb : s.mode.sameBurst .ack = (s.mode == .ack) := by cases s.mode <;> rfl
    rw [hb, beq_iff_eq] at h
    exact hs h

/-- **An orderly tick ends nothing and keeps the queue.** -/
theorem tick_keeps {env : Env} (h : Follows s.txView fifo b) (hc : s.Counted s.txView)
    (hq : s.queues env = true → fifo.length = s.tx.wordsPending ∧
      (s.currentState = .calling ∨ s.currentState = .handshake → s.allcallBroadcasting = false) ∧
      (s.mode = .tuning → s.seqs.callFrame.length = s.slotsDue s.firstTxPhase 0))
    (hlost : s.allcallBroadcasting = true → s.drainExpired = true → s.checkLinkTimeout = false →
      ¬ s.txView.Busy) (hm : s.TickMove env v sig) : s.Keeps v fifo b new sig := by
  cases hm with
  | stay => exact keeps_stay h hc
  | transition t n ht hn =>
    refine keeps_go ht (fun hne => (hn hne).1) ?_
    rw [sends_append, sends_replicate]
    rfl
  | terminationLost t ht hmode => exact keeps_go (n := 0) ht (fun hne => absurd rfl hne) rfl
  | sweep hs he _ =>
    exact keeps_quiet (Or.inl rfl) (not_ends (Or.inl rfl))
      (fun hs' => absurd (hs.symm.trans hs') (by decide))
  | tune hs hmode =>
    exact keeps_quiet (Or.inr rfl) (not_ends (Or.inl rfl)) (fun _ => h.calling hs (Or.inl hmode))
  | frame hs hmode hqueue =>
    obtain ⟨hl, hall, hdue⟩ := hq hqueue
    have hlen := hdue hmode
    have hw : s.tx.wordsPending = 0 := h.calling hs (Or.inr hmode)
    refine keeps_burst (by rw [hlen]; exact slotsDue_pos s _ _) (sends_replicate _) (by rw [hl])
      (fun _ => hall (Or.inl hs)) ⟨by simp, by simp⟩ trivial
      (not_ends_idle (Or.inr (Or.inl hmode))) ?_
    show s.tx.wordsPending + _ = _
    rw [hw, Nat.zero_add, hlen]
  | retry hs hmode =>
    exact keeps_quiet (Or.inl hmode) (not_ends (Or.inl rfl)) (fun _ => rfl)
  | shutForAck hs hmode =>
    exact keeps_waiting rfl (h.calling hs (Or.inl hmode)) (by rw [hmode]; decide) (not_ends (Or.inl rfl)) rfl
  | ack n hn hmode hw hqueue =>
    obtain ⟨hl, hall, -⟩ := hq hqueue
    have hcs := ack_of_mode hmode
    refine keeps_burst (Nat.pos_iff_ne_zero.mp hn) (sends_replicate _)
      (by rw [hl, hw]; exact Nat.zero_add n) (fun _ => hall (Or.inl hcs)) ?_ ?_ ?_
      (counted_of_mode fun p hp => ?_)
    · rw [show TxView.mode _ = .ack from hmode]
      exact ⟨by decide, by decide⟩
    · unfold TxView.Busy
      rw [show TxView.mode _ = .ack from hmode]
      exact Nat.pos_iff_ne_zero.mp hn
    · exact not_ends (Or.inl (awaits_of_mode (by rw [hmode]; decide)))
    · rw [show TxView.mode _ = .ack from hmode] at hp
      exact Mode.noConfusion hp
  | response n hn hs hmode hqueue =>
    obtain ⟨hl, hall, -⟩ := hq hqueue
    refine keeps_burst (Nat.pos_iff_ne_zero.mp hn) ?_ (by rw [hl]) (fun _ => hall (Or.inr hs))
      ⟨by simp, by simp⟩ trivial (not_ends_idle (Or.inl hmode)) (counted_of_mode fun p => by simp)
    rw [sends_rx, sends_replicate]
  | orderwire n hn hmode hqueue =>
    obtain ⟨hl, -, -⟩ := hq hqueue
    refine keeps_burst (Nat.pos_iff_ne_zero.mp hn) ?_ (by rw [hl]) (fun h => ?_)
      ⟨by simp, by simp⟩ ?_ (not_ends_idle (Or.inl hmode)) (counted_of_mode fun p => by simp)
    · rw [sends_rx, sends_replicate]
    · rcases h with ⟨p, h⟩ | h | h <;> exact absurd h (by simp)
    · show s.tx.wordsPending + n ≠ 0
      omega
  | abandon hs hmode hd hl hb =>
    refine keeps_quiet (Or.inl rfl) ?_ (fun hs' => absurd (hs.symm.trans hs') (by decide))
    unfold TxView.Ends
    rw [show s.txView.mode = .orderwire from hmode]
    exact fun h => Bool.false_ne_true h.1
  | sound n hn hmode hqueue =>
    obtain ⟨hl, -, -⟩ := hq hqueue
    refine keeps_burst (Nat.pos_iff_ne_zero.mp hn) ?_ (by rw [hl]) (fun h => ?_)
      ⟨by simp, by simp⟩ trivial (not_ends (Or.inl rfl)) (counted_of_mode fun p => by simp)
    · rw [sends_rx, sends_replicate]
    · rcases h with ⟨p, h⟩ | h | h <;> exact absurd h (by simp)
  | window hmode hw =>
    refine absurd hw (h.pending ?_)
    unfold TxView.Busy
    rw [show s.txView.mode = .sounding from hmode]
    trivial
  | allcallLost hb hd hl =>
    have hnb := hlost hb hd hl
    by_cases hmb : s.mode = .broadcast
    · rw [if_pos hmb]
      exact keeps_quiet (Or.inl rfl) (not_ends_idle (Or.inr (Or.inr hmb))) (fun _ => rfl)
    rw [if_neg hmb]
    have hst : s.Keeps s.txView fifo b new [] := keeps_stay h hc
    refine ⟨?_, follows_quiet ?_ ?_ (fun _ => rfl), ?_⟩
    · by_cases hmode : s.mode = .listen
      · exact not_ends_idle (Or.inl hmode)
      · exact not_ends (Or.inl (awaits_of_mode hmode))
    · unfold TxView.Busy at hnb ⊢
      rw [show s.txView.mode = s.mode from rfl] at hnb
      dsimp only
      revert hnb
      cases s.mode <;> simp
    · intro _
      by_contra hne
      exact hne (by
        have := hst.follows.idle hnb hmb
        exact this)
    · unfold Counted
      dsimp only
      split
      · rename_i p hp
        exact absurd (by unfold TxView.Busy; rw [show s.txView.mode = .call p from hp]; trivial) hnb
      · trivial

/-- **Any other orderly operation ends nothing and keeps the queue.** -/
theorem other_keeps {op : Op} (h : Follows s.txView fifo b) (hc : s.Counted s.txView)
    (hterm : op = .terminateLink → s.currentState = .linked → fifo.length = s.tx.wordsPending)
    (hm : s.OtherMove op v sig) : s.Keeps v fifo b new sig := by
  cases hm with
  | stay => exact keeps_stay h hc
  | transition t n ht hn =>
    refine keeps_go ht (fun hne => (hn hne).2.1) ?_
    rw [sends_append, sends_replicate]
    rfl
  | sweep hs he _ =>
    exact keeps_quiet (Or.inl rfl) (not_ends (Or.inl rfl))
      (fun hs' => absurd (hs.symm.trans hs') (by decide))
  | broadcast n hn ha hmode hs =>
    refine ⟨not_ends_idle (Or.inl hmode), follows_quiet (not_busy_of (Or.inr (Or.inr rfl)))
      (fun hb => absurd rfl hb) (fun hs' => ?_), counted_of_mode fun p => by simp⟩
    have hs'' : s.currentState = .calling := hs'
    rcases hs with hs | hs <;> exact absurd (hs.symm.trans hs'') (by decide)
  | terminate n hn hop hs =>
    refine keeps_burst (Nat.pos_iff_ne_zero.mp hn) ?_ (by rw [hterm hop hs]) (fun h => ?_)
      ⟨by simp, by simp⟩ trivial (not_ends (Or.inl (awaits_linked hs)))
      (counted_of_mode fun p => by simp)
    · rw [sends_append, sends_replicate]
      rfl
    · rcases h with ⟨p, h⟩ | h | h <;> exact absurd h (by simp)

theorem OtherMove.view {op : Op} (hm : s.OtherMove op v sig) :
    (∀ p, v.mode ≠ .call p) ∨ v = s.txView := by
  cases hm with
  | stay => exact Or.inr rfl
  | transition t => exact Or.inl (mode_go_ne_call _ t)
  | _ => exact Or.inl fun _ => Mode.noConfusion

/-! ### Completed words -/

/-- What a completed word keeps: the burst ends if it was its last word. -/
structure Drains (s : SM) (v : TxView) (fifo : List Nat) (b : Option Nat) : Prop where
  ends : s.txView.Ends v true ↔ ∃ n, b = some n ∧ fifo = [n] ∧ s.mode ≠ .broadcast
  follows : Follows v fifo.tail (nextBurst s.mode v.mode 0 0 b)
  counted : s.Counted v

theorem not_last (h : Follows s.txView fifo b) (hb : ¬ s.txView.Busy) :
    ¬ ∃ n, b = some n ∧ fifo = [n] ∧ s.mode ≠ .broadcast := by
  rintro ⟨n, hn, -, hm⟩
  rw [h.idle hb hm] at hn
  exact absurd hn (by simp)

theorem last_iff (h : Follows s.txView fifo b) (hb : s.txView.Busy) :
    (∃ n, b = some n ∧ fifo = [n] ∧ s.mode ≠ .broadcast) ↔ s.tx.wordsPending = 1 := by
  have hm : s.mode ≠ .broadcast := fun hm => not_busy_of (v := s.txView) (Or.inr (Or.inr hm)) hb
  rw [← show s.txView.wordsPending = s.tx.wordsPending from rfl, ← h.last_iff hb]
  exact ⟨fun ⟨n, h1, h2, _⟩ => ⟨n, h1, h2⟩, fun ⟨n, h1, h2⟩ => ⟨n, h1, h2, hm⟩⟩

/-- A count that goes down where no burst is under way. -/
theorem drains_idle (h : Follows s.txView fifo b) (hb : ¬ s.txView.Busy) (hbc : s.mode ≠ .broadcast)
    (hmode : v.mode = s.mode) (hstate : v.state = s.currentState)
    (hw : v.wordsPending ≤ s.tx.wordsPending) : s.Drains v fifo b := by
  have hvb : ¬ v.Busy := by
    unfold TxView.Busy at hb ⊢
    rw [show s.txView.mode = s.mode from rfl] at hb
    rw [hmode]
    revert hb
    cases s.mode <;> simp only [imp_self, not_true, not_false_eq_true] <;>
      (show ¬ s.tx.wordsPending ≠ 0 → ¬ v.wordsPending ≠ 0; omega)
  have hn : b = none := h.idle hb hbc
  refine ⟨iff_of_false ?_ (not_last h hb), follows_quiet hvb (fun _ => ?_) (fun hs => ?_), ?_⟩
  · unfold TxView.Ends
    unfold TxView.Busy at hb
    rw [show s.txView.mode = s.mode from rfl] at hb ⊢
    cases hm : s.mode <;> rw [hm] at hb hmode <;>
      first
        | exact id
        | exact absurd trivial hb
        | exact fun hh => hh.2 hstate
        | exact fun hh => absurd (hmode.symm.trans hh.2) (by simp)
  · rw [hn]
    unfold nextBurst
    split
    · rfl
    · rw [if_neg (by simp)]
      split <;> rfl
  · by_cases hm : s.mode = .listen ∨ s.mode = .tuning
    · have h0 : s.tx.wordsPending = 0 := h.calling (hstate.symm.trans hs) hm
      omega
    · unfold TxView.Busy at hvb
      rw [hmode] at hvb
      have hst : s.currentState = .calling := hstate.symm.trans hs
      cases hms : s.mode <;> rw [hms] at hvb hm hbc <;> dsimp only at hvb <;>
        first
          | exact absurd trivial hvb
          | exact not_not.mp hvb
          | exact absurd (Or.inl rfl) hm
          | exact absurd (Or.inr rfl) hm
          | exact absurd rfl hbc
  · unfold Counted
    split
    · rename_i p hp
      refine absurd ?_ hvb
      unfold TxView.Busy
      rw [hp]
      trivial
    · trivial

/-- One word of many. -/
theorem drains_word (h : Follows s.txView fifo b) (hb : s.txView.Busy)
    (hw : 1 < s.tx.wordsPending) (hmode : s.mode.sameBurst v.mode = true) (hvb : v.Busy)
    (hstate : v.state = s.currentState) (haw : v.awaits = false)
    (hl : v.mode ≠ .listen) (hwv : v.wordsPending = s.tx.wordsPending - 1)
    (hall : v.allcall = s.allcallBroadcasting)
    (hcall : (∃ p, v.mode = .call p) ∨ v.mode = .response ∨ v.mode = .ack →
      (∃ p, s.mode = .call p) ∨ s.mode = .response ∨ s.mode = .ack)
    (hc : s.Counted v) : s.Drains v fifo b := by
  have hburst : nextBurst s.mode v.mode 0 0 b = b := by
    unfold nextBurst
    rw [if_neg, if_neg (by simp), if_pos hmode]
    exact fun hm => not_busy_of (hm.imp_right Or.inl) hvb
  refine ⟨iff_of_false ?_ ?_, ?_, hc⟩
  · unfold TxView.Ends
    have hne : ¬ (v.state = s.txView.state ∧ v.awaits = true) := fun hh =>
      Bool.false_ne_true (haw.symm.trans hh.2)
    split
    · exact hne
    · exact hne
    · rintro (hh | hh)
      · exact hne hh
      · exact hh.2 hstate
    · exact fun hh => hh.2 hstate
    · exact fun hh => hh.2 hstate
    · exact fun hh => hl hh.2
    · exact id
  · rw [last_iff h hb]
    omega
  · rw [hburst]
    exact follows_word h hb hw hwv (fun hh => hall.trans (h.allcall hb (hcall hh))) hvb

/-- The last word of a burst. -/
theorem drains_last (h : Follows s.txView fifo b) (hb : s.txView.Busy) (hw : s.tx.wordsPending = 1)
    (he : s.txView.Ends v true) (hv : Follows v fifo.tail (nextBurst s.mode v.mode 0 0 b))
    (hc : ∀ p, v.mode ≠ .call p) : s.Drains v fifo b :=
  ⟨iff_of_true he ((last_iff h hb).mpr hw), hv, counted_of_mode hc⟩

/-- A completed word of a broadcast. -/
theorem drains_broadcast (hm : s.mode = .broadcast)
    (hv : v.mode = .broadcast ∧ v.state = s.currentState ∨ v.mode = .listen ∧ v.wordsPending = 0) :
    s.Drains v fifo b := by
  have hne : s.currentState ≠ .calling := by
    intro hc
    rw [mode_calling hc] at hm
    cases hp : s.calling.callingPhase <;> rw [hp] at hm <;> exact absurd hm (by simp)
  refine ⟨iff_of_false (not_ends_idle (Or.inr (Or.inr hm))) fun ⟨_, _, _, h⟩ => h hm, ?_, ?_⟩
  · rcases hv with ⟨hv, hs⟩ | ⟨hv, hw⟩
    · exact follows_quiet (not_busy_of (Or.inr (Or.inr hv))) (fun h => absurd hv h)
        (fun hc => absurd (hs.symm.trans hc) hne)
    · exact follows_quiet (not_busy_of (Or.inl hv)) (fun _ => if_pos (Or.inl hv)) (fun _ => hw)
  · refine counted_of_mode fun p hp => ?_
    rcases hv with ⟨hv, -⟩ | ⟨hv, -⟩ <;> rw [hv] at hp <;> exact Mode.noConfusion hp

/-- A window opens, or the link falls quiet, on the last word. -/
theorem drains_listen (h : Follows s.txView fifo b) (hb : s.txView.Busy)
    (hw : s.tx.wordsPending = 1) (he : s.txView.Ends v true) (hm : v.mode = .listen)
    (hwv : v.wordsPending = 0) : s.Drains v fifo b :=
  drains_last h hb hw he
    (follows_quiet (not_busy_of (Or.inl hm)) (fun _ => if_pos (Or.inl hm)) fun _ => hwv)
    fun _ hp => Mode.noConfusion (hm.symm.trans hp)

/-- **A completed word ends the burst it was the last word of, and no other.** -/
theorem done_drains (h : Follows s.txView fifo b) (hc : s.Counted s.txView)
    (hw0 : ¬ (s.mode = .orderwire ∧ s.tx.wordsPending = 0)) (hm : s.DoneMove v sig) :
    s.Drains v fifo b := by
  have hbusy : ∀ m, s.mode = m → (s.txView.Busy ↔ TxView.Busy { s.txView with mode := m }) := by
    rintro m rfl
    exact Iff.rfl
  have hlast : s.txView.Busy → s.tx.wordsPending ≤ 1 → s.tx.wordsPending = 1 := fun hb hle => by
    have hne : s.tx.wordsPending ≠ 0 := h.pending hb
    omega
  have hcall : ∀ p, s.mode = .call p →
      s.txView.Busy ∧ s.tx.wordsPending = s.slotsDue p s.calling.callCyclesInPhase := by
    intro p hp
    refine ⟨(hbusy _ hp).mpr trivial, ?_⟩
    unfold Counted at hc
    rw [show s.txView.mode = _ from hp] at hc
    exact hc
  cases hm with
  | idle n c hn hm =>
    by_cases hbc : s.mode = .broadcast
    · exact drains_broadcast hbc (Or.inl ⟨hbc, rfl⟩)
    refine drains_idle h (fun hb => ?_) hbc rfl rfl hn
    rcases hm with hm | hm | hm
    · exact (hbusy _ hm).mp hb
    · exact (hbusy _ hm).mp hb
    · exact h.pending hb hm
  | stray hb hs hl ht ha =>
    refine drains_idle h (fun hbz => ?_) hb rfl rfl (Nat.sub_le _ _)
    have hm : (∃ p, s.mode = .call p) ∨ s.mode = .response ∨ s.mode = .ack := by
      cases hm : s.mode with
      | call p => exact Or.inl ⟨p, rfl⟩
      | response => exact Or.inr (Or.inl rfl)
      | ack => exact Or.inr (Or.inr rfl)
      | listen => exact ((hbusy _ hm).mp hbz).elim
      | tuning => exact ((hbusy _ hm).mp hbz).elim
      | broadcast => exact absurd hm hb
      | sounding => exact absurd hm hs
      | orderwire => exact absurd hm hl
      | termination => exact absurd hm ht
    exact Bool.false_ne_true ((h.allcall hbz hm).symm.trans ha)
  | word c hm hw =>
    have hw' : s.tx.wordsPending - 1 ≠ 0 := by omega
    by_cases hbc : s.mode = .broadcast
    · exact drains_broadcast hbc (Or.inl ⟨hbc, rfl⟩)
    have hb : s.txView.Busy ∧ TxView.Busy { s.txView with
        wordsPending := s.tx.wordsPending - 1, cycles := c } ∧ ∀ p, s.mode ≠ .call p := by
      unfold TxView.Busy
      rw [show s.txView.mode = s.mode from rfl]
      cases hms : s.mode <;> rw [hms] at hm hbc <;>
        first
          | exact absurd hm Bool.false_ne_true
          | exact absurd rfl hbc
          | exact ⟨trivial, trivial, fun p => Mode.noConfusion⟩
          | exact ⟨by show s.tx.wordsPending ≠ 0; omega, hw', fun p => Mode.noConfusion⟩
    have hsame : s.mode.sameBurst s.mode = true := by
      unfold Mode.sameBurst
      split
      · rfl
      · exact beq_self_eq_true _
    have hl : s.mode ≠ .listen := fun hl => (hbusy _ hl).mp hb.1
    exact drains_word h hb.1 hw hsame hb.2.1 rfl (awaits_of_mode hl) hl rfl rfl id
      (counted_of_mode hb.2.2)
  | slot p hm hw hs =>
    obtain ⟨hb, hdue⟩ := hcall p hm
    have hdue' : 1 < s.tx.wordsPending ∧
        s.tx.wordsPending - 1 = s.slotsDue p (s.calling.callCyclesInPhase + 1) := by
      rw [hdue]
      unfold slotsDue
      cases p <;> dsimp only [slots] at hs ⊢ <;> omega
    have hl : s.mode ≠ .listen := by rw [hm]; exact Mode.noConfusion
    refine drains_word h hb hdue'.1 ?_ ?_ rfl (awaits_of_mode hl) hl rfl rfl id ?_
    · rw [show TxView.mode _ = s.mode from rfl, hm]
      rfl
    · unfold TxView.Busy
      rw [show TxView.mode _ = _ from hm]
      trivial
    · unfold Counted
      rw [show TxView.mode _ = _ from hm]
      exact hdue'.2
  | advance p hm hp hw hs =>
    obtain ⟨hb, hdue⟩ := hcall p hm
    have hdue' : 1 < s.tx.wordsPending ∧ s.tx.wordsPending - 1 = s.slotsDue p.next 0 := by
      rw [hdue]
      unfold slotsDue CallingPhase.next
      cases p <;> dsimp only [slots] at hs ⊢ <;> first | exact absurd rfl hp | omega
    refine drains_word h hb hdue'.1 ?_ trivial rfl rfl Mode.noConfusion rfl rfl
      (fun _ => Or.inl ⟨p, hm⟩) hdue'.2
    rw [hm]
    rfl
  | listens hm hw hs =>
    obtain ⟨hb, hdue⟩ := hcall _ hm
    have hw1 : s.tx.wordsPending = 1 := by
      rw [hdue]
      show max 1 _ = 1
      omega
    refine drains_listen h hb hw1 ?_ rfl (by show s.tx.wordsPending - 1 = 0; omega)
    unfold TxView.Ends
    rw [show s.txView.mode = _ from hm]
    exact ⟨rfl, rfl⟩
  | transition t c ht hw hm =>
    have hb : s.txView.Busy := by
      rcases hm with hm | ⟨hm | hm, h1⟩
      · exact (hbusy _ hm).mpr trivial
      · exact (hbusy _ hm).mpr (by show s.tx.wordsPending ≠ 0; omega)
      · exact (hbusy _ hm).mpr trivial
    refine drains_last h hb (hlast hb hw) ?_ (follows_go ht (fun hn => absurd rfl hn) _)
      (mode_go_ne_call _ t)
    unfold TxView.Ends
    rw [show s.txView.mode = s.mode from rfl]
    rcases hm with hm | ⟨hm | hm, -⟩ <;> rw [hm]
    · exact ⟨rfl, ht⟩
    · exact ⟨rfl, ht⟩
    · exact Or.inr ⟨rfl, ht⟩
  | orderwireDone hm hw =>
    have hw1 : s.tx.wordsPending = 1 := by
      have hne : s.tx.wordsPending ≠ 0 := fun hw' => hw0 ⟨hm, hw'⟩
      omega
    refine drains_listen h ((hbusy _ hm).mpr (by show s.tx.wordsPending ≠ 0; omega)) hw1 ?_ rfl rfl
    unfold TxView.Ends
    rw [show s.txView.mode = _ from hm]
    exact ⟨rfl, rfl⟩
  | opens hm hw =>
    have hb : s.txView.Busy := by
      rcases hm with hm | hm
      · exact (hbusy _ hm).mpr trivial
      · exact (hbusy _ hm).mpr trivial
    refine drains_listen h hb (hlast hb hw) ?_ rfl rfl
    unfold TxView.Ends
    rw [show s.txView.mode = s.mode from rfl]
    rcases hm with hm | hm <;> rw [hm]
    · exact ⟨rfl, rfl⟩
    · exact Or.inl ⟨rfl, rfl⟩
  | broadcastDone hm hw => exact drains_broadcast hm (Or.inr ⟨rfl, rfl⟩)

theorem counted_congr {s' : SM} (hs : s'.seqs = s.seqs)
    (ht : s'.targetScanChannels = s.targetScanChannels) (h : s.Counted v) : s'.Counted v := by
  unfold Counted slotsDue slots tlcSlots at h ⊢
  rw [hs, ht]
  exact h

/-- A calling frame stays counted, unless a setter changes its length. -/
theorem exec_counted {op : Op} (hf : s.Counted s.txView)
    (hset : ∀ n, op = .set (.targetScanChannels n) →
      Counted { s with targetScanChannels := n } s.txView) : (s.exec op).Counted s.txView := by
  by_cases hc : s.currentState = .calling
  · obtain ⟨hs, ht | ⟨n, hn, ht⟩⟩ := exec_frame hc op
    · exact counted_congr hs ht hf
    · exact counted_congr (s := { s with targetScanChannels := n }) hs ht (hset n hn)
  · exact counted_of_mode fun _ hp => hc (calling_of_mode hp)

end Step

end SM

/-! ## The run -/

namespace Sender

/-- The invariant of an orderly run. -/
structure Sound (x : Sender) : Prop where
  outside : x.sm.control.Outside
  follows : Follows x.sm.txView x.fifo x.burst
  counted : x.sm.Counted x.sm.txView

theorem sound_init : init.Sound where
  outside := SM.outside_init
  follows := ⟨fun h => h.elim, fun _ _ => rfl, fun h => h.elim, fun _ _ => rfl⟩
  counted := trivial

variable {x : Sender} {op : Op}

/-- A step without a completed word that keeps the queue. -/
theorem sound_keeps {v : TxView} {sig : List Signal} (h : x.Sound) (hop : op ≠ .onWordComplete)
    (hv : (x.sm.step op).txView = v) (hs : signals (x.sm.step op).out = sig)
    (hk : x.sm.Keeps v x.fifo x.burst x.bursts sig) (hc : (x.sm.step op).Counted v) :
    x.Conserves op ∧ (x.step op).Sound := by
  subst hv hs
  refine ⟨fun _ => ?_, ?_⟩
  · rw [beq_false_of_ne hop]
    exact iff_of_false hk.ends fun hh => hop hh.1
  · unfold step
    rw [if_neg fun hh => hop hh.1, if_neg hop]
    exact ⟨SM.outside_step h.outside op, hk.follows, hc⟩

theorem held_counted (hp : SM.prepares op = false) {v : TxView} (hv : x.sm.Counted v) :
    (x.sm.step op).Counted v := by
  have hh := SM.exec_held x.sm.clearOut hp
  exact SM.counted_congr hh.seqs hh.targetScanChannels hv

theorem sound_update {now : UInt32} {env : Env} (h : x.Sound) (hd : x.Orderly (.update now env)) :
    x.Conserves (.update now env) ∧ (x.step (.update now env)).Sound := by
  obtain ⟨s, fifo, n, b⟩ := x
  by_cases hc : 0x80000000 ≤ now - s.currentTimeMs
  · have hs : s.step (.update now env) = s.clearOut := if_pos hc
    have hout : signals (s.step (.update now env)).out = [] := by
      rw [hs]
      rfl
    refine sound_keeps h (by simp) (v := s.txView) (by rw [hs]; rfl) hout
      (SM.keeps_stay h.follows h.counted) (by rw [hs]; exact h.counted)
  have hs : s.step (.update now env) = (s.clearOut.clocked now).tick env := if_neg hc
  have hwin : s.deadlinePassed now =
      (!(s.clocked now).checkLinkTimeout && (s.clocked now).drainExpired) := by
    unfold SM.deadlinePassed
    rw [decide_eq_true hc]
    rfl
  obtain ⟨hq, hlost⟩ := hd (UInt32.not_le.mp hc)
  have hticks : (s.clearOut.clocked now).Ticks env ((s.clearOut.clocked now).tick env) :=
    SM.tick_moves h.outside
  obtain ⟨v, sig, hy, hm⟩ := hticks
  have hk : (s.clearOut.clocked now).Keeps v fifo b n sig := SM.tick_keeps h.follows h.counted hq
    (fun hb hdr hl => hlost (by
      unfold SM.allcallLost
      rw [hwin, show (s.clocked now).checkLinkTimeout = false from hl,
        show (s.clocked now).drainExpired = true from hdr,
        show s.allcallBroadcasting = true from hb]
      rfl)) hm
  have hout : signals (s.step (.update now env)).out = sig := by
    rw [hs, hy.out]
    rfl
  exact sound_keeps h (by simp) (by rw [hs]; exact hy.view) hout
    ⟨hk.ends, hk.follows, hk.counted⟩ (held_counted (x := ⟨s, fifo, n, b⟩) rfl hk.counted)

theorem sound_done (h : x.Sound) (hd : x.Orderly .onWordComplete) :
    x.Conserves .onWordComplete ∧ (x.step .onWordComplete).Sound := by
  obtain ⟨s, fifo, n, b⟩ := x
  by_cases hf : fifo = []
  · refine ⟨fun hh => absurd ⟨rfl, hf⟩ hh, ?_⟩
    unfold step
    rw [if_pos ⟨rfl, hf⟩]
    exact h
  obtain ⟨v, sig, hy, hm⟩ := SM.done_moves (s := s.clearOut) h.outside
  have hv : (s.step .onWordComplete).txView = v := hy.view
  have hs : sends (signals (s.step .onWordComplete).out) = 0 := by
    rw [show signals (s.step .onWordComplete).out = sig from hy.out]
    exact hm.quiet
  have hk := SM.done_drains (s := s.clearOut) h.follows h.counted hd hm
  subst hv
  refine ⟨fun _ => hk.ends.trans ⟨fun ⟨m, h1, h2, h3⟩ => ⟨rfl, m, h1, h2, h3⟩,
    fun ⟨_, m, h1, h2, h3⟩ => ⟨m, h1, h2, h3⟩⟩, ?_⟩
  unfold step
  rw [if_neg fun hh => hf hh.2, if_pos rfl]
  dsimp only
  rw [hs, List.replicate_zero, List.append_nil]
  refine ⟨SM.outside_step h.outside _, ?_, held_counted (x := ⟨s, fifo, n, b⟩) rfl hk.counted⟩
  exact hk.follows

theorem sound_other (h : x.Sound) (hd : x.Orderly op) (hop : SM.timed op = false) :
    x.Conserves op ∧ (x.step op).Sound := by
  obtain ⟨s, fifo, n, b⟩ := x
  have hne : op ≠ .onWordComplete := by
    rintro rfl
    exact Bool.noConfusion hop
  obtain ⟨v, sig, hy, hm⟩ := SM.exec_others (s := s.clearOut) h.outside hop
  have hv : (s.step op).txView = v := hy.view
  have hk : s.clearOut.Keeps v fifo b n sig := SM.other_keeps h.follows h.counted
    (by rintro rfl; exact hd) hm
  have hout : signals (s.step op).out = sig := hy.out
  refine sound_keeps h hne hv hout ⟨hk.ends, hk.follows, hk.counted⟩ ?_
  rcases hm.view with hcall | rfl
  · exact SM.counted_of_mode hcall
  · refine SM.exec_counted (s := s.clearOut) h.counted fun m hm => ?_
    obtain rfl := hm
    exact hd

theorem sound_step (h : x.Sound) (hd : x.Orderly op) : x.Conserves op ∧ (x.step op).Sound := by
  by_cases hop : SM.timed op = false
  · exact sound_other h hd hop
  · cases op with
    | update now env => exact sound_update h hd
    | onWordComplete => exact sound_done h hd
    | _ => exact absurd rfl hop

/-- **Word counts are conserved.** In a run whose steps are all orderly a burst ends, for the
machine, exactly on the completion of its own last word. -/
theorem conserves (as : List Op) (h : Machine.AllSteps step Orderly init as) :
    Machine.AllSteps step Conserves init as := by
  have hstates : Machine.AllStates step Sound init as :=
    Machine.allStates_of_inv (fun _ _ hs hd => (sound_step hs hd).2) sound_init h
  have hboth := Machine.allSteps_iff.mp h
  refine Machine.allSteps_iff.mpr fun pre op post hp => ?_
  exact (sound_step (Machine.allStates_iff.mp hstates pre (op :: post) hp)
    (hboth pre op post hp)).1

/-- A call that is answered, an orderwire on the link and its termination. -/
def linksAndTerminates : List Op :=
  [.set (.selfAddress ['A', 'B', 'C']), .initiateCall ['D', 'E', 'F'], .update 784 {},
    .update 1829 {}, .onWordComplete, .onWordComplete, .onWordComplete, .onWordComplete,
    .onWordComplete, .processReceivedWord (encodeFirst ['A', 'B', 'C'] .to),
    .processReceivedWord (encodeFirst ['D', 'E', 'F'] .tis), .update 2700 {}, .update 2700 {},
    .onWordComplete, .onWordComplete, .onWordComplete,
    .triggerLinkedOrderwire [encodeFirst ['D', 'E', 'F'] .to, encodeFirst ['A', 'B', 'C'] .tis] 500,
    .update 3200 {}, .onWordComplete, .onWordComplete, .onWordComplete, .terminateLink,
    .onWordComplete, .onWordComplete, .onWordComplete]

theorem conserves_linksAndTerminates :
    Machine.AllSteps step Conserves init linksAndTerminates :=
  conserves linksAndTerminates (by decide +kernel)

/-- **The words of an aborted sounding end the next one early.** -/
theorem conserves_fail : ¬ ∀ as : List Op, Machine.AllSteps step Conserves init as := by
  intro h
  have hs := h [.set (.selfAddress ['A', 'B', 'C']), .sendSounding, .update 784 {},
    .emergencyManualControl, .sendSounding, .update 1568 {}, .onWordComplete, .onWordComplete,
    .onWordComplete]
  obtain ⟨-, _, -, hf, -⟩ := (hs.2.2.2.2.2.2.2.2.1 (by decide +kernel)).mp (by decide +kernel)
  have hl : List.length _ = 1 := congrArg List.length hf
  exact absurd hl (by decide +kernel)

end Sender

end OpenALE
