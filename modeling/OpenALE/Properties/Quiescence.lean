import OpenALE.Control.Linked

/-!
# Quiescence on a link

With no orderwire on the air and no termination running, a link has no words of its own pending;
and with no orderwire queued either, its linked-AMD exchange does not wait for a burst of its own.
So the next burst ends on its own last word.

Results:
* `quiet_iff`: so it is along a run exactly when no step of it abandons an orderwire burst or hands
  one over at clock reading 0.
* `quiet_fail`: the drain watchdog abandons a burst and leaves its words counted.
-/

namespace OpenALE

namespace LinkView

/-- The linked-AMD exchange waits for a burst of its own. -/
def AwaitsBurst (v : LinkView) : Prop :=
  (v.phase = .listening ∧ v.listenStart = 0 ∧ v.retryPending = false) ∨
    v.phase = .responding ∨ v.phase = .sendingAck

/-- An orderwire is on the air or a termination is running. -/
def Busy (v : LinkView) : Prop := v.transmitting = true ∨ v.terminating = true

/-- **Quiescence.** -/
structure Quiet (v : LinkView) : Prop where
  wordsPending : ¬ v.Busy → v.wordsPending = 0
  phase : ¬ v.Busy → v.pending = false → ¬ v.AwaitsBurst

/-- Quiescence, and what an armed watchdog says. -/
structure Settled (v : LinkView) : Prop extends Quiet v where
  idleDrain : ¬ v.Busy → v.drainStart = 0
  burstDrain : v.transmitting = true → v.terminating = false → v.drainStart ≠ 0 →
    v.wordsPending ≠ 0

/-- The completion that ends a linked-AMD burst hands it over at clock reading 0, which the listen
window takes for "not started". -/
def HandsOverAtZero (now : UInt32) (v : LinkView) : Prop :=
  v.terminating = false ∧ v.transmitting = true ∧ v.wordsPending ≤ 1 ∧ v.phase = .listening ∧
    v.pending = false ∧ v.retryPending = false ∧ now = 0

instance (now : UInt32) (v : LinkView) : Decidable (v.HandsOverAtZero now) := by
  unfold HandsOverAtZero
  infer_instance

section Moves

variable {v v' : LinkView} {now : UInt32} {lost allcallLost : Prop}

theorem not_busy_iff : ¬ v.Busy ↔ v.transmitting = false ∧ v.terminating = false := by
  unfold Busy
  simp

theorem settled_fresh (p : Peers) (o : Orderwire) : (fresh p o).Settled where
  wordsPending _ := rfl
  phase _ _ h := by simp [AwaitsBurst, fresh] at h
  idleDrain _ := rfl
  burstDrain _ _ h := absurd rfl h

theorem Settled.tick (h : v.Settled) (hl : ¬ lost) (ht : v.Tick now lost allcallLost v') :
    v'.Settled := by
  cases ht with
  | stay => exact h
  | start n _ _ _ hn =>
    refine ⟨⟨fun hb => absurd (Or.inl rfl) hb, fun hb => absurd (Or.inl rfl) hb⟩,
      fun hb => absurd (Or.inl rfl) hb, fun _ _ _ => ?_⟩
    show v.wordsPending + n ≠ 0
    omega
  | retry ws _ _ =>
    exact ⟨⟨h.wordsPending, fun _ hp => absurd hp (by simp [queue])⟩, h.idleDrain, h.burstDrain⟩
  | again _ hp _ =>
    refine ⟨⟨h.wordsPending, fun hb _ ha => ?_⟩, h.idleDrain, h.burstDrain⟩
    rcases ha with ⟨-, -, hr⟩ | ha
    · exact absurd hr (by simp)
    · exact h.phase hb hp (Or.inr ha)
  | giveUp _ _ =>
    exact ⟨⟨h.wordsPending, fun _ _ ha => by simp [AwaitsBurst] at ha⟩, h.idleDrain, h.burstDrain⟩
  | ack ws _ _ =>
    exact ⟨⟨h.wordsPending, fun _ hp => absurd hp (by simp [queue])⟩, h.idleDrain, h.burstDrain⟩
  | heardAck _ _ =>
    exact ⟨⟨h.wordsPending, fun _ _ ha => by simp [AwaitsBurst] at ha⟩, h.idleDrain, h.burstDrain⟩
  | abandon hl' _ _ => exact absurd hl' hl
  | allcall _ => exact ⟨⟨fun _ => rfl, h.phase⟩, fun _ => rfl, fun _ _ hd => absurd rfl hd⟩

/-- The completion that ends an orderwire burst. -/
theorem complete_last {allcall : Bool} (ht : v.terminating = false) (hx : v.transmitting = true)
    (hw : v.wordsPending - 1 = 0) : v.complete now allcall =
      handOff now { v with wordsPending := 0, transmitting := false, drainStart := 0 } := by
  unfold LinkView.complete
  rw [if_neg (by rw [ht]; decide), if_pos hx, if_pos hw]

/-- The hand-off changes phase and listen start only. -/
theorem handOff_eq (now : UInt32) (v : LinkView) :
    ∃ p l, handOff now v = { v with phase := p, listenStart := l } := by
  unfold handOff
  split
  · exact ⟨v.phase, now, rfl⟩
  · exact ⟨.waitAck, v.listenStart, rfl⟩
  · exact ⟨.none, v.listenStart, rfl⟩
  · exact ⟨v.phase, v.listenStart, rfl⟩

/-- After a hand-off the exchange waits for a burst only where the clock read 0. -/
theorem awaitsBurst_handOff (now : UInt32) (v : LinkView) :
    (handOff now v).AwaitsBurst ↔ v.phase = .listening ∧ now = 0 ∧ v.retryPending = false := by
  unfold handOff AwaitsBurst
  cases hp : v.phase <;> simp [hp]

theorem Settled.complete {allcall : Bool} (h : v.Settled) (hz : ¬ v.HandsOverAtZero now) :
    (v.complete now allcall).Settled := by
  by_cases ht : v.terminating = true
  · have he : v.complete now allcall = { v with wordsPending := v.wordsPending - 1 } := by
      unfold LinkView.complete
      rw [if_pos ht]
    rw [he]
    exact ⟨⟨fun hb => absurd (Or.inr ht) hb, fun hb => absurd (Or.inr ht) hb⟩,
      fun hb => absurd (Or.inr ht) hb, fun _ hn => absurd (ht.symm.trans hn) (by decide)⟩
  have ht' : v.terminating = false := by simpa using ht
  by_cases hx : v.transmitting = true
  · by_cases hw : v.wordsPending - 1 = 0
    · rw [complete_last ht' hx hw]
      have ha := awaitsBurst_handOff now
        { v with wordsPending := 0, transmitting := false, drainStart := 0 }
      obtain ⟨p, l, he⟩ := handOff_eq now
        { v with wordsPending := 0, transmitting := false, drainStart := 0 }
      rw [he] at ha ⊢
      refine ⟨⟨fun _ => rfl, fun _ hp hb => ?_⟩, fun _ => rfl, fun hx => absurd hx (by simp)⟩
      obtain ⟨h1, h2, h3⟩ := ha.mp hb
      exact hz ⟨ht', hx, by omega, h1, hp, h3, h2⟩
    · have he : v.complete now allcall = { v with wordsPending := v.wordsPending - 1 } := by
        unfold LinkView.complete
        rw [if_neg ht, if_pos hx, if_neg hw]
      rw [he]
      exact ⟨⟨fun hb => absurd (Or.inl hx) hb, fun hb => absurd (Or.inl hx) hb⟩,
        fun hb => absurd (Or.inl hx) hb, fun _ _ _ => hw⟩
  · have hb : ¬ v.Busy := fun hb => hb.elim hx ht
    unfold LinkView.complete
    rw [if_neg ht, if_neg hx]
    split
    · refine ⟨⟨fun _ => ?_, fun _ => h.phase hb⟩, fun _ => ?_, fun hx' => absurd hx' hx⟩
      · show v.wordsPending - 1 = 0
        rw [h.wordsPending hb]
      · dsimp only
        split
        · rfl
        · exact h.idleDrain hb
    · exact h

end Moves

end LinkView

namespace SM

/-! ## Along a run -/

/-- In `LINKED` the view is quiet. -/
def Quiet (s : SM) : Prop := s.currentState = .linked → s.linkView.Quiet

/-- The step neither abandons an orderwire burst nor hands one over at clock reading 0. -/
def QuietStep (s : SM) (op : Op) : Prop :=
  s.currentState = .linked →
    match op with
    | .update now _ => s.burstLost now = false
    | .onWordComplete => ¬ s.linkView.HandsOverAtZero s.currentTimeMs
    | _ => True

/-- The invariant behind `Quiet`. -/
structure SettledLink (s : SM) : Prop where
  outside : s.control.Outside
  settled : s.currentState = .linked → s.linkView.Settled

theorem settledLink_init : init.SettledLink := ⟨outside_init, fun h => absurd h (by decide)⟩

section Step

variable {s : SM} {op : Op}

theorem settled_step (hc : s.currentState = .linked) (ho : s.control.Outside)
    (h : s.linkView.Settled) (hq : s.QuietStep op) (ht : (s.step op).currentState = .linked) :
    (s.step op).linkView.Settled := by
  have hm : s.clearOut.Moves op (s.step op).linkView :=
    exec_moves (s := s.clearOut) hc (preLink_ne_linked ho) op ht
  have hq' := hq hc
  generalize (s.step op).linkView = v at hm ⊢
  cases hm with
  | tick now env _ ht =>
    have hl : s.clearOut.burstLost now = false := hq'
    exact h.tick (by rw [hl]; decide) ht
  | complete => exact h.complete hq'
  | terminate =>
    exact ⟨⟨fun hb => absurd (Or.inr rfl) hb, fun hb => absurd (Or.inr rfl) hb⟩,
      fun hb => absurd (Or.inr rfl) hb, fun _ hn => absurd hn (by simp)⟩
  | trigger ws d _ =>
    exact ⟨⟨h.wordsPending, fun _ hp => absurd hp (by simp [LinkView.queue])⟩, h.idleDrain,
      h.burstDrain⟩
  | send ws p n _ =>
    exact ⟨⟨h.wordsPending, fun _ hp => absurd hp (by simp [LinkView.queue])⟩, h.idleDrain,
      h.burstDrain⟩
  | respond a ws _ _ =>
    exact ⟨⟨h.wordsPending, fun _ hp => absurd hp (by simp [LinkView.queue])⟩, h.idleDrain,
      h.burstDrain⟩
  | stay _ _ => exact h

theorem settledLink_step (h : s.SettledLink) (hq : s.QuietStep op) : (s.step op).SettledLink := by
  refine ⟨outside_step h.outside op, fun ht => ?_⟩
  by_cases hc : s.currentState = .linked
  · exact settled_step hc h.outside (h.settled hc) hq ht
  · rw [show (s.step op).linkView = _ from exec_fresh (s := s.clearOut) hc ht]
    exact LinkView.settled_fresh _ _

/-- A step that is not quiet shows at once. -/
theorem not_quiet_step (h : s.SettledLink) (hq : ¬ s.QuietStep op) : ¬ (s.step op).Quiet := by
  unfold QuietStep at hq
  obtain ⟨hc, hq⟩ := Classical.not_imp.mp hq
  have hs := h.settled hc
  intro hquiet
  cases op with
  | update now env =>
    have hb : s.burstLost now = true := by simpa using hq
    have hl : s.clearOut.burstLost now = true := hb
    obtain ⟨hst, hv⟩ := update_burstLost (s := s.clearOut) env hc hl
    have hn := (hquiet hst).wordsPending
    rw [show (s.step (.update now env)).linkView = _ from hv] at hn
    unfold burstLost deadlinePassed at hl
    simp only [Bool.and_eq_true, Bool.not_eq_true', decide_eq_true_eq] at hl
    obtain ⟨⟨⟨⟨⟨-, -⟩, hd⟩, -⟩, hx⟩, ht⟩ := hl
    have hd0 : s.tx.txDrainStartMs ≠ 0 := by
      intro h0
      unfold drainExpired at hd
      rw [show (s.clearOut.clocked now).tx.txDrainStartMs = 0 from h0] at hd
      exact absurd hd (by simp)
    refine hs.burstDrain hx ht hd0 (hn ?_)
    rw [LinkView.not_busy_iff]
    exact ⟨rfl, ht⟩
  | onWordComplete =>
    have hz : s.linkView.HandsOverAtZero s.currentTimeMs := not_not.mp hq
    obtain ⟨ht, hx, hw, hp, hpend, hr, hnow⟩ := hz
    have hst : (s.step .onWordComplete).currentState = .linked := by
      have hg := step_control s .onWordComplete
      have htr : s.trigger .onWordComplete = .none := by
        show s.completeTrigger = _
        unfold completeTrigger
        rw [if_neg (fun hh => absurd (ht.symm.trans hh.2) (by decide)), if_pos ⟨hc, hx⟩]
      rw [htr] at hg
      exact (congrArg Control.state hg).trans hc
    have hv : (s.step .onWordComplete).linkView =
        s.linkView.complete s.currentTimeMs s.allcallBroadcasting :=
      onWordComplete_linkView (s := s.clearOut) hc (preLink_ne_linked h.outside) hst
    have hn := (hquiet hst).phase
    rw [hv, LinkView.complete_last ht hx (by omega)] at hn
    have ha := LinkView.awaitsBurst_handOff s.currentTimeMs
      { s.linkView with wordsPending := 0, transmitting := false, drainStart := 0 }
    obtain ⟨p, l, he⟩ := LinkView.handOff_eq s.currentTimeMs
      { s.linkView with wordsPending := 0, transmitting := false, drainStart := 0 }
    rw [he] at hn ha
    refine hn ?_ hpend (ha.mpr ⟨hp, hnow, hr⟩)
    rw [LinkView.not_busy_iff]
    exact ⟨rfl, ht⟩
  | _ => exact hq trivial

/-! ## The next burst -/

/-- The operation neither adds a termination to the burst nor finds its deadline expired. -/
def OnBurst (s : SM) (op : Op) : Prop :=
  s.currentState = .linked ∧ op ≠ .terminateLink ∧
    ∀ now env, op = .update now env → s.burstLost now = false ∧ s.allcallLost now = false

/-- The completions among the operations. -/
def completions (as : List Op) : Nat := as.count .onWordComplete

/-- A burst of `n` words that the step starts on an idle link is still under way after fewer than
`n` completions, and the `n`-th ends it: the orderwire is off the air, or the link is over. -/
def EndsOnLastWord (s : SM) (op : Op) : Prop :=
  s.currentState = .linked → ¬ s.linkView.Busy →
    (s.step op).currentState = .linked → (s.step op).linkView.Busy →
    ∀ bs : List Op, Machine.AllSteps step OnBurst (s.step op) bs →
      let n := (transmitted (s.step op).out).length
      let t := Machine.run step (s.step op) bs
      completions bs < n → t.currentState = .linked →
        t.linkView.Busy ∧ (completions bs + 1 = n →
          ¬ ((t.step .onWordComplete).currentState = .linked ∧
            (t.step .onWordComplete).linkView.Busy))

/-- A tick on a link where nothing is on the air starts the queued orderwire, if it starts any. -/
theorem tick_starts {v v' : LinkView} {now : UInt32} {lost allcallLost : Prop}
    (h : v.Tick now lost allcallLost v') (hb : ¬ v.Busy) (hb' : v'.Busy) : v.pending = true := by
  cases h with
  | start n _ _ hp _ => exact hp
  | abandon _ ht hx => exact absurd (Or.inl hx) hb
  | _ => exact absurd hb' hb

/-- The burst that starts on an idle link is all that is pending. -/
theorem burst_size (hc : s.currentState = .linked) (ho : s.control.Outside)
    (h : s.linkView.Settled) (hb : ¬ s.linkView.Busy) (ht : (s.step op).currentState = .linked)
    (hb' : (s.step op).linkView.Busy) :
    (s.step op).linkView.wordsPending = (transmitted (s.step op).out).length := by
  have hpre := preLink_ne_linked ho
  have hm : s.clearOut.Moves op (s.step op).linkView := exec_moves (s := s.clearOut) hc hpre op ht
  have hw : s.tx.wordsPending = 0 := h.wordsPending hb
  generalize hv : (s.step op).linkView = v at hm hb' ⊢
  cases hm with
  | tick now env _ htick =>
    obtain ⟨hx, hterm⟩ := LinkView.not_busy_iff.mp hb
    have hf : ¬ 0x80000000 ≤ now - s.currentTimeMs := by
      intro hf
      have hu : s.step (.update now env) = s.clearOut := if_pos hf
      rw [← hv, hu] at hb'
      exact hb hb'
    obtain ⟨a, ha⟩ := update_startOrderwire (s := s.clearOut) env hc hpre hterm hx
      (tick_starts htick hb hb') (h.idleDrain hb) hf ht
    have hs : s.step (.update now env) = _ := ha
    rw [← hv, hs, startOrderwire_linkView, startOrderwire_out]
    show s.tx.wordsPending + _ = (transmitted ([] ++ (.rxEnabled false :: _))).length
    rw [hw, Nat.zero_add, List.nil_append]
    show _ = (transmitted (List.map _ _)).length
    rw [transmitted_map, List.length_map]
  | complete =>
    exfalso
    have he : s.clearOut.linkView = s.linkView := rfl
    obtain ⟨hx, hterm⟩ := LinkView.not_busy_iff.mp hb
    unfold LinkView.complete at hb'
    rw [he, if_neg (by rw [hterm]; decide), if_neg (by rw [hx]; decide)] at hb'
    split at hb' <;> exact hb hb'
  | terminate =>
    have hs : s.step .terminateLink = _ := terminateLink_eq (s := s.clearOut) hc
    rw [hs]
    show s.tx.wordsPending + _ = (transmitted (([] ++ List.map _ _) ++ [_])).length
    rw [hw, Nat.zero_add, List.nil_append, transmitted_append, transmitted_map, List.length_append,
      List.length_map]
    rfl
  | trigger _ _ _ => exact absurd hb' hb
  | send _ _ _ _ => exact absurd hb' hb
  | respond _ _ _ _ => exact absurd hb' hb
  | stay _ _ => exact absurd hb' hb

/-- A burst under way stays so until its last word. -/
theorem busy_step (ho : s.control.Outside) (hb : s.linkView.Busy) (hop : s.OnBurst op)
    (hw : op = .onWordComplete → 2 ≤ s.tx.wordsPending)
    (ht : (s.step op).currentState = .linked) :
    (s.step op).linkView.Busy ∧
      (s.step op).tx.wordsPending + completions [op] = s.tx.wordsPending := by
  obtain ⟨hc, hnt, hnl⟩ := hop
  have hm : s.clearOut.Moves op (s.step op).linkView :=
    exec_moves (s := s.clearOut) hc (preLink_ne_linked ho) op ht
  show _ ∧ (s.step op).linkView.wordsPending + _ = _
  generalize (s.step op).linkView = v at hm ⊢
  cases hm with
  | tick now env _ htick =>
    obtain ⟨hl, ha⟩ := hnl now env rfl
    have hl' : s.clearOut.burstLost now = false := hl
    have ha' : s.clearOut.allcallLost now = false := ha
    cases htick with
    | start n ht' hx _ _ =>
      exact absurd hb (LinkView.not_busy_iff.mpr ⟨hx, ht'⟩)
    | abandon h _ _ => exact absurd (hl'.symm.trans h) (by decide)
    | allcall h => exact absurd (ha'.symm.trans h) (by decide)
    | _ => exact ⟨hb, rfl⟩
  | complete =>
    have h2 := hw rfl
    have he : s.clearOut.linkView.complete s.clearOut.currentTimeMs s.clearOut.allcallBroadcasting =
        { s.linkView with wordsPending := s.tx.wordsPending - 1 } := by
      show s.linkView.complete _ _ = _
      unfold LinkView.complete
      by_cases ht' : s.linkView.terminating = true
      · rw [if_pos ht']
        rfl
      · rw [if_neg ht', if_pos (hb.resolve_right ht'),
          if_neg (by show ¬ s.tx.wordsPending - 1 = 0; omega)]
        rfl
    rw [he]
    refine ⟨hb, ?_⟩
    show s.tx.wordsPending - 1 + 1 = s.tx.wordsPending
    omega
  | terminate => exact absurd rfl hnt
  | trigger _ _ _ => exact ⟨hb, rfl⟩
  | send _ _ _ _ => exact ⟨hb, rfl⟩
  | respond _ _ _ _ => exact ⟨hb, rfl⟩
  | stay _ hl =>
    refine ⟨hb, ?_⟩
    have hne : op ≠ .onWordComplete := by
      rintro rfl
      exact absurd hl (by simp [leavesView])
    have h0 : completions [op] = 0 := by
      unfold completions
      rw [List.count_eq_zero]
      simpa using hne.symm
    rw [h0]
    rfl

theorem busy_run (ho : s.control.Outside) (hb : s.linkView.Busy) :
    ∀ {bs : List Op}, Machine.AllSteps step OnBurst s bs → completions bs < s.tx.wordsPending →
      (Machine.run step s bs).currentState = .linked →
      (Machine.run step s bs).linkView.Busy ∧ (Machine.run step s bs).control.Outside ∧
        (Machine.run step s bs).tx.wordsPending + completions bs = s.tx.wordsPending := by
  intro bs
  induction bs generalizing s with
  | nil => exact fun _ _ _ => ⟨hb, ho, rfl⟩
  | cons op bs ih =>
    intro hs hn hl
    have hcount : completions (op :: bs) = completions [op] + completions bs := by
      unfold completions
      rw [← List.count_append]
      rfl
    rw [hcount] at hn ⊢
    have hlinked : (s.step op).currentState = .linked := by
      cases bs with
      | nil => exact hl
      | cons _ _ => exact hs.2.1.1
    obtain ⟨hb', hw'⟩ := busy_step ho hb hs.1 (by
      rintro rfl
      have h1 : completions [.onWordComplete] = 1 := rfl
      rw [h1] at hn
      have : completions bs < s.tx.wordsPending - 1 := by omega
      omega) hlinked
    obtain ⟨h1, h2, h3⟩ := ih (outside_step ho op) hb' hs.2 (by omega) hl
    exact ⟨h1, h2, by rw [Machine.run_cons]; omega⟩

/-- The completion of the last word ends the burst. -/
theorem busy_last (hc : s.currentState = .linked) (ho : s.control.Outside)
    (hb : s.linkView.Busy) (hw : s.tx.wordsPending = 1) :
    ¬ ((s.step .onWordComplete).currentState = .linked ∧
      (s.step .onWordComplete).linkView.Busy) := by
  rintro ⟨ht, hb'⟩
  have hpre := preLink_ne_linked ho
  by_cases hterm : s.link.linkedTerminating = true
  · have hg := step_control s .onWordComplete
    have htr : s.trigger .onWordComplete = .event .linkTerminated := by
      show s.completeTrigger = _
      unfold completeTrigger
      rw [if_pos ⟨hc, hterm⟩, raiseIf_pos (by rw [hw])]
    rw [htr] at hg
    unfold Control.fire Control.event at hg
    rw [show s.control.state = .linked from hc] at hg
    have hst := congrArg Control.state hg
    dsimp only at hst
    rw [Control.goTo_state] at hst
    exact hpre (hst.symm.trans ht)
  · have hterm' : s.link.linkedTerminating = false := by simpa using hterm
    have ht' : s.linkView.terminating = false := hterm'
    have hx : s.linkView.transmitting = true := hb.resolve_right hterm
    have hv : (s.step .onWordComplete).linkView =
        s.linkView.complete s.currentTimeMs s.allcallBroadcasting :=
      onWordComplete_linkView (s := s.clearOut) hc hpre ht
    rw [hv, LinkView.complete_last ht' hx (by show s.tx.wordsPending - 1 = 0; omega)] at hb'
    obtain ⟨p, l, he⟩ := LinkView.handOff_eq s.currentTimeMs
      { s.linkView with wordsPending := 0, transmitting := false, drainStart := 0 }
    rw [he] at hb'
    refine absurd hb' ?_
    rw [LinkView.not_busy_iff]
    exact ⟨rfl, ht'⟩

theorem endsOnLastWord (h : s.SettledLink) (op : Op) : s.EndsOnLastWord op := by
  intro hc hb ht hb' bs hs n t hn hl
  have ho := outside_step h.outside op
  have hsize : (s.step op).tx.wordsPending = n :=
    burst_size hc h.outside (h.settled hc) hb ht hb'
  obtain ⟨h1, h2, h3⟩ := busy_run ho hb' hs (by rw [hsize]; exact hn) hl
  refine ⟨h1, fun hk => busy_last hl h2 h1 ?_⟩
  have hk' : completions bs + 1 = (s.step op).tx.wordsPending := hk.trans hsize.symm
  show (Machine.run step (s.step op) bs).tx.wordsPending = 1
  omega

end Step

/-- **A link is quiet between its bursts, and each burst ends on its own last word, in exactly the
runs that abandon no orderwire burst and hand none over at clock reading 0.** -/
theorem quiet_iff (as : List Op) :
    (Machine.AllStates step Quiet init as ∧ Machine.AllSteps step EndsOnLastWord init as) ↔
      Machine.AllSteps step QuietStep init as := by
  have key : Machine.AllStates step Quiet init as ↔ Machine.AllSteps step QuietStep init as :=
    Machine.allStates_iff_allSteps (fun _ _ h hq => settledLink_step h hq)
      (fun _ h hc => (h.settled hc).toQuiet) (fun _ _ h hq => not_quiet_step h hq) settledLink_init
  refine ⟨fun h => key.mp h.1, fun h => ⟨key.mpr h, ?_⟩⟩
  exact (Machine.allStates_of_inv (fun _ _ hs hq => settledLink_step hs hq) settledLink_init
    h).allSteps fun _ op hs => endsOnLastWord hs op

/-- **A drain watchdog leaves the words of its burst counted.** -/
theorem quiet_fail : ¬ ∀ as : List Op, Machine.AllStates step Quiet init as ∧
    Machine.AllSteps step EndsOnLastWord init as := by
  intro h
  have hq := (h [.processEvent .callDetected, .processEvent .handshakeComplete,
    .triggerLinkedOrderwire [] false, .update 1 {}, .update 10001 {}]).1.last
  have hw := (hq (by decide)).wordsPending (by rw [LinkView.not_busy_iff]; decide)
  exact absurd hw (by decide)

end SM

end OpenALE
