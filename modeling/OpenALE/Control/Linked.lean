import OpenALE.Control.Held

/-!
# `LINKED`: bursts and orderwire exchanges

`LinkView` is the part of the machine that a burst or an orderwire exchange in `LINKED` lives in,
and the peer of the link.
As long as the machine stays in `LINKED`, each operation acts on it as one of a few moves; nothing
else of the machine matters but the clock, a broadcast flag and which timers have run out.

Results:
* `exec_moves`: an operation that stays in `LINKED` is one of the moves `SM.Moves` of the view.
* `update_startOrderwire`: a tick that keeps the link starts the orderwire that is queued.
* `update_burstLost`: the watchdog of an orderwire burst leaves its words counted.
* `outside_step`: a link always goes back to a state that calls are made or taken in.
* `exec_fresh`: a link starts with the orderwire the last one left behind and nothing else.
* `leaves_ow`: the end of a link leaves the orderwire as it is.
-/

namespace OpenALE

/-- The addresses that tell whom a link is with. -/
structure Peers where
  activeCallTo : Str
  toAddress : Str
  callerAddress : Str

/-- The burst, the orderwire exchange and the peer of a link. -/
structure LinkView where
  peers : Peers
  terminating : Bool
  pending : Bool
  words : List ALEWord
  double : Bool
  transmitting : Bool
  phase : LinkedAmdPhase
  listenStart : UInt32
  retryPending : Bool
  wordsPending : Nat
  drainStart : UInt32

namespace LinkView

/-- The view of a link with `p` that has just come up over the orderwire `o`. -/
def fresh (p : Peers) (o : Orderwire) : LinkView :=
  { peers := p
    terminating := false
    pending := o.orderwirePending
    words := o.pendingOrderwireWords
    double := o.orderwireDoubleBurst
    transmitting := o.orderwireTransmitting
    phase := .none
    listenStart := 0
    retryPending := false
    wordsPending := 0
    drainStart := 0 }

/-- The hand-off once an orderwire burst has drained at time `now`. -/
def handOff (now : UInt32) (v : LinkView) : LinkView :=
  match v.phase with
  | .listening => { v with listenStart := now }
  | .responding => { v with phase := .waitAck }
  | .sendingAck => { v with phase := .none }
  | _ => v

/-- `on_word_complete`, unless it ends the link; `allcall` is `allcall_broadcasting_`. -/
def complete (now : UInt32) (allcall : Bool) (v : LinkView) : LinkView :=
  if v.terminating then { v with wordsPending := v.wordsPending - 1 }
  else if v.transmitting then
    if v.wordsPending - 1 = 0 then
      handOff now { v with wordsPending := 0, transmitting := false, drainStart := 0 }
    else { v with wordsPending := v.wordsPending - 1 }
  else if allcall then
    { v with
      wordsPending := v.wordsPending - 1
      drainStart := if v.wordsPending - 1 = 0 then 0 else v.drainStart }
  else v

/-- An orderwire request: the words queued and whether the burst is doubled. -/
def queue (v : LinkView) (words : List ALEWord) (double : Bool) : LinkView :=
  { v with pending := true, words := words, double := double }

/-- One clock tick that does not end the link; `lost` and `allcallLost` are the expiry of the drain
deadline of an orderwire burst and of whatever drains while the AllCall flag is set. -/
inductive Tick (now : UInt32) (lost allcallLost : Prop) (v : LinkView) : LinkView → Prop where
  | stay : Tick now lost allcallLost v v
  | start (n : Nat) (ht : v.terminating = false) (hx : v.transmitting = false)
      (hp : v.pending = true) (hn : 0 < n) :
      Tick now lost allcallLost v { v with
        pending := false, transmitting := true, wordsPending := v.wordsPending + n
        drainStart := now }
  | retry (ws : List ALEWord) (hx : v.transmitting = false) (hr : v.retryPending = true) :
      Tick now lost allcallLost v { (v.queue ws false) with retryPending := false }
  | again (hx : v.transmitting = false) (hp : v.pending = false) (hl : v.listenStart ≠ 0) :
      Tick now lost allcallLost v { v with listenStart := 0, retryPending := true }
  | giveUp (hx : v.transmitting = false) (hl : v.listenStart ≠ 0) :
      Tick now lost allcallLost v { v with phase := .none, listenStart := 0 }
  | ack (ws : List ALEWord) (hx : v.transmitting = false) (hl : v.listenStart ≠ 0) :
      Tick now lost allcallLost v { (v.queue ws false) with phase := .sendingAck, listenStart := 0 }
  | heardAck (hx : v.transmitting = false) (hp : v.phase = .waitAck) :
      Tick now lost allcallLost v { v with phase := .none }
  | abandon (hl : lost) (ht : v.terminating = false) (hx : v.transmitting = true) :
      Tick now lost allcallLost v { v with transmitting := false, drainStart := 0 }
  | allcall (hl : allcallLost) : Tick now lost allcallLost v { v with wordsPending := 0, drainStart := 0 }

end LinkView

/-- A link goes back to a state that calls are made or taken in, and a sounding to another state
than itself. -/
structure Control.Outside (c : Control) : Prop where
  preLink : c.preLink = .idle ∨ c.preLink = .scanning ∨ c.preLink = .sounding
  sounding : c.state = .sounding → c.previous ≠ .sounding

namespace SM

/-- The addresses the users of a link read. -/
def peers (s : SM) : Peers :=
  { activeCallTo := s.link.activeCallTo
    toAddress := s.calling.toAddress
    callerAddress := s.hs.callerAddress }

/-- The burst, the orderwire exchange and the peer of the machine. -/
def linkView (s : SM) : LinkView :=
  { peers := s.peers
    terminating := s.link.linkedTerminating
    pending := s.ow.orderwirePending
    words := s.ow.pendingOrderwireWords
    double := s.ow.orderwireDoubleBurst
    transmitting := s.ow.orderwireTransmitting
    phase := s.amd.linkedAmdPhase
    listenStart := s.amd.linkedAmdListenStartMs
    retryPending := s.amd.linkedAmdRetryPending
    wordsPending := s.tx.wordsPending
    drainStart := s.tx.txDrainStartMs }

/-- The clock set to `now`. -/
def clocked (s : SM) (now : UInt32) : SM := { s with currentTimeMs := now }

/-- The tick to `now` finds a drain deadline expired. -/
def deadlinePassed (s : SM) (now : UInt32) : Bool :=
  decide (¬ 0x80000000 ≤ now - s.currentTimeMs) && !(s.clocked now).checkLinkTimeout &&
    (s.clocked now).drainExpired

/-- The tick to `now` finds the drain deadline of an orderwire burst expired. -/
def burstLost (s : SM) (now : UInt32) : Bool :=
  s.deadlinePassed now && !s.allcallBroadcasting && s.ow.orderwireTransmitting &&
    !s.link.linkedTerminating

/-- The tick to `now` takes an expired drain deadline for the one of an AllCall broadcast. -/
def allcallLost (s : SM) (now : UInt32) : Bool := s.deadlinePassed now && s.allcallBroadcasting

/-! ## Transitions out of `LINKED` -/

/-- An event taken in `LINKED` is ignored or leaves it. -/
theorem processEvent_stays {p : SM} (hc : p.currentState = .linked) {e : ALEEvent}
    (h : (p.processEvent e).1.currentState = .linked) : (p.processEvent e).1 = p := by
  have hback : ∀ t, (p.transitionTo t).1.currentState = .linked → (p.transitionTo t).1 = p := by
    intro t ht
    have hs : (p.transitionTo t).1.currentState = t := by
      have := congrArg Control.state (transitionTo_control p t)
      rwa [Control.goTo_state] at this
    rw [transitionTo_self (hc.trans (ht.symm.trans hs))]
  unfold processEvent at h ⊢
  rw [hc] at h ⊢
  cases e <;> first | rfl | exact hback _ h

/-- `LINK_TIMEOUT` and `LINK_TERMINATED` leave `LINKED` for the state before the call. -/
theorem linkTimeout_leaves {p : SM} (hc : p.currentState = .linked)
    (hp : p.preLinkState ≠ .linked) : p.linkTimeout.currentState ≠ .linked := by
  have h := congrArg Control.state (processEvent_control p .linkTimeout)
  unfold Control.event at h
  rw [show p.control.state = .linked from hc] at h
  dsimp only at h
  rw [Control.goTo_state] at h
  exact fun hl => hp (h.symm.trans hl)

theorem linkTerminated_leaves {p : SM} (hc : p.currentState = .linked)
    (hp : p.preLinkState ≠ .linked) : p.linkTerminated.currentState ≠ .linked := by
  have h := congrArg Control.state (processEvent_control p .linkTerminated)
  unfold Control.event at h
  rw [show p.control.state = .linked from hc] at h
  dsimp only at h
  rw [Control.goTo_state] at h
  exact fun hl => hp (h.symm.trans hl)

/-! ## The clock -/

section Clock

variable {s : SM} {lost allcallLost : Prop}

theorem armDrain_linkView (s : SM) (d : UInt32) (hw : 0 < s.tx.wordsPending) :
    (s.armDrain d).linkView = { s.linkView with drainStart := s.currentTimeMs } := by
  unfold armDrain
  rw [if_pos hw]
  rfl

theorem length_orderwireBurst_pos (s : SM) : 0 < s.orderwireBurst.length := by
  have := length_conclusion_pos s.selfAddress false
  unfold orderwireBurst
  dsimp only
  split <;> rw [List.length_append] <;> (try rw [List.length_append]) <;> omega

theorem startOrderwire_linkView (s : SM) : s.startOrderwire.linkView =
    { s.linkView with
      pending := false, transmitting := true
      wordsPending := s.tx.wordsPending + s.orderwireBurst.length
      drainStart := s.currentTimeMs } := by
  have hn := length_orderwireBurst_pos s
  unfold startOrderwire
  dsimp only
  rw [transmitWords_eq, armDrain_linkView _ _ (by show 0 < s.tx.wordsPending + _; omega)]
  rfl

theorem linkedAmdRetryOrFail_tick (hx : s.ow.orderwireTransmitting = false)
    (hp : s.ow.orderwirePending = false) (hl : s.amd.linkedAmdListenStartMs ≠ 0) :
    s.linkView.Tick s.currentTimeMs lost allcallLost s.linkedAmdRetryOrFail.linkView := by
  unfold linkedAmdRetryOrFail
  split
  · exact .again hx hp hl
  · exact .giveUp hx hl

theorem handleLinkedAmdListening_tick (hx : s.ow.orderwireTransmitting = false)
    (hp : s.ow.orderwirePending = false) (hl : s.amd.linkedAmdListenStartMs ≠ 0) :
    s.linkView.Tick s.currentTimeMs lost allcallLost s.handleLinkedAmdListening.linkView := by
  unfold handleLinkedAmdListening
  split
  · split
    · exact linkedAmdRetryOrFail_tick hx hp hl
    · exact .stay
  · split
    · split
      · exact linkedAmdRetryOrFail_tick hx hp hl
      · exact .stay
    · split
      · exact .ack _ hx hl
      · exact .stay

theorem handleLinkedAmdWaitAck_tick (hx : s.ow.orderwireTransmitting = false)
    (hp : s.amd.linkedAmdPhase = .waitAck) :
    s.linkView.Tick s.currentTimeMs lost allcallLost s.handleLinkedAmdWaitAck.linkView := by
  unfold handleLinkedAmdWaitAck
  split
  · split
    · exact .heardAck hx hp
    · exact .stay
  · split
    · split
      · exact .heardAck hx hp
      · exact .stay
    · split
      · exact .heardAck hx hp
      · exact .stay

theorem handleLinkedAmdRetry_tick (hx : s.ow.orderwireTransmitting = false)
    (hr : s.amd.linkedAmdRetryPending = true) :
    s.linkView.Tick s.currentTimeMs lost allcallLost s.handleLinkedAmdRetry.linkView := by
  unfold handleLinkedAmdRetry
  split
  · exact .retry _ hx hr
  · exact .stay

/-- The `Twa` check leaves `LINKED` or changes nothing the view shows. -/
theorem twaTimeout_stays (hc : s.currentState = .linked) (hpre : s.preLinkState ≠ .linked)
    (h : s.twaTimeout.currentState = .linked) : s.twaTimeout.linkView = s.linkView := by
  unfold twaTimeout at h ⊢
  split at h
  · exfalso
    dsimp only at h
    split at h
    · rw [transmitWords_eq] at h
      exact linkTimeout_leaves (by exact hc) (by exact hpre) h
    · exact linkTimeout_leaves (by exact hc) (by exact hpre) h
  · rename_i hn
    rw [if_neg hn]

theorem handleLinkedActive_tick (hc : s.currentState = .linked) (hpre : s.preLinkState ≠ .linked)
    (ht : s.link.linkedTerminating = false) (h : s.handleLinkedActive.currentState = .linked) :
    s.linkView.Tick s.currentTimeMs lost allcallLost s.handleLinkedActive.linkView := by
  unfold handleLinkedActive at h ⊢
  by_cases h1 : s.ow.orderwireTransmitting = true
  · rw [if_pos h1]
    exact .stay
  rw [if_neg h1] at h ⊢
  have hx : s.ow.orderwireTransmitting = false := by simpa using h1
  by_cases h2 : s.ow.orderwirePending = true
  · rw [if_pos h2, startOrderwire_linkView]
    exact .start _ ht hx h2 (length_orderwireBurst_pos s)
  rw [if_neg h2] at h ⊢
  have hp : s.ow.orderwirePending = false := by simpa using h2
  by_cases h3 : s.amd.linkedAmdRetryPending = true
  · rw [if_pos h3]
    exact handleLinkedAmdRetry_tick hx h3
  rw [if_neg h3] at h ⊢
  by_cases h4 : s.amd.linkedAmdPhase = .listening ∧ s.amd.linkedAmdListenStartMs ≠ 0
  · rw [if_pos h4]
    exact handleLinkedAmdListening_tick hx hp h4.2
  rw [if_neg h4] at h ⊢
  by_cases h5 : s.amd.linkedAmdPhase = .waitAck
  · rw [if_pos h5]
    exact handleLinkedAmdWaitAck_tick hx h5
  rw [if_neg h5] at h ⊢
  obtain ⟨b, t, o, hw⟩ := idleWarning_eq s
  rw [hw] at h ⊢
  rw [twaTimeout_stays (by exact hc) (by exact hpre) h]
  exact .stay

theorem handleLinked_tick (hc : s.currentState = .linked) (hpre : s.preLinkState ≠ .linked)
    (hlost : s.ow.orderwireTransmitting = true → s.link.linkedTerminating = false →
      s.drainExpired = true → lost)
    (h : s.handleLinked.currentState = .linked) :
    s.linkView.Tick s.currentTimeMs lost allcallLost s.handleLinked.linkView := by
  unfold handleLinked at h ⊢
  by_cases h1 : ((s.link.linkedTerminating || s.ow.orderwireTransmitting) && s.drainExpired) = true
  · rw [if_pos h1] at h ⊢
    unfold linkedDrainTimeout at h ⊢
    by_cases ht : s.link.linkedTerminating = true
    · rw [if_pos ht] at h
      exact absurd h (linkTerminated_leaves (by exact hc) (by exact hpre))
    · rw [if_neg ht]
      have ht' : s.link.linkedTerminating = false := by simpa using ht
      have hx : s.ow.orderwireTransmitting = true ∧ s.drainExpired = true := by
        simpa [ht'] using h1
      exact .abandon (hlost hx.1 ht' hx.2) ht' hx.1
  rw [if_neg h1] at h ⊢
  by_cases h2 : s.link.linkedTerminating = true
  · rw [if_pos h2]
    exact .stay
  rw [if_neg h2] at h ⊢
  have ht : s.link.linkedTerminating = false := by simpa using h2
  by_cases h3 : s.twasSettled = true
  · rw [if_pos h3] at h ⊢
    dsimp only at h ⊢
    by_cases h4 : s.link.linkedTwasAddr = s.link.activeCallTo
    · rw [if_pos h4] at h
      exact absurd h (linkTerminated_leaves (by exact hc) (by exact hpre))
    · rw [if_neg h4] at h ⊢
      exact handleLinkedActive_tick (s := { s with link := { s.link with linkedTwasAddr := [] } })
        hc hpre ht h
  · rw [if_neg h3] at h ⊢
    exact handleLinkedActive_tick hc hpre ht h

/-- A clock tick is a move of the view, unless it ends the link. -/
theorem update_tick {now : UInt32} {env : Env} (hc : s.currentState = .linked)
    (hpre : s.preLinkState ≠ .linked) (h : (s.update now env).currentState = .linked) :
    s.linkView.Tick now (s.burstLost now = true) (s.allcallLost now = true)
      (s.update now env).linkView := by
  unfold update at h ⊢
  by_cases hf : 0x80000000 ≤ now - s.currentTimeMs
  · rw [if_pos hf]
    exact .stay
  rw [if_neg hf] at h ⊢
  have hpassed : (s.clocked now).checkLinkTimeout = false → (s.clocked now).drainExpired = true →
      s.deadlinePassed now = true := by
    intro h1 h2
    unfold deadlinePassed
    rw [h1, h2, decide_eq_true hf]
    rfl
  show (s.clocked now).linkView.Tick (s.clocked now).currentTimeMs _ _ (tick (s.clocked now) env).linkView
  change (tick (s.clocked now) env).currentState = .linked at h
  unfold tick at h ⊢
  by_cases h1 : (s.clocked now).checkLinkTimeout = true
  · rw [if_pos h1] at h
    exact absurd h (linkTimeout_leaves (by exact hc) (by exact hpre))
  rw [if_neg h1] at h ⊢
  have h1' : (s.clocked now).checkLinkTimeout = false := by simpa using h1
  by_cases h2 : ((s.clocked now).allcallBroadcasting && (s.clocked now).drainExpired) = true
  · rw [if_pos h2]
    have h2' := Bool.and_eq_true_iff.mp h2
    refine .allcall ?_
    unfold allcallLost
    rw [hpassed h1' h2'.2]
    exact h2'.1
  rw [if_neg h2] at h ⊢
  have hh : (s.clocked now).handle env = (s.clocked now).handleLinked := by
    unfold handle
    rw [show (s.clocked now).currentState = .linked from hc]
  rw [hh] at h ⊢
  refine handleLinked_tick hc hpre (fun hx ht hd => ?_) h
  have ha : s.allcallBroadcasting = false := by
    have : (s.clocked now).allcallBroadcasting = s.allcallBroadcasting := rfl
    rw [hd, Bool.and_true, this] at h2
    simpa using h2
  unfold burstLost
  rw [hpassed h1' hd, ha, show s.ow.orderwireTransmitting = true from hx,
    show s.link.linkedTerminating = false from ht]
  rfl

theorem startOrderwire_out (s : SM) : s.startOrderwire.out = s.out ++ (.rxEnabled false ::
    s.orderwireBurst.map (fun w => .transmit (w.stamp s.currentTimeMs))) := by
  have ha : ∀ (u : SM) (t : UInt32), (u.armDrain t).out = u.out := by
    intro u t
    unfold armDrain
    split <;> rfl
  unfold startOrderwire
  dsimp only
  rw [ha, transmitWords_eq]
  show s.out ++ [_] ++ _ = _
  rw [List.append_assoc]
  rfl

theorem handleLinked_startOrderwire (hc : s.currentState = .linked)
    (hpre : s.preLinkState ≠ .linked) (ht : s.link.linkedTerminating = false)
    (hx : s.ow.orderwireTransmitting = false) (hp : s.ow.orderwirePending = true)
    (hd : s.drainExpired = false) (hs : s.handleLinked.currentState = .linked) :
    ∃ a, s.handleLinked = startOrderwire { s with link := { s.link with linkedTwasAddr := a } } := by
  have hx' : ¬ s.ow.orderwireTransmitting = true := by rw [hx]; decide
  have ha : ∀ p : SM, p.ow = s.ow → p.handleLinkedActive = p.startOrderwire := by
    intro p hpo
    unfold handleLinkedActive
    rw [hpo, if_neg hx', if_pos hp]
  unfold handleLinked at hs ⊢
  rw [if_neg (by rw [hd, Bool.and_false]; decide), if_neg (by rw [ht]; decide)] at hs ⊢
  by_cases h3 : s.twasSettled = true
  · rw [if_pos h3] at hs ⊢
    dsimp only at hs ⊢
    by_cases h4 : s.link.linkedTwasAddr = s.link.activeCallTo
    · rw [if_pos h4] at hs
      exact absurd hs (linkTerminated_leaves (by exact hc) (by exact hpre))
    · rw [if_neg h4]
      exact ⟨[], ha _ rfl⟩
  · rw [if_neg h3]
    exact ⟨s.link.linkedTwasAddr, ha s rfl⟩

/-- **A tick that keeps the link starts the orderwire that is queued.** -/
theorem update_startOrderwire {now : UInt32} (env : Env) (hc : s.currentState = .linked)
    (hpre : s.preLinkState ≠ .linked) (ht : s.link.linkedTerminating = false)
    (hx : s.ow.orderwireTransmitting = false) (hp : s.ow.orderwirePending = true)
    (hd : s.tx.txDrainStartMs = 0) (hf : ¬ 0x80000000 ≤ now - s.currentTimeMs)
    (hs : (s.update now env).currentState = .linked) :
    ∃ a, s.update now env =
      startOrderwire { s.clocked now with link := { s.link with linkedTwasAddr := a } } := by
  unfold update at hs ⊢
  rw [if_neg hf] at hs ⊢
  change (tick (s.clocked now) env).currentState = .linked at hs
  show ∃ a, tick (s.clocked now) env = _
  have hd' : (s.clocked now).drainExpired = false := by
    unfold drainExpired
    rw [show (s.clocked now).tx.txDrainStartMs = 0 from hd]
    rfl
  unfold tick at hs ⊢
  by_cases h1 : (s.clocked now).checkLinkTimeout = true
  · rw [if_pos h1] at hs
    exact absurd hs (linkTimeout_leaves (by exact hc) (by exact hpre))
  rw [if_neg h1, if_neg (by rw [hd', Bool.and_false]; decide)] at hs ⊢
  have hh : (s.clocked now).handle env = (s.clocked now).handleLinked := by
    unfold handle
    rw [show (s.clocked now).currentState = .linked from hc]
  rw [hh] at hs ⊢
  exact handleLinked_startOrderwire (s := s.clocked now) hc hpre ht hx hp hd' hs

/-- The watchdog of an orderwire burst drops the flag and leaves its words counted. -/
theorem update_burstLost {now : UInt32} (env : Env) (hc : s.currentState = .linked)
    (hl : s.burstLost now = true) :
    (s.update now env).currentState = .linked ∧ (s.update now env).linkView =
      { s.linkView with transmitting := false, drainStart := 0 } := by
  unfold burstLost deadlinePassed at hl
  simp only [Bool.and_eq_true, Bool.not_eq_true', decide_eq_true_eq] at hl
  obtain ⟨⟨⟨⟨⟨hf, h1⟩, hd⟩, ha⟩, hx⟩, ht⟩ := hl
  have hu : s.update now env = (s.clocked now).linkedDrainTimeout := by
    unfold update
    rw [if_neg hf]
    show tick (s.clocked now) env = _
    unfold tick
    rw [if_neg (by rw [h1]; decide),
      if_neg (by rw [show (s.clocked now).allcallBroadcasting = false from ha]; simp)]
    unfold handle
    rw [show (s.clocked now).currentState = .linked from hc]
    dsimp only
    unfold handleLinked
    rw [if_pos (by
      rw [show (s.clocked now).ow.orderwireTransmitting = true from hx, hd, Bool.or_true]; rfl)]
  rw [hu]
  unfold linkedDrainTimeout
  rw [if_neg (by rw [show (s.clocked now).link.linkedTerminating = false from ht]; decide)]
  exact ⟨hc, rfl⟩

end Clock

/-! ## The moves of the view -/

/-- The words an operation asks to be sent on the link, and whether the burst is doubled. -/
def request : Op → Option (List ALEWord × Bool)
  | .triggerLinkedOrderwire ws d => some (ws, d)
  | .sendLinkedAmd ws _ _ => some (ws, false)
  | .respondToLinkedAmd a ws => if a = [] then none else some (leadingCall a ++ ws, false)
  | _ => none

/-- The operation is no clock tick and no completion, starts no termination and requests nothing
that is accepted. -/
def leavesView (s : SM) : Op → Bool
  | .update _ _ | .onWordComplete | .terminateLink => false
  | op => s.link.linkedTerminating || (request op).isNone

/-- What an operation that stays in `LINKED` does to the view. -/
inductive Moves (s : SM) : Op → LinkView → Prop where
  | tick (now : UInt32) (env : Env) (v : LinkView)
      (h : s.linkView.Tick now (s.burstLost now = true) (s.allcallLost now = true) v) :
      Moves s (.update now env) v
  | complete : Moves s .onWordComplete (s.linkView.complete s.currentTimeMs s.allcallBroadcasting)
  | terminate : Moves s .terminateLink { s.linkView with
      terminating := true
      wordsPending := s.tx.wordsPending + (termination s.link.activeCallTo s.selfAddress).length
      drainStart := s.currentTimeMs }
  | trigger (ws : List ALEWord) (d : Bool) (ht : s.link.linkedTerminating = false) :
      Moves s (.triggerLinkedOrderwire ws d) (s.linkView.queue ws d)
  | send (ws : List ALEWord) (p : Str) (n : Nat) (ht : s.link.linkedTerminating = false) :
      Moves s (.sendLinkedAmd ws p n)
        { (s.linkView.queue ws false) with phase := .listening, listenStart := 0 }
  | respond (a : Str) (ws : List ALEWord) (ha : a ≠ []) (ht : s.link.linkedTerminating = false) :
      Moves s (.respondToLinkedAmd a ws)
        { (s.linkView.queue (leadingCall a ++ ws) false) with phase := .responding }
  | stay (op : Op) (h : s.leavesView op = true) : Moves s op s.linkView

section Moves

variable {s : SM}

theorem amdHandOff_linkView (s : SM) :
    s.amdHandOff.linkView = s.linkView.handOff s.currentTimeMs := by
  have hp : s.linkView.phase = s.amd.linkedAmdPhase := rfl
  unfold amdHandOff LinkView.handOff
  split
  · rename_i h
    simp only [hp, h]
    rw [← h]
    rfl
  · rename_i h
    simp only [hp, h]
    rfl
  · rename_i h
    simp only [hp, h]
    rfl
  · split <;> first | rfl | (rename_i h; exact absurd (hp.symm.trans h) (by assumption))

theorem onWordComplete_linkView (hc : s.currentState = .linked) (hpre : s.preLinkState ≠ .linked)
    (h : s.onWordComplete.currentState = .linked) :
    s.onWordComplete.linkView = s.linkView.complete s.currentTimeMs s.allcallBroadcasting := by
  unfold onWordComplete at h ⊢
  unfold LinkView.complete
  by_cases h1 : s.link.linkedTerminating = true
  · rw [if_pos ⟨hc, h1⟩] at h ⊢
    rw [if_pos (by exact h1)]
    unfold completeTermination at h ⊢
    dsimp only at h ⊢
    split at h
    · exact absurd h (linkTerminated_leaves (by exact hc) (by exact hpre))
    · rw [if_neg (by assumption)]
      rfl
  rw [if_neg (fun hh => h1 hh.2)] at h ⊢
  rw [if_neg (show ¬ s.linkView.terminating = true from h1)]
  by_cases h2 : s.ow.orderwireTransmitting = true
  · rw [if_pos ⟨hc, h2⟩]
    rw [if_pos (show s.linkView.transmitting = true from h2)]
    unfold completeOrderwire
    dsimp only
    by_cases hw : s.tx.wordsPending - 1 = 0
    · rw [if_pos (show s.popWord.tx.wordsPending = 0 from hw),
        if_pos (show s.linkView.wordsPending - 1 = 0 from hw), amdHandOff_linkView]
      show LinkView.handOff _ { s.linkView with
        wordsPending := s.tx.wordsPending - 1, transmitting := false, drainStart := 0 } = _
      rw [hw]
      rfl
    · rw [if_neg (show ¬ s.popWord.tx.wordsPending = 0 from hw),
        if_neg (show ¬ s.linkView.wordsPending - 1 = 0 from hw)]
      rfl
  rw [if_neg (fun hh => h2 hh.2), if_neg (by rw [hc]; decide)]
  rw [if_neg (show ¬ s.linkView.transmitting = true from h2)]
  by_cases h3 : s.allcallBroadcasting = true
  · rw [if_pos h3, if_pos h3]
    unfold completeAllcall
    dsimp only
    by_cases hw : s.tx.wordsPending - 1 = 0
    · rw [if_pos (show s.popWord.tx.wordsPending = 0 from hw),
        if_pos (show s.linkView.wordsPending - 1 = 0 from hw)]
      rfl
    · rw [if_neg (show ¬ s.popWord.tx.wordsPending = 0 from hw),
        if_neg (show ¬ s.linkView.wordsPending - 1 = 0 from hw)]
      rfl
  · rw [if_neg h3, if_neg h3, if_neg (by rw [hc]; decide),
      if_neg (fun hh => absurd (hc.symm.trans hh.1) (by decide))]

theorem reactLinkedAmdConfirm_linkView (s : SM) (r : WordRole) :
    (s.reactLinkedAmdConfirm r).linkView = s.linkView := by
  unfold reactLinkedAmdConfirm
  split <;> (try split) <;> rfl

/-- A received word touches neither burst nor exchange. -/
theorem processReceivedWord_linkView (hc : s.currentState = .linked) (w : ALEWord) :
    (s.processReceivedWord w).linkView = s.linkView := by
  unfold processReceivedWord
  split
  · unfold onInvalidWord
    rw [hc]
  · dsimp only
    obtain ⟨o, ho⟩ := updateLqa_eq { s with
      hs := { s.hs with contiguousErrors := 0 }, lastWordTimeMs := s.currentTimeMs }
      (wordQuality { s with
        hs := { s.hs with contiguousErrors := 0 }, lastWordTimeMs := s.currentTimeMs } w)
    rw [ho]
    unfold react
    dsimp only
    rw [hc]
    dsimp only
    unfold reactLinked
    split
    · split <;> rfl
    · split
      · split <;> rfl
      · exact reactLinkedAmdConfirm_linkView _ _
    · exact reactLinkedAmdConfirm_linkView _ _

theorem orderwireOpen_of_linked (hc : s.currentState = .linked) :
    s.orderwireOpen = !s.link.linkedTerminating := by
  unfold orderwireOpen
  rw [hc]
  rfl

theorem request_moves (hc : s.currentState = .linked) {op : Op} (hr : (request op).isSome) :
    s.Moves op (s.exec op).linkView := by
  have ho := orderwireOpen_of_linked hc
  cases ht : s.link.linkedTerminating with
  | true =>
    have hv : s.leavesView op = true := by
      cases op <;> first
        | (unfold leavesView; rw [ht]; rfl)
        | exact absurd hr Bool.false_ne_true
    have he : s.exec op = s := by
      cases op <;> first
        | exact absurd hr Bool.false_ne_true
        | (simp only [exec, triggerLinkedOrderwire, sendLinkedAmd, respondToLinkedAmd, ho, ht]; rfl)
    rw [he]
    exact .stay op hv
  | false =>
    have hn : ¬ ¬ s.orderwireOpen = true := by rw [ho, ht]; decide
    cases op with
    | triggerLinkedOrderwire ws d =>
      simp only [exec, triggerLinkedOrderwire, if_neg hn]
      exact .trigger ws d ht
    | sendLinkedAmd ws p n =>
      simp only [exec, sendLinkedAmd, if_neg hn]
      exact .send ws p n ht
    | respondToLinkedAmd a ws =>
      by_cases ha : a = []
      · rw [request, if_pos ha] at hr
        exact absurd hr Bool.false_ne_true
      · simp only [exec, respondToLinkedAmd, if_neg hn, if_neg ha]
        exact .respond a ws ha ht
    | _ => exact absurd hr Bool.false_ne_true

theorem set_linkView (s : SM) (x : Setting) : (s.set x).linkView = s.linkView := by
  cases x <;> first | rfl | (unfold set setSelfAddress; dsimp only; split <;> rfl)

/-- **An operation that stays in `LINKED` is a move of the view.** -/
theorem exec_moves (hc : s.currentState = .linked) (hpre : s.preLinkState ≠ .linked) (op : Op)
    (h : (s.exec op).currentState = .linked) : s.Moves op (s.exec op).linkView := by
  have hav : ¬ s.available = true := by rw [available_iff, hc]; decide
  have stay : ∀ {op : Op} {s' : SM}, s.leavesView op = true → s'.linkView = s.linkView →
      s.Moves op s'.linkView := by
    intro op s' hl hv
    rw [hv]
    exact .stay op hl
  have hnone : ∀ {op : Op}, request op = none → (s.link.linkedTerminating || (request op).isNone) = true := by
    intro op hn
    rw [hn, Option.isNone_none, Bool.or_true]
  cases op with
  | update now env => exact .tick now env _ (update_tick hc hpre h)
  | onWordComplete =>
    show s.Moves _ s.onWordComplete.linkView
    rw [onWordComplete_linkView hc hpre h]
    exact .complete
  | terminateLink =>
    show s.Moves _ s.terminateLink.linkView
    rw [terminateLink_eq hc]
    exact .terminate
  | triggerLinkedOrderwire ws d => exact request_moves hc rfl
  | sendLinkedAmd ws p n => exact request_moves hc rfl
  | respondToLinkedAmd a ws =>
    by_cases ha : a = []
    · refine stay (hnone (by rw [request, if_pos ha])) ?_
      show (s.respondToLinkedAmd a ws).linkView = _
      unfold respondToLinkedAmd
      rw [if_pos ha]
      split <;> rfl
    · exact request_moves hc (by rw [request, if_neg ha]; rfl)
  | processEvent e =>
    refine stay (hnone rfl) ?_
    show (s.processEvent e).1.linkView = _
    rw [processEvent_stays hc h]
  | processReceivedWord w => exact stay (hnone rfl) (processReceivedWord_linkView hc w)
  | initiateCall t =>
    refine stay (hnone rfl) ?_
    show (s.initiateCall t).1.linkView = _
    unfold initiateCall
    rw [if_pos hav]
  | initiateNetCall a =>
    refine stay (hnone rfl) ?_
    show (s.initiateNetCall a).1.linkView = _
    unfold initiateNetCall
    rw [if_pos hav]
  | initiateGroupCall ms =>
    refine stay (hnone rfl) ?_
    show (s.initiateGroupCall ms).1.linkView = _
    unfold initiateGroupCall
    rw [if_pos hav]
  | respondToCall =>
    refine stay (hnone rfl) ?_
    show s.respondToCall.1.linkView = _
    unfold respondToCall
    rw [if_pos (by rw [hc]; decide)]
  | sendSounding =>
    refine stay (hnone rfl) ?_
    show s.sendSounding.1.linkView = _
    unfold sendSounding
    rw [if_pos hav]
  | sendSoundingSweep chs =>
    refine stay (hnone rfl) ?_
    show (s.sendSoundingSweep chs).1.linkView = _
    unfold sendSoundingSweep
    rw [if_pos hav]
  | sendAllcallBroadcast a t l =>
    refine stay (hnone rfl) ?_
    show (s.sendAllcallBroadcast a t l).1.linkView = _
    unfold sendAllcallBroadcast
    rw [if_pos hav]
  | emergencyManualControl =>
    have hf := (emergencyManualControl_fires s).control
    have hi : s.emergencyManualControl.currentState = .idle := by
      have := congrArg Control.state hf
      exact this.trans (Control.goTo_state _ _)
    exact absurd (hi.symm.trans h) (by decide)
  | onLinkActivity =>
    refine stay (hnone rfl) ?_
    show s.onLinkActivity.linkView = _
    unfold onLinkActivity
    split <;> rfl
  | resetLinkIdleTimer =>
    refine stay (hnone rfl) ?_
    show s.resetLinkIdleTimer.linkView = _
    unfold resetLinkIdleTimer
    split <;> rfl
  | updateLinkQuality lq =>
    refine stay (hnone rfl) ?_
    obtain ⟨o, ho⟩ := updateLqa_eq s lq
    show (s.updateLqa lq).linkView = _
    rw [ho]
    rfl
  | beginScanPause t =>
    refine stay (hnone rfl) ?_
    show (s.beginScanPause t).linkView = _
    unfold beginScanPause
    split <;> rfl
  | extendPeerWaitWindow d => exact stay (hnone rfl) rfl
  | set x => exact stay (hnone rfl) (set_linkView s x)

theorem handOff_peers (now : UInt32) (v : LinkView) : (v.handOff now).peers = v.peers := by
  unfold LinkView.handOff
  split <;> rfl

theorem Moves.peers {s : SM} {op : Op} {v : LinkView} (h : s.Moves op v) : v.peers = s.peers := by
  cases h with
  | tick now env _ ht => cases ht <;> rfl
  | complete =>
    unfold LinkView.complete
    repeat' split
    all_goals first | rfl | exact handOff_peers _ _
  | _ => rfl

end Moves

/-! ## The state to go back to -/

theorem outside_fire {c : Control} (h : c.Outside) (sweep : Bool) (g : Trigger) :
    (c.fire sweep g).Outside := by
  obtain ⟨state, previous, preLink⟩ := c
  have goTo_outside : ∀ t : ALEState, ((t = .calling ∨ t = .handshake) →
      state = .idle ∨ state = .scanning ∨ state = .sounding) →
      (Control.goTo ⟨state, previous, preLink⟩ t).Outside := by
    intro t ht
    by_cases he : state = t
    · rw [Control.goTo_self he]
      exact h
    · rw [Control.goTo_of_ne he]
      refine ⟨?_, fun hs hp => he (hp.trans hs.symm)⟩
      dsimp only
      split
      · rename_i hcall
        exact ht hcall
      · exact h.preLink
  have back : (Control.goTo ⟨state, previous, preLink⟩ preLink).Outside := by
    refine goTo_outside _ (fun hb => ?_)
    have hp : preLink = .idle ∨ preLink = .scanning ∨ preLink = .sounding := h.preLink
    rcases hp with h | h | h <;> rw [h] at hb <;> simp at hb
  cases g with
  | none => exact h
  | emergency => exact goTo_outside _ (fun hb => by simp at hb)
  | event e =>
    unfold Control.fire Control.event
    cases state <;> cases e <;> dsimp only
    case sounding.soundingComplete =>
      split
      · exact h
      · exact goTo_outside _ (fun _ => Or.inr (Or.inr rfl))
    all_goals
      first
        | exact h
        | exact back
        | exact goTo_outside _ (fun hb => absurd hb (by decide))
        | exact goTo_outside _ (fun _ => Or.inl rfl)
        | exact goTo_outside _ (fun _ => Or.inr (Or.inl rfl))
        | exact goTo_outside _ (fun _ => Or.inr (Or.inr rfl))

theorem outside_step {s : SM} (h : s.control.Outside) (op : Op) : (s.step op).control.Outside := by
  rw [step_control]
  exact outside_fire h _ _

theorem outside_init : init.control.Outside := ⟨Or.inl rfl, fun h => ALEState.noConfusion h⟩

theorem preLink_ne_linked {s : SM} (h : s.control.Outside) : s.preLinkState ≠ .linked := by
  have h' : s.preLinkState = .idle ∨ s.preLinkState = .scanning ∨ s.preLinkState = .sounding :=
    h.preLink
  rcases h' with h | h | h <;> rw [h] <;> decide

/-! ## The way in and the way out -/

/-- An event moves by one transition, if it moves. -/
theorem processEvent_moves (p : SM) (e : ALEEvent) :
    (p.processEvent e).1.currentState = p.currentState ∨
      ∃ q t, (q = p ∨ q = p.dropSweep) ∧ (p.processEvent e).1 = (q.transitionTo t).1 := by
  have hs : p.soundingComplete.1.currentState = p.currentState ∨
      ∃ q t, (q = p ∨ q = p.dropSweep) ∧ p.soundingComplete.1 = (q.transitionTo t).1 := by
    unfold soundingComplete
    split
    · split
      · exact Or.inl rfl
      · exact Or.inr ⟨_, _, Or.inr rfl, rfl⟩
    · exact Or.inr ⟨_, _, Or.inl rfl, rfl⟩
  unfold processEvent
  cases hc : p.currentState <;> rw [hc] at hs <;> cases e <;>
    first
      | exact Or.inl hc
      | exact hs
      | exact Or.inr ⟨_, _, Or.inl rfl, rfl⟩
      | exact Or.inr ⟨_, _, Or.inr rfl, rfl⟩

theorem transitionTo_state (p : SM) (t : ALEState) : (p.transitionTo t).1.currentState = t := by
  have h := congrArg Control.state (transitionTo_control p t)
  rwa [Control.goTo_state] at h

/-- A trigger that changes the state is one transition over the same orderwire. -/
theorem Fires.transition {s s' : SM} {g : Trigger} (h : s.Fires g s')
    (hn : s'.currentState ≠ s.currentState) :
    ∃ q : SM, q.currentState = s.currentState ∧ q.ow = s.ow ∧
      s' = (q.transitionTo s'.currentState).1 := by
  match g, h with
  | .none, h => exact absurd (congrArg Control.state h) hn
  | .emergency, ⟨p, hc, ho, hp⟩ =>
    have hs : s'.currentState = .idle := by rw [hp, transitionTo_state]
    exact ⟨p, congrArg Control.state hc, ho, by rw [hs]; exact hp⟩
  | .event e, ⟨p, hc, ho, _, hp⟩ =>
    have hst : p.currentState = s.currentState := congrArg Control.state hc
    rcases processEvent_moves p e with hm | ⟨q, t, hq, hm⟩
    · rw [← hp, hst] at hm
      exact absurd hm hn
    · rw [← hp] at hm
      have hs : s'.currentState = t := by rw [hm, transitionTo_state]
      rw [hs]
      rcases hq with rfl | rfl
      · exact ⟨q, hst, ho, hm⟩
      · exact ⟨p.dropSweep, hst, ho, hm⟩

/-- **The end of a link leaves the orderwire as it is.** -/
theorem leaves_ow {s : SM} {op : Op} (hn : (s.exec op).currentState ≠ s.currentState) :
    (s.exec op).ow = s.ow := by
  obtain ⟨q, -, ho, hq⟩ := (exec_fires s op).transition hn
  rw [hq, (transitionTo_kept q _).ow, ho]

/-- **A link starts with the orderwire the last one left behind and nothing else.** -/
theorem exec_fresh {s : SM} {op : Op} (hn : s.currentState ≠ .linked)
    (ht : (s.exec op).currentState = .linked) :
    (s.exec op).linkView = LinkView.fresh (s.exec op).peers s.ow := by
  obtain ⟨q, hc, ho, hq⟩ := (exec_fires s op).transition (by rw [ht]; exact Ne.symm hn)
  rw [ht] at hq
  rw [hq, transitionTo_of_ne (by rw [hc]; exact hn), ← ho]
  rw [show q.ow = (q.leaveFor .linked).ow from (leaveFor_kept q _).ow.symm]
  rfl

/-- The step brings up a link. -/
def Enters (s : SM) (op : Op) : Prop :=
  s.currentState ≠ .linked ∧ (s.step op).currentState = .linked

/-- Every state of the run is in `LINKED`. -/
abbrev Stays (s : SM) (as : List Op) : Prop :=
  Machine.AllStates step (fun s => s.currentState = .linked) s as

end SM

end OpenALE
