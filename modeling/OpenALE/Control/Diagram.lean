import OpenALE.Control.Run

/-!
# The state diagram and what moves the machine through it

`Control` is the state diagram on its own: the current state and the two states the machine can
go back to. `trigger` reads off a state which event, if any, an operation is going to raise there.

Results:
* `processEvent_control`: an event moves the three state variables as it does in the diagram.
* `Fires.control`: so does an operation that comes down to its trigger.
-/

namespace OpenALE

/-! ## The diagram -/

/-- `current_state`, `previous_state`, `pre_link_state_`. -/
structure Control where
  state : ALEState
  previous : ALEState
  preLink : ALEState
  deriving Repr, DecidableEq

namespace Control

/-- `transition_to` on the diagram. -/
def goTo (c : Control) (t : ALEState) : Control :=
  if c.state = t then c
  else
    { state := t, previous := c.state
      preLink := if t = .calling ∨ t = .handshake then c.state else c.preLink }

theorem goTo_self {c : Control} {t : ALEState} (h : c.state = t) : c.goTo t = c := if_pos h

theorem goTo_of_ne {c : Control} {t : ALEState} (h : c.state ≠ t) : c.goTo t =
    { state := t, previous := c.state
      preLink := if t = .calling ∨ t = .handshake then c.state else c.preLink } := if_neg h

@[simp] theorem goTo_state (c : Control) (t : ALEState) : (c.goTo t).state = t := by
  by_cases h : c.state = t
  · rw [goTo_self h, h]
  · rw [goTo_of_ne h]

/-- `process_event` on the diagram; `sweep` tells that a sounding sweep has a channel left. -/
def event (c : Control) (sweep : Bool) (e : ALEEvent) : Control :=
  match c.state, e with
  | .idle, .startScan => c.goTo .scanning
  | .idle, .callRequest => c.goTo .calling
  | .idle, .callDetected => c.goTo .handshake
  | .idle, .soundingRequest => c.goTo .sounding
  | .scanning, .stopScan => c.goTo .idle
  | .scanning, .callDetected => c.goTo .handshake
  | .scanning, .callRequest => c.goTo .calling
  | .scanning, .soundingRequest => c.goTo .sounding
  | .calling, .handshakeComplete => c.goTo .linked
  | .calling, .linkTimeout => c.goTo c.preLink
  | .calling, .amdDeclinedLink => c.goTo c.preLink
  | .handshake, .handshakeComplete => c.goTo .linked
  | .handshake, .linkTimeout => c.goTo c.preLink
  | .handshake, .amdDeclinedLink => c.goTo c.preLink
  | .linked, .linkTerminated => c.goTo c.preLink
  | .linked, .linkTimeout => c.goTo c.preLink
  | .sounding, .soundingComplete => if sweep then c else c.goTo c.previous
  | .sounding, .callDetected => c.goTo .handshake
  | .error, .startScan => c.goTo .scanning
  | .error, _ => c.goTo .idle
  | _, .errorOccurred => c.goTo .error
  | _, _ => c

end Control

/-- What an operation raises: an event, or the emergency transition to `IDLE`. -/
inductive Trigger where
  | none
  | event (e : ALEEvent)
  | emergency
  deriving Repr, DecidableEq

/-- A trigger on the diagram. -/
def Control.fire (c : Control) (sweep : Bool) : Trigger → Control
  | .none => c
  | .event e => c.event sweep e
  | .emergency => c.goTo .idle

namespace SM

/-- The machine's place in the diagram. -/
def control (s : SM) : Control :=
  { state := s.currentState, previous := s.previousState, preLink := s.preLinkState }

/-- The sounding sweep is on and has a next channel. -/
def moreSweep (s : SM) : Bool :=
  s.snd.soundingSweepActive && decide (s.snd.soundingSweepIdx + 1 < s.snd.soundingSweepChs.length)

/-! ## Triggers -/

/-- The trigger of `process_event(e)` under a condition. -/
def raiseIf (c : Prop) [Decidable c] (e : ALEEvent) : Trigger := if c then .event e else .none

theorem raiseIf_pos {c : Prop} [Decidable c] (h : c) (e : ALEEvent) : raiseIf c e = .event e :=
  if_pos h

theorem raiseIf_neg {c : Prop} [Decidable c] (h : ¬ c) (e : ALEEvent) : raiseIf c e = .none :=
  if_neg h

theorem raiseIf_congr {c d : Prop} [Decidable c] [Decidable d] (h : c ↔ d) (e : ALEEvent) :
    raiseIf c e = raiseIf d e := by
  by_cases hd : d
  · rw [raiseIf_pos hd, raiseIf_pos (h.mpr hd)]
  · rw [raiseIf_neg hd, raiseIf_neg (fun hc => hd (h.mp hc))]

/-- `try_next_calling_channel`: the list is exhausted. -/
def retryTrigger (s : SM) : Trigger :=
  raiseIf (s.calling.callingChannels[s.calling.callingChannelIndex + 1]? = none) .linkTimeout

/-- `handle_calling`. -/
def callingTrigger (s : SM) (env : Env) : Trigger :=
  match s.calling.callingPhase with
  | .lbt => if s.lbtChannelBusy env then s.retryTrigger else .none
  | .listening =>
    if ¬ s.calling.responseToDetected then
      if listeningResponseWaitMs ≤ s.currentTimeMs - s.calling.listeningStartMs then s.retryTrigger
      else .none
    else if s.calling.tlwwStartMs = 0 then
      if 5 * trwMs ≤ s.currentTimeMs - s.lastWordTimeMs then s.retryTrigger else .none
    else .none
  | .sendingAck => raiseIf (0 < s.tx.wordsPending ∧ s.drainExpired) .linkTimeout
  | _ => .none

/-- `WAIT_CYCLE_END`. -/
def waitCycleEndTrigger (s : SM) : Trigger :=
  if ¬ s.hs.hsConclusionRcvd ∧ s.hs.twceMs ≤ s.currentTimeMs - s.lastWordTimeMs then
    .event .linkTimeout
  else if ¬ s.hs.hsConclusionRcvd ∧ 0 < s.hs.hsMessageStartMs ∧
      tmMaxMs ≤ s.currentTimeMs - s.hs.hsMessageStartMs then
    .event .linkTimeout
  else if s.hs.hsConclusionRcvd ∧ 0 < s.hs.hsTlwwStartMs ∧
      tdrwMs ≤ s.currentTimeMs - s.hs.hsTlwwStartMs then
    if s.hs.hsConclusionIsTwas then .event .linkTimeout
    else raiseIf s.hs.allcallSilent .handshakeComplete
  else .none

/-- `WAIT_ACK`. -/
def waitAckTrigger (s : SM) : Trigger :=
  if s.hs.hsAckToMs = 0 ∧ waitAckStartWaitMs ≤ s.currentTimeMs - s.hs.hsAckStartMs then
    .event .linkTimeout
  else if s.hs.hsAckToMs ≠ 0 ∧ ¬ s.hs.hsAckTisRcvd ∧
      5 * trwMs ≤ s.currentTimeMs - s.lastWordTimeMs then
    .event .linkTimeout
  else raiseIf (s.hs.hsAckTisRcvd ∧ 0 < s.hs.hsTlwwStartMs ∧
      tdrwMs ≤ s.currentTimeMs - s.hs.hsTlwwStartMs) .handshakeComplete

/-- `handle_handshake`. -/
def handshakeTrigger (s : SM) (env : Env) : Trigger :=
  match s.hs.handshakePhase with
  | .waitCycleEnd => s.waitCycleEndTrigger
  | .channelCheck => raiseIf (s.lbtChannelBusy env) .linkTimeout
  | .sendingResponse => raiseIf s.drainExpired .linkTimeout
  | .waitAck => s.waitAckTrigger
  | _ => .none

/-- `handle_linked` from the orderwire block on reaches the `Twa` check. -/
def linkedQuiet (s : SM) : Prop :=
  ¬ s.ow.orderwireTransmitting ∧ ¬ s.ow.orderwirePending ∧ ¬ s.amd.linkedAmdRetryPending ∧
    ¬ (s.amd.linkedAmdPhase = .listening ∧ s.amd.linkedAmdListenStartMs ≠ 0) ∧
    ¬ s.amd.linkedAmdPhase = .waitAck

instance (s : SM) : Decidable s.linkedQuiet := by unfold linkedQuiet; infer_instance

/-- The `Twa` timeout. -/
def twaTrigger (s : SM) : Trigger :=
  raiseIf (s.linkedQuiet ∧ s.timing.twa ≤ s.currentTimeMs - s.lastWordTimeMs) .linkTimeout

/-- `handle_linked`. -/
def linkedTrigger (s : SM) : Trigger :=
  if (s.link.linkedTerminating || s.ow.orderwireTransmitting) && s.drainExpired then
    raiseIf s.link.linkedTerminating .linkTerminated
  else if s.link.linkedTerminating then .none
  else if s.twasSettled ∧ s.link.linkedTwasAddr = s.link.activeCallTo then .event .linkTerminated
  else s.twaTrigger

/-- `handle_sounding`. -/
def soundingTrigger (s : SM) (env : Env) : Trigger :=
  match s.snd.soundingPhase with
  | .lbt =>
    if s.lbtChannelBusy env then .event .soundingComplete
    else raiseIf (s.effectiveTwtMs ≤ s.currentTimeMs - s.snd.soundingLbtStartMs ∧
      s.selfAddress = []) .soundingComplete
  | .transmitting => .none
  | .listening =>
    raiseIf (trwMs < s.currentTimeMs - s.snd.soundingListeningStartMs) .soundingComplete

/-- The per-state handler. -/
def handleTrigger (s : SM) (env : Env) : Trigger :=
  match s.currentState with
  | .calling => s.callingTrigger env
  | .handshake => s.handshakeTrigger env
  | .linked => s.linkedTrigger
  | .sounding => s.soundingTrigger env
  | _ => .none

/-- `update` after the clock has moved. -/
def tickTrigger (s : SM) (env : Env) : Trigger :=
  if s.checkLinkTimeout then .event .linkTimeout
  else if s.allcallBroadcasting && s.drainExpired then .none
  else s.handleTrigger env

/-- `on_invalid_word_`. -/
def invalidTrigger (s : SM) : Trigger :=
  match s.currentState with
  | .sounding => raiseIf (s.snd.soundingPhase = .lbt) .soundingComplete
  | .handshake =>
    match s.hs.handshakePhase with
    | .waitCycleEnd => raiseIf (maxScanningCallErrors < s.hs.contiguousErrors + 1) .linkTimeout
    | .channelCheck => .event .linkTimeout
    | _ => .none
  | _ => .none

/-- `detect_incoming_call_`. -/
def detectTrigger : WordRole → Trigger
  | .toSelf _ => .event .callDetected
  | .allcall _ => .event .callDetected
  | _ => .none

/-- The reaction of the current state to a word's role. -/
def reactTrigger (s : SM) (r : WordRole) : Trigger :=
  match s.currentState with
  | .idle => detectTrigger r
  | .scanning => detectTrigger r
  | .calling =>
    match r with
    | .twasWord _ => raiseIf (s.calling.callingPhase = .listening) .linkTimeout
    | _ => .none
  | .handshake =>
    match r with
    | .channelBusy => .event .linkTimeout
    | .twasWord _ => raiseIf (s.hs.handshakePhase = .waitAck) .amdDeclinedLink
    | _ => .none
  | .sounding =>
    match r with
    | .channelBusy => .event .soundingComplete
    | r => if s.snd.soundingPhase = .listening then detectTrigger r else .none
  | _ => .none

/-- `on_word_complete`. -/
def completeTrigger (s : SM) : Trigger :=
  if s.currentState = .linked ∧ s.link.linkedTerminating then
    raiseIf (s.tx.wordsPending - 1 = 0) .linkTerminated
  else if s.currentState = .linked ∧ s.ow.orderwireTransmitting then .none
  else if s.currentState = .sounding then .none
  else if s.allcallBroadcasting then .none
  else if s.currentState = .calling then
    if s.tx.wordsPending = 1 ∧ s.calling.callingPhase = .sendingAck then
      .event (if s.noLink then .amdDeclinedLink else .handshakeComplete)
    else .none
  else raiseIf (s.currentState = .handshake ∧ s.hs.handshakePhase = .sendingResponse ∧
      s.tx.wordsPending = 1 ∧ s.hs.pendingReject) .linkTimeout

/-- **The trigger of an operation.** -/
def trigger (s : SM) : Op → Trigger
  | .processEvent e => .event e
  | .update now env =>
    if 0x80000000 ≤ now - s.currentTimeMs then .none
    else tickTrigger { s with currentTimeMs := now } env
  | .processReceivedWord w => if ¬ w.valid then s.invalidTrigger else s.reactTrigger (s.classify w)
  | .onWordComplete => s.completeTrigger
  | .initiateCall _ => raiseIf s.available .callRequest
  | .initiateNetCall _ => raiseIf s.available .callRequest
  | .initiateGroupCall ms => raiseIf (s.available ∧ ms ≠ []) .callRequest
  | .respondToCall =>
    raiseIf (s.currentState = .handshake ∧ s.hs.handshakePhase = .waitAck ∧
      s.hs.callerAddress ≠ []) .handshakeComplete
  | .sendSounding => raiseIf s.available .soundingRequest
  | .sendSoundingSweep chs =>
    raiseIf (s.available ∧ ¬ s.allcallBroadcasting ∧ chs ≠ []) .soundingRequest
  | .emergencyManualControl => .emergency
  | _ => .none

/-! ## The diagram of a transition -/

theorem enterState_control (s : SM) (t : ALEState) :
    (s.enterState t).control = { s.control with
      preLink := if t = .calling ∨ t = .handshake then s.previousState else s.preLinkState } := by
  cases t <;> rfl

theorem leaveFor_control (s : SM) (t : ALEState) : (s.leaveFor t).control =
    { state := t, previous := s.currentState, preLink := s.preLinkState } := by
  unfold leaveFor exitState control
  cases s.currentState <;> rfl

theorem transitionTo_control (s : SM) (t : ALEState) :
    (s.transitionTo t).1.control = s.control.goTo t := by
  by_cases h : s.currentState = t
  · rw [transitionTo_self h, Control.goTo_self h]
  · rw [transitionTo_of_ne h]
    have he : ∀ (u : SM) (o : Output), (u.emit o).control = u.control := fun _ _ => rfl
    rw [he, enterState_control]
    have hl := leaveFor_control s t
    have hp : (s.leaveFor t).previousState = s.currentState := congrArg Control.previous hl
    have hq : (s.leaveFor t).preLinkState = s.preLinkState := congrArg Control.preLink hl
    rw [hl, hp, hq, Control.goTo_of_ne h]
    rfl

theorem soundingComplete_control (s : SM) :
    s.soundingComplete.1.control =
      if s.moreSweep then s.control else s.control.goTo s.previousState := by
  unfold soundingComplete moreSweep
  by_cases h : s.snd.soundingSweepIdx + 1 < s.snd.soundingSweepChs.length
  · cases hs : s.snd.soundingSweepActive
    · simp [transitionTo_control]
    · simp only [if_true, List.getElem?_eq_getElem h, h, decide_true, Bool.and_self]
      rfl
  · have hn : s.snd.soundingSweepChs[s.snd.soundingSweepIdx + 1]? = none :=
      List.getElem?_eq_none (by omega)
    cases hs : s.snd.soundingSweepActive
    · simp [transitionTo_control]
    · simp only [if_true, hn, h, decide_false, Bool.and_false, transitionTo_control]
      rfl

/-- **An event moves the machine as it moves the diagram.** -/
theorem processEvent_control (s : SM) (e : ALEEvent) :
    (s.processEvent e).1.control = s.control.event s.moreSweep e := by
  unfold processEvent Control.event
  have hc : s.control.state = s.currentState := rfl
  rw [hc]
  cases s.currentState <;> cases e <;>
    first
      | exact transitionTo_control _ _
      | exact soundingComplete_control s
      | rfl

/-! ## The diagram of an operation -/

/-- `s'` comes from `s` by the trigger `g`: nothing the diagram sees changes, or `g`'s event is
taken in a state at the same place of the diagram, with the same orderwire. -/
abbrev Fires (s : SM) (g : Trigger) (s' : SM) : Prop :=
  match g with
  | .none => s'.control = s.control
  | .event e => ∃ p : SM, p.control = s.control ∧ p.ow = s.ow ∧
      p.control.event p.moreSweep e = s.control.event s.moreSweep e ∧ s' = (p.processEvent e).1
  | .emergency => ∃ p : SM, p.control = s.control ∧ p.ow = s.ow ∧ s' = (p.transitionTo .idle).1

/-- An event raised after a change that the diagram does not see. -/
theorem fires_event {s p : SM} (e : ALEEvent) (hc : p.control = s.control)
    (hm : p.moreSweep = s.moreSweep) (ho : p.ow = s.ow) :
    s.Fires (.event e) (p.processEvent e).1 :=
  ⟨p, hc, ho, by rw [hc, hm], rfl⟩

theorem Fires.control {s s' : SM} {g : Trigger} (h : s.Fires g s') :
    s'.control = s.control.fire s.moreSweep g := by
  match g, h with
  | .none, h => exact h
  | .event e, ⟨p, _, _, he, hp⟩ => rw [hp, processEvent_control]; exact he
  | .emergency, ⟨p, hc, _, hp⟩ => rw [hp, transitionTo_control, hc]; rfl

end SM

end OpenALE
