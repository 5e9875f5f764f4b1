import OpenALE.Control.State

/-!
# Transitions: `process_event`, `transition_to`, `enter_state`, `exit_state`

Model of the transition half of `src/Protocol/Control/ale_state_machine.cpp`.

Results:
* `transitionTo_of_ne`: a transition that moves is exit, bookkeeping, entry, state callback.
* `transitionTo_out`: a transition sends nothing and opens the receiver.
* `processEvent_kept`: the sequences, the orderwire, the settings and the clock, which no event
  touches.
* `transitionTo_tx`, `transitionTo_amd`: no burst and no linked-AMD exchange survives a transition.
-/

namespace OpenALE

namespace SM

/-! ## Entering and leaving a state -/

/-- The resets at the head of `enter_state`: no burst and no linked-AMD exchange survives. -/
def clearBurst (s : SM) : SM :=
  { s with
    tx := { wordsPending := 0, txDrainStartMs := 0, txDrainDeadlineMs := txDrainTimeoutMs }
    amd := { s.amd with
      linkedAmdPhase := .none, linkedAmdListenStartMs := 0, linkedAmdRespDetected := false,
      linkedAmdRespTlwwMs := 0, linkedAmdAckToDetected := false, linkedAmdAckTisRcvd := false,
      linkedAmdAckTlwwMs := 0, linkedAmdRetryPending := false, linkedAmdRetryAfterMs := 0 } }

/-- `enter_state(IDLE)`. -/
def enterIdle (s : SM) : SM :=
  let s := s.setManager s.channelManager.clearOverride
  let s := { s with hs := { s.hs with allcallSilent := false } }
  s.rxEnabled true

/-- `enter_state(SCANNING)`. -/
def enterScanning (s : SM) : SM :=
  let s := { s with scan :=
    { scanningPhase := .hopping, scanPauseSettleMs := 0, prevHopReady := true } }
  let s := s.setManager s.channelManager.clearOverride
  let s := s.setChannels (s.channelManager.start s.currentTimeMs)
  let s := { s with hs := { s.hs with allcallSilent := false } }
  s.rxEnabled true

/-- Hop to `calling_channels[calling_channel_index]`, when there is one. -/
def hopToCallingChannel (s : SM) : SM :=
  s.hopCalling s.calling.callingChannels[s.calling.callingChannelIndex]?.toList

/-- `enter_state(CALLING)`. -/
def enterCalling (s : SM) : SM :=
  let s := { s with
    preLinkState := s.previousState
    link := { s.link with linkStartTimeMs := s.currentTimeMs }
    calling := { s.calling with
      firstCallTxMs := 0, lbtStartMs := s.currentTimeMs, tuneStartMs := 0, callCycleCount := 0,
      callCyclesInPhase := 0, listeningStartMs := 0, responseToDetected := false,
      responseRxStartMs := 0, tlwwStartMs := 0, collectingRemoteConclusion := false,
      toAddress := [] } }
  let s := s.hopToCallingChannel
  let s := { s with calling := { s.calling with callingPhase := .lbt } }
  s.rxEnabled true

/-- `enter_state(HANDSHAKE)`. -/
def enterHandshake (s : SM) : SM :=
  let s := { s with
    preLinkState := s.previousState
    link := { s.link with linkStartTimeMs := s.currentTimeMs }
    hs := { s.hs with
      slotWaitStartMs := 0, twceStartMs := s.currentTimeMs, hsTlwwStartMs := 0,
      hsConclusionRcvd := false, hsConclusionIsTwas := false, callerAddress := [],
      hsWordsInPhase := 0, hsAckStartMs := 0, hsAckToMs := 0, hsAckTisRcvd := false,
      contiguousErrors := 0, hsLbtStartMs := 0, hsMessageStartMs := 0, pendingReject := false,
      handshakePhase := .waitCycleEnd
      twceMs := calcTwceMs (UInt32.ofNat (max 1 s.channelManager.channelCount)) } }
  s.rxEnabled true

/-- The binding of `active_call_to` at the entry to `LINKED`: both `if`s in their order. -/
def bindPeer (s : SM) : Str :=
  let to₁ := if s.calling.activeCallIsGroup ∧ s.calling.toAddress ≠ [] then s.calling.toAddress
    else s.link.activeCallTo
  if ¬ s.calling.activeCallIsGroup ∧ s.hs.callerAddress ≠ [] then s.hs.callerAddress else to₁

/-- `enter_state(LINKED)`. -/
def enterLinked (s : SM) : SM :=
  let s := { s with
    lastWordTimeMs := s.currentTimeMs
    tx := { s.tx with txDrainStartMs := 0 }
    hs := { s.hs with allcallSilent := false }
    link := { s.link with
      linkStartTimeMs := s.currentTimeMs, linkedTerminating := false, linkedTwasAddr := [],
      linkedTwasLastMs := 0, idleWarningSent := false, lastSeenWordTimeMs := s.currentTimeMs,
      activeCallTo := s.bindPeer } }
  s.rxEnabled true

/-- `enter_state(SOUNDING)`. -/
def enterSounding (s : SM) : SM :=
  let s := { s with snd := { s.snd with
    soundingPhase := .lbt, soundingLbtStartMs := s.currentTimeMs, soundingListeningStartMs := 0 } }
  s.rxEnabled true

/-- `enter_state`. -/
def enterState (s : SM) (newState : ALEState) : SM :=
  match newState with
  | .idle => s.clearBurst.enterIdle
  | .scanning => s.clearBurst.enterScanning
  | .calling => s.clearBurst.enterCalling
  | .handshake => s.clearBurst.enterHandshake
  | .linked => s.clearBurst.enterLinked
  | .sounding => s.clearBurst.enterSounding
  | .error => s.clearBurst.rxEnabled true

/-- `exit_state`: leaving `LINKED` clears `active_call_to` and `active_call_from`. -/
def exitState (s : SM) (oldState : ALEState) : SM :=
  match oldState with
  | .linked => { s with link := { s.link with activeCallTo := [], activeCallFrom := [] } }
  | _ => s

/-- `transition_to` up to `enter_state`: exit the old state, book the new one. -/
def leaveFor (s : SM) (newState : ALEState) : SM :=
  { s.exitState s.currentState with
    previousState := s.currentState, currentState := newState
    stateEntryTimeMs := s.currentTimeMs }

/-- `transition_to`. -/
def transitionTo (s : SM) (newState : ALEState) : SM × Bool :=
  if s.currentState = newState then (s, false)
  else
    let t := (s.leaveFor newState).enterState newState
    (t.emit (.stateChange t.previousState t.currentState), true)

/-! ## `process_event` -/

/-- Leave sweep mode. -/
def dropSweep (s : SM) : SM :=
  { s with snd := { s.snd with
    soundingSweepActive := false, soundingSweepChs := [], soundingSweepIdx := 0 } }

/-- Advance the sweep to channel `ch`: pin it and re-arm the LBT phase. -/
def advanceSweep (s : SM) (ch : Channel) : SM :=
  let s := { s with snd := { s.snd with soundingSweepIdx := s.snd.soundingSweepIdx + 1 } }
  let s := s.setChannels (s.channelManager.setOverride ch)
  let s := { s with snd := { s.snd with
    soundingPhase := .lbt, soundingLbtStartMs := s.currentTimeMs } }
  s.rxEnabled true

/-- `SOUNDING_COMPLETE` taken in `SOUNDING`. -/
def soundingComplete (s : SM) : SM × Bool :=
  if s.snd.soundingSweepActive then
    match s.snd.soundingSweepChs[s.snd.soundingSweepIdx + 1]? with
    | some ch => (s.advanceSweep ch, true)
    | none => s.dropSweep.transitionTo s.previousState
  else s.transitionTo s.previousState

/-- `process_event`. -/
def processEvent (s : SM) (event : ALEEvent) : SM × Bool :=
  match s.currentState, event with
  | .idle, .startScan => s.transitionTo .scanning
  | .idle, .callRequest => s.transitionTo .calling
  | .idle, .callDetected => s.transitionTo .handshake
  | .idle, .soundingRequest => s.transitionTo .sounding
  | .scanning, .stopScan => s.transitionTo .idle
  | .scanning, .callDetected => s.transitionTo .handshake
  | .scanning, .callRequest => s.transitionTo .calling
  | .scanning, .soundingRequest => s.transitionTo .sounding
  | .calling, .handshakeComplete => s.transitionTo .linked
  | .calling, .linkTimeout => s.transitionTo s.preLinkState
  | .calling, .amdDeclinedLink => s.transitionTo s.preLinkState
  | .handshake, .handshakeComplete => s.transitionTo .linked
  | .handshake, .linkTimeout => s.transitionTo s.preLinkState
  | .handshake, .amdDeclinedLink => s.transitionTo s.preLinkState
  | .linked, .linkTerminated => s.transitionTo s.preLinkState
  | .linked, .linkTimeout => s.transitionTo s.preLinkState
  | .sounding, .soundingComplete => s.soundingComplete
  | .sounding, .callDetected => s.dropSweep.transitionTo .handshake
  | .error, .startScan => s.transitionTo .scanning
  | .error, _ => s.transitionTo .idle
  | _, .errorOccurred => s.transitionTo .error
  | _, _ => (s, false)

/-! ## What a transition does -/

section Transition

variable {s : SM} {t : ALEState}

theorem transitionTo_self (h : s.currentState = t) : s.transitionTo t = (s, false) := by
  unfold transitionTo
  rw [if_pos h]

/-- Entering a state fires channel changes and then opens the receiver. -/
theorem enterState_out (s : SM) (t : ALEState) :
    ∃ chs : List Channel, (s.enterState t).out = s.out ++ chs.map .channelChange ++
      [.rxEnabled true] := by
  cases t
  case scanning => exact ⟨_, rfl⟩
  case calling => exact ⟨_, rfl⟩
  all_goals exact ⟨[], by rw [List.map_nil, List.append_nil]; rfl⟩

theorem leaveFor_out (s : SM) (t : ALEState) : (s.leaveFor t).out = s.out := by
  unfold leaveFor exitState
  cases s.currentState <;> rfl

theorem transitionTo_of_ne (h : s.currentState ≠ t) :
    (s.transitionTo t).1 =
      ((s.leaveFor t).enterState t).emit (.stateChange s.currentState t) := by
  unfold transitionTo
  rw [if_neg h]
  cases t <;> rfl

/-- **A transition fires no transmit callback and opens the receiver.** -/
theorem transitionTo_out (h : s.currentState ≠ t) :
    ∃ chs : List Channel, (s.transitionTo t).1.out = s.out ++ chs.map .channelChange ++
      [.rxEnabled true, .stateChange s.currentState t] := by
  obtain ⟨chs, hc⟩ := enterState_out (s.leaveFor t) t
  refine ⟨chs, ?_⟩
  rw [transitionTo_of_ne h]
  unfold emit
  rw [hc, leaveFor_out, List.append_assoc, List.append_assoc, List.append_assoc]
  rfl

/-! ### What a transition resets and what it keeps -/

theorem enterState_tx (s : SM) (t : ALEState) : (s.enterState t).tx = {} := by
  cases t <;> rfl

theorem enterState_amd (s : SM) (t : ALEState) : (s.enterState t).amd = s.clearBurst.amd := by
  cases t <;> rfl

theorem leaveFor_amd (s : SM) (t : ALEState) : (s.leaveFor t).amd = s.amd := by
  unfold leaveFor exitState
  cases s.currentState <;> rfl

/-- No burst survives a transition. -/
theorem transitionTo_tx (h : s.currentState ≠ t) : (s.transitionTo t).1.tx = {} := by
  rw [transitionTo_of_ne h]
  exact enterState_tx _ t

/-- No linked-AMD exchange survives a transition. -/
theorem transitionTo_amd (h : s.currentState ≠ t) :
    (s.transitionTo t).1.amd = s.clearBurst.amd := by
  rw [transitionTo_of_ne h]
  show ((s.leaveFor t).enterState t).amd = _
  rw [enterState_amd]
  unfold clearBurst
  rw [leaveFor_amd]

/-- What no event touches. -/
structure Kept (s s' : SM) : Prop where
  ow : s'.ow = s.ow
  seqs : s'.seqs = s.seqs
  pend : s'.pend = s.pend
  currentTimeMs : s'.currentTimeMs = s.currentTimeMs
  selfAddress : s'.selfAddress = s.selfAddress
  timing : s'.timing = s.timing
  targetScanChannels : s'.targetScanChannels = s.targetScanChannels
  allcallBroadcasting : s'.allcallBroadcasting = s.allcallBroadcasting

theorem Kept.refl (s : SM) : s.Kept s := ⟨rfl, rfl, rfl, rfl, rfl, rfl, rfl, rfl⟩

theorem Kept.trans {s s' s'' : SM} (h : s.Kept s') (h' : s'.Kept s'') : s.Kept s'' :=
  ⟨h'.ow.trans h.ow, h'.seqs.trans h.seqs, h'.pend.trans h.pend,
    h'.currentTimeMs.trans h.currentTimeMs, h'.selfAddress.trans h.selfAddress,
    h'.timing.trans h.timing, h'.targetScanChannels.trans h.targetScanChannels,
    h'.allcallBroadcasting.trans h.allcallBroadcasting⟩

theorem enterState_kept (s : SM) (t : ALEState) : s.Kept (s.enterState t) := by
  cases t <;> exact ⟨rfl, rfl, rfl, rfl, rfl, rfl, rfl, rfl⟩

theorem leaveFor_kept (s : SM) (t : ALEState) : s.Kept (s.leaveFor t) := by
  unfold leaveFor exitState
  cases s.currentState <;> exact ⟨rfl, rfl, rfl, rfl, rfl, rfl, rfl, rfl⟩

theorem transitionTo_kept (s : SM) (t : ALEState) : s.Kept (s.transitionTo t).1 := by
  by_cases h : s.currentState = t
  · rw [transitionTo_self h]
    exact Kept.refl s
  · rw [transitionTo_of_ne h]
    have hk := (leaveFor_kept s t).trans (enterState_kept _ t)
    exact ⟨hk.ow, hk.seqs, hk.pend, hk.currentTimeMs, hk.selfAddress, hk.timing,
      hk.targetScanChannels, hk.allcallBroadcasting⟩

theorem dropSweep_kept (s : SM) : s.Kept s.dropSweep := ⟨rfl, rfl, rfl, rfl, rfl, rfl, rfl, rfl⟩

theorem soundingComplete_kept (s : SM) : s.Kept s.soundingComplete.1 := by
  unfold soundingComplete
  split
  · split
    · exact ⟨rfl, rfl, rfl, rfl, rfl, rfl, rfl, rfl⟩
    · exact (dropSweep_kept s).trans (transitionTo_kept _ _)
  · exact transitionTo_kept _ _

/-- **No event touches the sequences, the orderwire, the settings or the clock.** -/
theorem processEvent_kept (s : SM) (e : ALEEvent) : s.Kept (s.processEvent e).1 := by
  have hd : s.Kept (s.dropSweep.transitionTo .handshake).1 :=
    (dropSweep_kept s).trans (transitionTo_kept _ _)
  unfold processEvent
  cases s.currentState <;> cases e <;>
    first
      | exact transitionTo_kept _ _
      | exact soundingComplete_kept s
      | exact hd
      | exact Kept.refl s

end Transition

end SM

end OpenALE
