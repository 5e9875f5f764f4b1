import OpenALE.Control.Trigger

/-!
# What operations hold on to

The prepared sequences, the pending message, the self address and the settings change in calls and
setters only, the orderwire in `LINKED` only.

Results:
* `exec_held`: no other operation touches them.
* `exec_ow`: outside `LINKED` no operation touches the orderwire.
-/

namespace OpenALE

namespace SM

/-- The prepared sequences, the self address, the settings, the pending message and, outside
`LINKED`, the orderwire are those of `s`. -/
structure Held (s s' : SM) : Prop where
  seqs : s'.seqs = s.seqs
  selfAddress : s'.selfAddress = s.selfAddress
  timing : s'.timing = s.timing
  targetScanChannels : s'.targetScanChannels = s.targetScanChannels
  pendingMessage : s'.pend.pendingMessage = s.pend.pendingMessage
  ow : s.currentState ≠ .linked → s'.ow = s.ow

namespace Held

variable {s p s' : SM}

theorem refl (s : SM) : s.Held s := ⟨rfl, rfl, rfl, rfl, rfl, fun _ => rfl⟩

theorem trans (h : s.Held p) (hc : p.currentState = s.currentState) (h' : p.Held s') :
    s.Held s' :=
  ⟨h'.seqs.trans h.seqs, h'.selfAddress.trans h.selfAddress, h'.timing.trans h.timing,
    h'.targetScanChannels.trans h.targetScanChannels, h'.pendingMessage.trans h.pendingMessage,
    fun hn => (h'.ow (by rwa [hc])).trans (h.ow hn)⟩

theorem of_kept (h : s.Kept s') : s.Held s' :=
  ⟨h.seqs, h.selfAddress, h.timing, h.targetScanChannels, congrArg _ h.pend, fun _ => h.ow⟩

/-- An event after a change that is held. -/
theorem event (h : s.Held p) (hc : p.currentState = s.currentState) (e : ALEEvent) :
    s.Held (p.processEvent e).1 :=
  h.trans hc (of_kept (processEvent_kept p e))

end Held

/-! ## The clock -/

theorem transmitWords_held (s : SM) (ws : List ALEWord) : s.Held (s.transmitWords ws) := by
  rw [transmitWords_eq]
  exact ⟨rfl, rfl, rfl, rfl, rfl, fun _ => rfl⟩

theorem armDrain_held (s : SM) (d : UInt32) : s.Held (s.armDrain d) := by
  unfold armDrain
  split <;> exact ⟨rfl, rfl, rfl, rfl, rfl, fun _ => rfl⟩

/-- A burst with its watchdog. -/
theorem burst_held (s : SM) (ws : List ALEWord) (d : UInt32) :
    s.Held ((s.transmitWords ws).armDrain d) :=
  (transmitWords_held s ws).trans (by rw [transmitWords_eq]) (armDrain_held _ d)

theorem tryNextCallingChannel_held (s : SM) : s.Held s.tryNextCallingChannel := by
  unfold tryNextCallingChannel
  split
  · exact ⟨rfl, rfl, rfl, rfl, rfl, fun _ => rfl⟩
  · have h : s.Held (s.nextChannelIndex.operator .noChannelsLeft) :=
      ⟨rfl, rfl, rfl, rfl, rfl, fun _ => rfl⟩
    exact h.event rfl .linkTimeout

theorem linkTimeout_held (s : SM) : s.Held s.linkTimeout := (Held.refl s).event rfl _

theorem handleScanning_held (s : SM) (env : Env) : s.Held (s.handleScanning env) := by
  unfold handleScanning
  dsimp only
  repeat' split
  all_goals exact ⟨rfl, rfl, rfl, rfl, rfl, fun _ => rfl⟩

theorem handleCalling_held (s : SM) (env : Env) : s.Held (s.handleCalling env) := by
  unfold handleCalling
  cases s.calling.callingPhase with
  | lbt =>
    show s.Held (s.handleCallingLbt env)
    unfold handleCallingLbt
    split
    · exact tryNextCallingChannel_held s
    · split <;> exact ⟨rfl, rfl, rfl, rfl, rfl, fun _ => rfl⟩
  | tuning =>
    show s.Held s.handleTuning
    unfold handleTuning
    split
    · rw [enqueueCallSequence_eq]
      have h : s.Held { s with calling := { s.calling with
          firstCallTxMs := s.currentTimeMs, callCyclesInPhase := 0,
          callingPhase := s.firstTxPhase } } := ⟨rfl, rfl, rfl, rfl, rfl, fun _ => rfl⟩
      exact h.trans rfl (transmitWords_held _ _)
    · exact Held.refl s
  | listening =>
    show s.Held s.handleListening
    unfold handleListening
    repeat' split
    all_goals
      first
        | exact tryNextCallingChannel_held s
        | exact ⟨rfl, rfl, rfl, rfl, rfl, fun _ => rfl⟩
  | sendingAck =>
    show s.Held s.handleSendingAck
    unfold handleSendingAck
    split
    · split
      · have h : s.Held { s with tx := { s.tx with txDrainStartMs := 0 } } :=
          ⟨rfl, rfl, rfl, rfl, rfl, fun _ => rfl⟩
        exact h.event rfl .linkTimeout
      · exact Held.refl s
    · split
      · exact burst_held s _ _
      · exact Held.refl s
  | scanningCall | groupScanningCall | leadingCall | conclusion => exact Held.refl s

theorem linkEstablished_held (s : SM) : s.Held s.linkEstablished := by
  have h : s.Held (s.operator .linkEstablished) := ⟨rfl, rfl, rfl, rfl, rfl, fun _ => rfl⟩
  exact h.event rfl .handshakeComplete

theorem buildResponseWords_held (s : SM) : s.Held s.buildResponseWords := by
  have h : s.Held { s with pend := { s.pend with
      pendingLqaCmdSet := false, pendingLqaReportSet := false } } :=
    ⟨rfl, rfl, rfl, rfl, rfl, fun _ => rfl⟩
  exact h.trans rfl (burst_held _ _ _)

theorem handleHandshake_held (s : SM) (env : Env) : s.Held (s.handleHandshake env) := by
  unfold handleHandshake
  cases s.hs.handshakePhase with
  | waitCycleEnd =>
    show s.Held s.handleWaitCycleEnd
    unfold handleWaitCycleEnd
    have h : s.Held { s with link := { s.link with activeCallTo := s.hs.callerAddress } } :=
      ⟨rfl, rfl, rfl, rfl, rfl, fun _ => rfl⟩
    repeat' split
    all_goals
      first
        | exact linkTimeout_held s
        | exact h.trans rfl (linkEstablished_held _)
        | exact ⟨rfl, rfl, rfl, rfl, rfl, fun _ => rfl⟩
  | channelCheck =>
    show s.Held (s.handleChannelCheck env)
    unfold handleChannelCheck
    split
    · exact linkTimeout_held s
    · split
      · have h : s.Held { s.rxEnabled false with hs := { (s.rxEnabled false).hs with
            handshakePhase := .sendingResponse, hsWordsInPhase := 0 } } :=
          ⟨rfl, rfl, rfl, rfl, rfl, fun _ => rfl⟩
        exact h.trans rfl (buildResponseWords_held _)
      · exact Held.refl s
  | sendingResponse =>
    show s.Held s.handleSendingResponse
    unfold handleSendingResponse
    split
    · have h : s.Held { s with tx := { s.tx with txDrainStartMs := 0 } } :=
        ⟨rfl, rfl, rfl, rfl, rfl, fun _ => rfl⟩
      exact h.event rfl .linkTimeout
    · exact Held.refl s
  | waitAck =>
    show s.Held s.handleWaitAck
    unfold handleWaitAck
    repeat' split
    all_goals
      first
        | exact linkTimeout_held s
        | exact linkEstablished_held s
        | exact Held.refl s
  | slotWait =>
    show s.Held s.handleSlotWait
    unfold handleSlotWait
    split <;> exact ⟨rfl, rfl, rfl, rfl, rfl, fun _ => rfl⟩
  | awaitAccept => exact ⟨rfl, rfl, rfl, rfl, rfl, fun _ => rfl⟩

section Linked

variable {s : SM}

theorem twaTimeout_held (s : SM) : s.Held s.twaTimeout := by
  unfold twaTimeout
  dsimp only
  have h : s.Held { s with link := { s.link with linkedTerminating := true } } :=
    ⟨rfl, rfl, rfl, rfl, rfl, fun _ => rfl⟩
  split
  · split
    · exact (h.trans rfl (transmitWords_held _ _)).event (by rw [transmitWords_eq]) _
    · exact h.event rfl _
  · exact Held.refl s

theorem startOrderwire_held (hc : s.currentState = .linked) : s.Held s.startOrderwire := by
  have h : s.Held (({ s with ow := { s.ow with
      orderwirePending := false, orderwireTransmitting := true } } : SM).rxEnabled false) :=
    ⟨rfl, rfl, rfl, rfl, rfl, fun hn => absurd hc hn⟩
  exact h.trans rfl (burst_held _ _ _)

theorem handleLinkedActive_held (hc : s.currentState = .linked) :
    s.Held s.handleLinkedActive := by
  have ho : ∀ {s' : SM}, s'.seqs = s.seqs → s'.selfAddress = s.selfAddress →
      s'.timing = s.timing → s'.targetScanChannels = s.targetScanChannels →
      s'.pend.pendingMessage = s.pend.pendingMessage → s.Held s' :=
    fun h1 h2 h3 h4 h5 => ⟨h1, h2, h3, h4, h5, fun hn => absurd hc hn⟩
  unfold handleLinkedActive
  split
  · exact Held.refl s
  split
  · exact startOrderwire_held hc
  split
  · unfold handleLinkedAmdRetry
    split <;> exact ho rfl rfl rfl rfl rfl
  split
  · unfold handleLinkedAmdListening linkedAmdRetryOrFail
    repeat' split
    all_goals exact ho rfl rfl rfl rfl rfl
  split
  · unfold handleLinkedAmdWaitAck
    repeat' split
    all_goals exact ho rfl rfl rfl rfl rfl
  · obtain ⟨b, t, o, hw⟩ := idleWarning_eq s
    rw [hw]
    have h : s.Held { s with
        link := { s.link with idleWarningSent := b, lastSeenWordTimeMs := t }, out := o } :=
      ⟨rfl, rfl, rfl, rfl, rfl, fun _ => rfl⟩
    exact h.trans rfl (twaTimeout_held _)

theorem handleLinked_held (hc : s.currentState = .linked) : s.Held s.handleLinked := by
  unfold handleLinked
  split
  · unfold linkedDrainTimeout
    split
    · have h : s.Held (({ s with
          link := { s.link with linkedTerminating := false }
          tx := { s.tx with txDrainStartMs := 0 } } : SM).rxEnabled true) :=
        ⟨rfl, rfl, rfl, rfl, rfl, fun _ => rfl⟩
      exact h.event rfl .linkTerminated
    · exact ⟨rfl, rfl, rfl, rfl, rfl, fun hn => absurd hc hn⟩
  split
  · exact Held.refl s
  split
  · dsimp only
    have h : s.Held { s with link := { s.link with linkedTwasAddr := [] } } :=
      ⟨rfl, rfl, rfl, rfl, rfl, fun _ => rfl⟩
    split
    · exact h.event rfl .linkTerminated
    · exact h.trans rfl (handleLinkedActive_held (by exact hc))
  · exact handleLinkedActive_held hc

end Linked

theorem handleSounding_held (s : SM) (env : Env) : s.Held (s.handleSounding env) := by
  have he : ∀ s : SM, s.Held s.endSounding := fun s => (Held.refl s).event rfl _
  have ho : s.Held s.openIfDrained ∧ s.openIfDrained.currentState = s.currentState := by
    unfold openIfDrained
    split <;> exact ⟨⟨rfl, rfl, rfl, rfl, rfl, fun _ => rfl⟩, rfl⟩
  unfold handleSounding
  split
  · unfold handleSoundingLbt startSounding
    dsimp only
    have h : s.Held { s with snd := { s.snd with soundingPhase := .transmitting } } :=
      ⟨rfl, rfl, rfl, rfl, rfl, fun _ => rfl⟩
    split
    · exact he s
    · split
      · split
        · refine Held.trans (p := { s with
            snd := { s.snd with soundingPhase := .transmitting }
            pend := { s.pend with pendingNoiseCmdSet := false }
            out := s.out ++ [.rxEnabled false] }) ?_ rfl (transmitWords_held _ _)
          exact ⟨rfl, rfl, rfl, rfl, rfl, fun _ => rfl⟩
        · exact h.trans rfl (he _)
      · exact Held.refl s
  · dsimp only
    split
    · exact ho.1
    · split
      · exact ho.1.trans ho.2 (he _)
      · exact ho.1

theorem update_held (s : SM) (now : UInt32) (env : Env) : s.Held (s.update now env) := by
  unfold update
  split
  · exact Held.refl s
  have hk : s.Held { s with currentTimeMs := now } := ⟨rfl, rfl, rfl, rfl, rfl, fun _ => rfl⟩
  refine hk.trans rfl ?_
  generalize { s with currentTimeMs := now } = p
  unfold tick
  split
  · exact linkTimeout_held p
  split
  · exact ⟨rfl, rfl, rfl, rfl, rfl, fun _ => rfl⟩
  unfold handle
  cases hc : p.currentState with
  | scanning => exact handleScanning_held p env
  | calling => exact handleCalling_held p env
  | handshake => exact handleHandshake_held p env
  | linked => exact handleLinked_held hc
  | sounding => exact handleSounding_held p env
  | idle | error => exact Held.refl p

/-! ## Words -/

theorem detectIncomingCall_held (s : SM) (r : WordRole) : s.Held (s.detectIncomingCall r) := by
  unfold detectIncomingCall
  cases r with
  | toSelf a =>
    have h : s.Held { s with link := { s.link with activeCallTo := a } } :=
      ⟨rfl, rfl, rfl, rfl, rfl, fun _ => rfl⟩
    exact h.event rfl .callDetected
  | allcall a =>
    have h : s.Held { s with hs := { s.hs with allcallSilent := true } } :=
      ⟨rfl, rfl, rfl, rfl, rfl, fun _ => rfl⟩
    exact h.event rfl .callDetected
  | _ => exact Held.refl s

theorem amdDeclined_held (s : SM) (e : OperatorEvent) : s.Held (s.amdDeclined e) := by
  have h : s.Held (s.operator e) := ⟨rfl, rfl, rfl, rfl, rfl, fun _ => rfl⟩
  exact h.event rfl .amdDeclinedLink

theorem endSounding_held (s : SM) : s.Held s.endSounding := (Held.refl s).event rfl _

theorem reactCalling_held (s : SM) (r : WordRole) : s.Held (s.reactCalling r) := by
  unfold reactCalling
  split
  · exact Held.refl s
  unfold reactListening
  have h : s.Held (s.operator .callRejected) := ⟨rfl, rfl, rfl, rfl, rfl, fun _ => rfl⟩
  repeat' split
  all_goals
    first
      | exact h.event rfl .linkTimeout
      | exact ⟨rfl, rfl, rfl, rfl, rfl, fun _ => rfl⟩

theorem reactHandshake_held (s : SM) (r : WordRole) (w : ALEWord) :
    s.Held (s.reactHandshake r w) := by
  unfold reactHandshake
  split
  · exact linkTimeout_held s
  cases s.hs.handshakePhase with
  | waitCycleEnd =>
    show s.Held (s.reactWaitCycleEnd r w)
    unfold reactWaitCycleEnd
    repeat' split
    all_goals exact ⟨rfl, rfl, rfl, rfl, rfl, fun _ => rfl⟩
  | waitAck =>
    show s.Held (s.reactWaitAck r)
    unfold reactWaitAck
    repeat' split
    all_goals
      first
        | exact amdDeclined_held s _
        | exact ⟨rfl, rfl, rfl, rfl, rfl, fun _ => rfl⟩
  | _ => exact Held.refl s

theorem reactLinked_held (s : SM) (r : WordRole) : s.Held (s.reactLinked r) := by
  have hc : ∀ r, s.Held (s.reactLinkedAmdConfirm r) := by
    intro r
    unfold reactLinkedAmdConfirm
    repeat' split
    all_goals exact ⟨rfl, rfl, rfl, rfl, rfl, fun _ => rfl⟩
  unfold reactLinked
  repeat' split
  all_goals first | exact hc _ | exact ⟨rfl, rfl, rfl, rfl, rfl, fun _ => rfl⟩

theorem react_held (s : SM) (r : WordRole) (w : ALEWord) : s.Held (s.react r w) := by
  unfold react
  cases s.currentState with
  | idle => exact detectIncomingCall_held s r
  | scanning =>
    show s.Held (s.reactScanning r)
    unfold reactScanning
    have h := detectIncomingCall_held s r
    dsimp only
    split
    · exact h
    · exact ⟨h.seqs, h.selfAddress, h.timing, h.targetScanChannels, h.pendingMessage, h.ow⟩
  | calling => exact reactCalling_held s r
  | handshake => exact reactHandshake_held s r w
  | linked => exact reactLinked_held s r
  | sounding =>
    show s.Held (s.reactSounding r)
    unfold reactSounding
    split
    · exact endSounding_held s
    · split
      · exact detectIncomingCall_held s r
      · exact Held.refl s
  | error => exact Held.refl s

theorem onInvalidWord_held (s : SM) : s.Held s.onInvalidWord := by
  unfold onInvalidWord countError
  have h : s.Held { s with hs := { s.hs with contiguousErrors := s.hs.contiguousErrors + 1 } } :=
    ⟨rfl, rfl, rfl, rfl, rfl, fun _ => rfl⟩
  dsimp only
  repeat' split
  all_goals
    first
      | exact endSounding_held s
      | exact h.trans rfl (linkTimeout_held _)
      | exact linkTimeout_held s
      | exact ⟨rfl, rfl, rfl, rfl, rfl, fun _ => rfl⟩

theorem processReceivedWord_held (s : SM) (w : ALEWord) : s.Held (s.processReceivedWord w) := by
  unfold processReceivedWord
  split
  · exact onInvalidWord_held s
  · dsimp only
    obtain ⟨o, ho⟩ := updateLqa_eq
      { s with hs := { s.hs with contiguousErrors := 0 }, lastWordTimeMs := s.currentTimeMs }
      (wordQuality { s with
        hs := { s.hs with contiguousErrors := 0 }, lastWordTimeMs := s.currentTimeMs } w)
    rw [ho]
    refine Held.trans (p := { s with
      hs := { s.hs with contiguousErrors := 0 }, lastWordTimeMs := s.currentTimeMs, out := o })
      ?_ rfl (react_held _ _ w)
    exact ⟨rfl, rfl, rfl, rfl, rfl, fun _ => rfl⟩

/-! ## Completions -/

theorem completeCalling_held (s : SM) : s.Held s.completeCalling := by
  unfold completeCalling
  split
  · exact Held.refl s
  have hp : s.Held s.popWord.countCycle := ⟨rfl, rfl, rfl, rfl, rfl, fun _ => rfl⟩
  refine hp.trans rfl ?_
  generalize s.popWord.countCycle = p
  have ha : ∀ n t, p.Held (p.advanceAfter n t) := by
    intro n t
    unfold advanceAfter
    split <;> exact ⟨rfl, rfl, rfl, rfl, rfl, fun _ => rfl⟩
  unfold completeCallingPhase
  cases p.calling.callingPhase with
  | scanningCall | groupScanningCall | leadingCall => exact ha _ _
  | conclusion =>
    show p.Held p.completeConclusion
    unfold completeConclusion
    split <;> exact ⟨rfl, rfl, rfl, rfl, rfl, fun _ => rfl⟩
  | sendingAck =>
    show p.Held p.completeAck
    unfold completeAck
    repeat' split
    all_goals
      first
        | exact amdDeclined_held p _
        | exact linkEstablished_held p
        | exact Held.refl p
  | lbt | tuning | listening => exact Held.refl p

theorem completeResponse_held (s : SM) : s.Held s.completeResponse := by
  unfold completeResponse
  split
  · exact Held.refl s
  have hp : s.Held s.popWord.countHsWord := ⟨rfl, rfl, rfl, rfl, rfl, fun _ => rfl⟩
  refine hp.trans rfl ?_
  dsimp only
  generalize s.popWord.countHsWord = p
  split
  · unfold responseDone
    split
    · have h : p.Held { p with hs := { p.hs with pendingReject := false } } :=
        ⟨rfl, rfl, rfl, rfl, rfl, fun _ => rfl⟩
      exact h.trans rfl (linkTimeout_held _)
    · exact ⟨rfl, rfl, rfl, rfl, rfl, fun _ => rfl⟩
  · exact Held.refl p

theorem onWordComplete_held (s : SM) : s.Held s.onWordComplete := by
  unfold onWordComplete
  split
  · unfold completeTermination
    dsimp only
    split
    · have h : s.Held { s.popWord with
          link := { s.popWord.link with linkedTerminating := false }
          tx := { s.popWord.tx with txDrainStartMs := 0 } } :=
        ⟨rfl, rfl, rfl, rfl, rfl, fun _ => rfl⟩
      exact h.event rfl .linkTerminated
    · exact ⟨rfl, rfl, rfl, rfl, rfl, fun _ => rfl⟩
  split
  · rename_i h
    have ho : ∀ {s' : SM}, s'.seqs = s.seqs → s'.selfAddress = s.selfAddress →
        s'.timing = s.timing → s'.targetScanChannels = s.targetScanChannels →
        s'.pend.pendingMessage = s.pend.pendingMessage → s.Held s' :=
      fun h1 h2 h3 h4 h5 => ⟨h1, h2, h3, h4, h5, fun hn => absurd h.1 hn⟩
    unfold completeOrderwire amdHandOff
    dsimp only
    repeat' split
    all_goals exact ho rfl rfl rfl rfl rfl
  split
  · unfold completeSounding
    dsimp only
    split <;> exact ⟨rfl, rfl, rfl, rfl, rfl, fun _ => rfl⟩
  split
  · unfold completeAllcall
    dsimp only
    split <;> exact ⟨rfl, rfl, rfl, rfl, rfl, fun _ => rfl⟩
  split
  · exact completeCalling_held s
  split
  · exact completeResponse_held s
  · exact Held.refl s

/-! ## The API -/

/-- A call or a setter. -/
def prepares : Op → Bool
  | .initiateCall _ | .initiateNetCall _ | .initiateGroupCall _ | .set _ => true
  | _ => false

theorem sendAllcallBroadcast_held (s : SM) (a t : Str) (l : Bool) :
    s.Held (s.sendAllcallBroadcast a t l).1 := by
  unfold sendAllcallBroadcast
  split
  · exact Held.refl s
  split
  · exact Held.refl s
  split
  · exact Held.refl s
  split
  · exact Held.refl s
  · have h : s.Held (({ s with allcallBroadcasting := true } : SM).rxEnabled false) :=
      ⟨rfl, rfl, rfl, rfl, rfl, fun _ => rfl⟩
    exact h.trans rfl (burst_held _ _ _)

theorem emergencyManualControl_held (s : SM) : s.Held s.emergencyManualControl := by
  unfold emergencyManualControl
  dsimp only
  split
  · rw [transmitWords_eq]
    refine Held.trans (p := { s with
      emergencyActive := true
      link := { s.link with linkedTerminating := true }
      tx := { s.tx with wordsPending :=
        s.tx.wordsPending + (termination s.link.activeCallTo s.selfAddress).length }
      out := s.out ++ [.operator .emergencyActive] ++
        (termination s.link.activeCallTo s.selfAddress).map
          (fun w => .transmit (w.stamp s.currentTimeMs)) })
      ?_ rfl (Held.of_kept (transitionTo_kept _ _))
    exact ⟨rfl, rfl, rfl, rfl, rfl, fun _ => rfl⟩
  · have h : s.Held (({ s with emergencyActive := true } : SM).operator .emergencyActive) :=
      ⟨rfl, rfl, rfl, rfl, rfl, fun _ => rfl⟩
    exact h.trans rfl (Held.of_kept (transitionTo_kept _ _))

theorem queueOrderwire_held {s : SM} (ho : s.orderwireOpen = true) (a : LinkedAmd)
    (ws : List ALEWord) (d : Bool) : s.Held (queueOrderwire { s with amd := a } ws d) := by
  have hc : s.currentState = .linked := by
    unfold orderwireOpen at ho
    rw [Bool.and_eq_true, beq_iff_eq] at ho
    exact ho.1
  exact ⟨rfl, rfl, rfl, rfl, rfl, fun hn => absurd hc hn⟩

/-- **Only calls and setters touch what is held.** -/
theorem exec_held (s : SM) {op : Op} (hp : prepares op = false) : s.Held (s.exec op) := by
  cases op with
  | processEvent e => exact (Held.refl s).event rfl e
  | update now env => exact update_held s now env
  | processReceivedWord w => exact processReceivedWord_held s w
  | onWordComplete => exact onWordComplete_held s
  | initiateCall _ | initiateNetCall _ | initiateGroupCall _ | set _ =>
    exact absurd hp.symm Bool.false_ne_true
  | respondToCall =>
    show s.Held s.respondToCall.1
    unfold respondToCall
    repeat' split
    all_goals first | exact (Held.refl s).event rfl _ | exact Held.refl s
  | sendSounding =>
    show s.Held s.sendSounding.1
    unfold sendSounding
    split
    · exact Held.refl s
    · exact (Held.refl s).event rfl _
  | sendSoundingSweep chs =>
    show s.Held (s.sendSoundingSweep chs).1
    unfold sendSoundingSweep
    split
    · exact Held.refl s
    split
    · exact Held.refl s
    cases chs with
    | nil => exact Held.refl s
    | cons ch chs =>
      have h : s.Held (s.armSweep (ch :: chs) ch) := ⟨rfl, rfl, rfl, rfl, rfl, fun _ => rfl⟩
      exact h.event rfl _
  | sendAllcallBroadcast a t l => exact sendAllcallBroadcast_held s a t l
  | terminateLink =>
    show s.Held s.terminateLink
    by_cases hc : s.currentState = .linked
    · rw [terminateLink_eq hc]
      exact ⟨rfl, rfl, rfl, rfl, rfl, fun _ => rfl⟩
    · unfold terminateLink
      rw [if_pos hc]
      exact Held.refl s
  | emergencyManualControl => exact emergencyManualControl_held s
  | triggerLinkedOrderwire ws d =>
    show s.Held (s.triggerLinkedOrderwire ws d)
    unfold triggerLinkedOrderwire
    split
    · exact Held.refl s
    · exact queueOrderwire_held (not_not.mp ‹_›) s.amd ws d
  | sendLinkedAmd ws p n =>
    show s.Held (s.sendLinkedAmd ws p n)
    unfold sendLinkedAmd
    split
    · exact Held.refl s
    · exact queueOrderwire_held (not_not.mp ‹_›) _ ws false
  | respondToLinkedAmd a ws =>
    show s.Held (s.respondToLinkedAmd a ws)
    unfold respondToLinkedAmd
    split
    · exact Held.refl s
    split
    · exact Held.refl s
    · exact queueOrderwire_held (not_not.mp ‹_›) _ _ false
  | onLinkActivity =>
    show s.Held s.onLinkActivity
    unfold onLinkActivity
    split <;> exact ⟨rfl, rfl, rfl, rfl, rfl, fun _ => rfl⟩
  | resetLinkIdleTimer =>
    show s.Held s.resetLinkIdleTimer
    unfold resetLinkIdleTimer
    split <;> exact ⟨rfl, rfl, rfl, rfl, rfl, fun _ => rfl⟩
  | updateLinkQuality lq =>
    obtain ⟨o, ho⟩ := updateLqa_eq s lq
    show s.Held (s.updateLqa lq)
    rw [ho]
    exact ⟨rfl, rfl, rfl, rfl, rfl, fun _ => rfl⟩
  | beginScanPause t =>
    show s.Held (s.beginScanPause t)
    unfold beginScanPause
    split <;> exact ⟨rfl, rfl, rfl, rfl, rfl, fun _ => rfl⟩
  | extendPeerWaitWindow d => exact ⟨rfl, rfl, rfl, rfl, rfl, fun _ => rfl⟩

/-- **Outside `LINKED` no operation touches the orderwire.** -/
theorem exec_ow {s : SM} (hc : s.currentState ≠ .linked) (op : Op) : (s.exec op).ow = s.ow := by
  cases hp : prepares op with
  | false => exact (exec_held s hp).ow hc
  | true =>
    cases op with
    | initiateCall t =>
      show (s.initiateCall t).1.ow = _
      unfold initiateCall
      split
      · rfl
      · exact (processEvent_kept _ _).ow
    | initiateNetCall a =>
      show (s.initiateNetCall a).1.ow = _
      unfold initiateNetCall
      split
      · rfl
      · exact (processEvent_kept _ _).ow
    | initiateGroupCall ms =>
      show (s.initiateGroupCall ms).1.ow = _
      unfold initiateGroupCall
      split
      · rfl
      split
      · rfl
      · exact (processEvent_kept _ _).ow
    | set x =>
      show (s.set x).ow = _
      cases x <;> first | rfl | (unfold set setSelfAddress; dsimp only; split <;> rfl)
    | _ => exact absurd hp Bool.false_ne_true

/-- **During a call only a setter changes what its frame is counted by.** -/
theorem exec_frame {s : SM} (hc : s.currentState = .calling) (op : Op) :
    (s.exec op).seqs = s.seqs ∧ ((s.exec op).targetScanChannels = s.targetScanChannels ∨
      ∃ n, op = .set (.targetScanChannels n) ∧ (s.exec op).targetScanChannels = n) := by
  have hav : ¬ s.available = true := by
    unfold available
    rw [hc]
    decide
  by_cases hp : prepares op = false
  · have hh := exec_held s hp
    exact ⟨hh.seqs, Or.inl hh.targetScanChannels⟩
  cases op with
  | initiateCall a =>
    rw [show s.exec (.initiateCall a) = s from congrArg Prod.fst (if_pos hav)]
    exact ⟨rfl, Or.inl rfl⟩
  | initiateNetCall a =>
    rw [show s.exec (.initiateNetCall a) = s from congrArg Prod.fst (if_pos hav)]
    exact ⟨rfl, Or.inl rfl⟩
  | initiateGroupCall ms =>
    rw [show s.exec (.initiateGroupCall ms) = s from congrArg Prod.fst (if_pos hav)]
    exact ⟨rfl, Or.inl rfl⟩
  | set x =>
    cases x with
    | targetScanChannels n => exact ⟨rfl, Or.inr ⟨n, rfl, rfl⟩⟩
    | selfAddress a =>
      show (s.setSelfAddress a).seqs = _ ∧ ((s.setSelfAddress a).targetScanChannels = _ ∨ _)
      unfold setSelfAddress
      split <;> exact ⟨rfl, Or.inl rfl⟩
    | _ => exact ⟨rfl, Or.inl rfl⟩
  | _ => exact absurd rfl hp

end SM

end OpenALE
