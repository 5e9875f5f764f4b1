import OpenALE.Control.Reaction

/-!
# What each operation raises

Every operation comes down to its trigger: what it does to the three state variables is what its
trigger does in the diagram, so a fact about the diagram is a fact about the machine.

Results:
* `exec_fires`: an operation fires its trigger.
* `exec_control`, `step_control`: the state variables after an operation.
-/

namespace OpenALE

namespace SM

/-! ## Clock ticks -/

theorem tryNextCallingChannel_fires (s : SM) : s.Fires s.retryTrigger s.tryNextCallingChannel := by
  unfold tryNextCallingChannel retryTrigger
  split
  · rename_i h
    rw [raiseIf_neg (by rw [h]; exact Option.some_ne_none _)]
    rfl
  · rename_i h
    rw [raiseIf_pos h]
    exact fires_event _ rfl rfl rfl

theorem transmitWords_control (s : SM) (ws : List ALEWord) :
    (s.transmitWords ws).control = s.control := by
  rw [transmitWords_eq]
  rfl

theorem armDrain_control (s : SM) (d : UInt32) : (s.armDrain d).control = s.control := by
  unfold armDrain
  split <;> rfl

theorem handleScanning_control (s : SM) (env : Env) :
    (s.handleScanning env).control = s.control := by
  unfold handleScanning
  split
  · split <;> rfl
  · dsimp only
    split <;> split <;> rfl

theorem handleCallingLbt_fires (s : SM) (env : Env) :
    s.Fires (if s.lbtChannelBusy env then s.retryTrigger else .none) (s.handleCallingLbt env) := by
  unfold handleCallingLbt
  split
  · exact tryNextCallingChannel_fires s
  · split <;> rfl

theorem handleTuning_control (s : SM) : s.handleTuning.control = s.control := by
  unfold handleTuning
  split
  · rw [enqueueCallSequence_eq]
    exact transmitWords_control _ _
  · rfl

theorem handleListening_fires (s : SM) :
    s.Fires (if ¬ s.calling.responseToDetected then
        if listeningResponseWaitMs ≤ s.currentTimeMs - s.calling.listeningStartMs then
          s.retryTrigger else .none
      else if s.calling.tlwwStartMs = 0 then
        if 5 * trwMs ≤ s.currentTimeMs - s.lastWordTimeMs then s.retryTrigger else .none
      else .none) s.handleListening := by
  unfold handleListening
  split
  · split
    · exact tryNextCallingChannel_fires s
    · rfl
  · split
    · split
      · exact tryNextCallingChannel_fires s
      · rfl
    · split <;> rfl

theorem handleSendingAck_fires (s : SM) :
    s.Fires (raiseIf (0 < s.tx.wordsPending ∧ s.drainExpired) .linkTimeout)
      s.handleSendingAck := by
  unfold handleSendingAck raiseIf
  by_cases h : 0 < s.tx.wordsPending
  · rw [if_pos h]
    by_cases hd : s.drainExpired = true
    · rw [if_pos hd, if_pos ⟨h, hd⟩]
      exact fires_event _ rfl rfl rfl
    · rw [if_neg hd, if_neg (fun hh => hd hh.2)]
  · rw [if_neg h, if_neg (fun hh => h hh.1)]
    split
    · unfold buildAckWords
      exact (armDrain_control _ _).trans (transmitWords_control _ _)
    · rfl

theorem handleCalling_fires (s : SM) (env : Env) :
    s.Fires (s.callingTrigger env) (s.handleCalling env) := by
  unfold handleCalling callingTrigger
  cases s.calling.callingPhase with
  | lbt => exact handleCallingLbt_fires s env
  | tuning => exact handleTuning_control s
  | listening => exact handleListening_fires s
  | sendingAck => exact handleSendingAck_fires s
  | scanningCall | groupScanningCall | leadingCall | conclusion => rfl

theorem linkEstablished_fires (s : SM) : s.Fires (.event .handshakeComplete) s.linkEstablished :=
  fires_event _ rfl rfl rfl

theorem handleWaitCycleEnd_fires (s : SM) : s.Fires s.waitCycleEndTrigger s.handleWaitCycleEnd := by
  unfold handleWaitCycleEnd waitCycleEndTrigger raiseIf
  split
  · exact fires_event _ rfl rfl rfl
  · split
    · exact fires_event _ rfl rfl rfl
    · split
      · split
        · exact fires_event _ rfl rfl rfl
        · split
          · exact fires_event _ rfl rfl rfl
          · rfl
      · rfl

theorem buildResponseWords_control (s : SM) : s.buildResponseWords.control = s.control := by
  unfold buildResponseWords
  exact (armDrain_control _ _).trans (transmitWords_control _ _)

theorem handleChannelCheck_fires (s : SM) (env : Env) :
    s.Fires (raiseIf (s.lbtChannelBusy env) .linkTimeout) (s.handleChannelCheck env) := by
  unfold handleChannelCheck raiseIf
  split
  · exact fires_event _ rfl rfl rfl
  · split
    · exact buildResponseWords_control _
    · rfl

theorem handleSendingResponse_fires (s : SM) :
    s.Fires (raiseIf s.drainExpired .linkTimeout) s.handleSendingResponse := by
  unfold handleSendingResponse raiseIf
  split
  · exact fires_event _ rfl rfl rfl
  · rfl

theorem handleWaitAck_fires (s : SM) : s.Fires s.waitAckTrigger s.handleWaitAck := by
  unfold handleWaitAck waitAckTrigger raiseIf
  split
  · exact fires_event _ rfl rfl rfl
  · split
    · exact fires_event _ rfl rfl rfl
    · split
      · exact linkEstablished_fires s
      · rfl

theorem handleHandshake_fires (s : SM) (env : Env) :
    s.Fires (s.handshakeTrigger env) (s.handleHandshake env) := by
  unfold handleHandshake handshakeTrigger
  cases s.hs.handshakePhase with
  | waitCycleEnd => exact handleWaitCycleEnd_fires s
  | awaitAccept => rfl
  | slotWait => show (s.handleSlotWait).control = _; unfold handleSlotWait; split <;> rfl
  | channelCheck => exact handleChannelCheck_fires s env
  | sendingResponse => exact handleSendingResponse_fires s
  | waitAck => exact handleWaitAck_fires s

/-! ### `handle_linked` -/

theorem linkedAmdRetryOrFail_control (s : SM) : s.linkedAmdRetryOrFail.control = s.control := by
  unfold linkedAmdRetryOrFail
  split <;> rfl

theorem handleLinkedAmdListening_control (s : SM) :
    s.handleLinkedAmdListening.control = s.control := by
  unfold handleLinkedAmdListening
  split
  · split
    · exact linkedAmdRetryOrFail_control s
    · rfl
  · split
    · split
      · exact linkedAmdRetryOrFail_control s
      · rfl
    · split <;> rfl

theorem handleLinkedAmdWaitAck_control (s : SM) :
    s.handleLinkedAmdWaitAck.control = s.control := by
  unfold handleLinkedAmdWaitAck
  split
  · split <;> rfl
  · split <;> split <;> rfl

theorem startOrderwire_control (s : SM) : s.startOrderwire.control = s.control := by
  unfold startOrderwire
  exact (armDrain_control _ _).trans (transmitWords_control _ _)

theorem handleLinkedAmdRetry_control (s : SM) : s.handleLinkedAmdRetry.control = s.control := by
  unfold handleLinkedAmdRetry
  split <;> rfl

/-- The idle warning writes its own two fields. -/
theorem idleWarning_eq (s : SM) : ∃ b t o, s.idleWarning =
    { s with link := { s.link with idleWarningSent := b, lastSeenWordTimeMs := t }, out := o } := by
  unfold idleWarning rearmIdleWarning
  dsimp only
  split <;> split <;> exact ⟨_, _, _, rfl⟩

theorem twaTimeout_fires (s : SM) :
    s.Fires (raiseIf (s.timing.twa ≤ s.currentTimeMs - s.lastWordTimeMs) .linkTimeout)
      s.twaTimeout := by
  unfold twaTimeout raiseIf
  split
  · dsimp only
    split
    · rw [transmitWords_eq]
      exact fires_event _ rfl rfl rfl
    · exact fires_event _ rfl rfl rfl
  · rfl

theorem handleLinkedActive_fires (s : SM) : s.Fires s.twaTrigger s.handleLinkedActive := by
  unfold handleLinkedActive twaTrigger
  by_cases h1 : s.ow.orderwireTransmitting = true
  · rw [if_pos h1, raiseIf_neg (fun hh => hh.1.1 h1)]
  rw [if_neg h1]
  by_cases h2 : s.ow.orderwirePending = true
  · rw [if_pos h2, raiseIf_neg (fun hh => hh.1.2.1 h2)]
    exact startOrderwire_control s
  rw [if_neg h2]
  by_cases h3 : s.amd.linkedAmdRetryPending = true
  · rw [if_pos h3, raiseIf_neg (fun hh => hh.1.2.2.1 h3)]
    exact handleLinkedAmdRetry_control s
  rw [if_neg h3]
  by_cases h4 : s.amd.linkedAmdPhase = .listening ∧ s.amd.linkedAmdListenStartMs ≠ 0
  · rw [if_pos h4, raiseIf_neg (fun hh => hh.1.2.2.2.1 h4)]
    exact handleLinkedAmdListening_control s
  rw [if_neg h4]
  by_cases h5 : s.amd.linkedAmdPhase = .waitAck
  · rw [if_pos h5, raiseIf_neg (fun hh => hh.1.2.2.2.2 h5)]
    exact handleLinkedAmdWaitAck_control s
  rw [if_neg h5]
  obtain ⟨b, t, o, hw⟩ := idleWarning_eq s
  have hq : s.linkedQuiet := ⟨h1, h2, h3, h4, h5⟩
  rw [hw, raiseIf_congr (and_iff_right hq)]
  exact twaTimeout_fires { s with
    link := { s.link with idleWarningSent := b, lastSeenWordTimeMs := t }, out := o }

theorem handleLinked_fires (s : SM) : s.Fires s.linkedTrigger s.handleLinked := by
  unfold handleLinked linkedTrigger
  by_cases h1 : ((s.link.linkedTerminating || s.ow.orderwireTransmitting) && s.drainExpired) = true
  · rw [if_pos h1, if_pos h1]
    unfold linkedDrainTimeout raiseIf
    split
    · exact fires_event _ rfl rfl rfl
    · rfl
  rw [if_neg h1, if_neg h1]
  by_cases h2 : s.link.linkedTerminating = true
  · rw [if_pos h2, if_pos h2]
  rw [if_neg h2, if_neg h2]
  by_cases h3 : s.twasSettled = true
  · rw [if_pos h3]
    dsimp only
    by_cases h4 : s.link.linkedTwasAddr = s.link.activeCallTo
    · rw [if_pos h4, if_pos ⟨h3, h4⟩]
      exact fires_event _ rfl rfl rfl
    · rw [if_neg h4, if_neg (fun hh => h4 hh.2)]
      exact handleLinkedActive_fires { s with link := { s.link with linkedTwasAddr := [] } }
  · rw [if_neg h3, if_neg (fun hh => h3 hh.1)]
    exact handleLinkedActive_fires s

/-! ### Soundings and `update` -/

theorem startSounding_fires (s : SM) :
    s.Fires (raiseIf (s.selfAddress = []) .soundingComplete) s.startSounding := by
  unfold startSounding raiseIf
  dsimp only
  by_cases h : s.selfAddress = []
  · rw [if_neg (not_not.mpr h), if_pos h]
    exact fires_event _ rfl rfl rfl
  · rw [if_pos h, if_neg h]
    exact transmitWords_control _ _

theorem handleSoundingLbt_fires (s : SM) (env : Env) :
    s.Fires (if s.lbtChannelBusy env then .event .soundingComplete
      else raiseIf (s.effectiveTwtMs ≤ s.currentTimeMs - s.snd.soundingLbtStartMs ∧
        s.selfAddress = []) .soundingComplete) (s.handleSoundingLbt env) := by
  unfold handleSoundingLbt
  split
  · exact fires_event _ rfl rfl rfl
  · by_cases h : s.effectiveTwtMs ≤ s.currentTimeMs - s.snd.soundingLbtStartMs
    · have hs := startSounding_fires s
      simp only [h, if_true, true_and]
      exact hs
    · rw [if_neg h, raiseIf_neg (fun hh => h hh.1)]

theorem handleSounding_fires (s : SM) (env : Env) :
    s.Fires (s.soundingTrigger env) (s.handleSounding env) := by
  unfold handleSounding soundingTrigger openIfDrained
  cases hp : s.snd.soundingPhase with
  | lbt => exact handleSoundingLbt_fires s env
  | transmitting =>
    by_cases hw : s.tx.wordsPending = 0
    · simp only [hw, and_self, if_true]
      unfold openSoundingWindow rxEnabled emit
      simp only [reduceCtorEq, if_false, UInt32.sub_self]
      rfl
    · simp only [hw, and_false, if_false, hp, if_true]
      rfl
  | listening =>
    simp only [reduceCtorEq, if_false, false_and, hp]
    unfold raiseIf
    split
    · exact fires_event _ rfl rfl rfl
    · rfl

theorem handle_fires (s : SM) (env : Env) : s.Fires (s.handleTrigger env) (s.handle env) := by
  unfold handle handleTrigger
  cases s.currentState with
  | idle | error => rfl
  | scanning => exact handleScanning_control s env
  | calling => exact handleCalling_fires s env
  | handshake => exact handleHandshake_fires s env
  | linked => exact handleLinked_fires s
  | sounding => exact handleSounding_fires s env

theorem tick_fires (s : SM) (env : Env) : s.Fires (s.tickTrigger env) (s.tick env) := by
  unfold tick tickTrigger
  by_cases h1 : s.checkLinkTimeout = true
  · rw [if_pos h1, if_pos h1]
    exact fires_event _ rfl rfl rfl
  rw [if_neg h1, if_neg h1]
  by_cases h2 : (s.allcallBroadcasting && s.drainExpired) = true
  · rw [if_pos h2, if_pos h2]
    rfl
  rw [if_neg h2, if_neg h2]
  exact handle_fires s env

/-! ### Completed words -/

theorem completeTermination_fires (s : SM) :
    s.Fires (raiseIf (s.tx.wordsPending - 1 = 0) .linkTerminated) s.completeTermination := by
  unfold completeTermination raiseIf
  dsimp only [popWord]
  split
  · exact fires_event _ rfl rfl rfl
  · rfl

theorem amdHandOff_control (s : SM) : s.amdHandOff.control = s.control := by
  unfold amdHandOff
  split <;> rfl

theorem completeOrderwire_control (s : SM) : s.completeOrderwire.control = s.control := by
  unfold completeOrderwire
  dsimp only
  split
  · exact amdHandOff_control _
  · rfl

theorem completeSounding_control (s : SM) : s.completeSounding.control = s.control := by
  unfold completeSounding
  dsimp only
  split <;> rfl

theorem completeAllcall_control (s : SM) : s.completeAllcall.control = s.control := by
  unfold completeAllcall
  dsimp only
  split <;> rfl

theorem advanceAfter_control (s : SM) (n : Nat) (p : CallingPhase) :
    (s.advanceAfter n p).control = s.control := by
  unfold advanceAfter
  split <;> rfl

theorem completeConclusion_control (s : SM) : s.completeConclusion.control = s.control := by
  unfold completeConclusion
  split <;> rfl

theorem completeAck_fires (s : SM) :
    s.Fires (if s.tx.wordsPending = 0 then
      .event (if s.noLink then .amdDeclinedLink else .handshakeComplete) else .none)
      s.completeAck := by
  unfold completeAck
  split
  · cases s.noLink
    · exact linkEstablished_fires s
    · exact fires_event _ rfl rfl rfl
  · rfl

theorem completeCallingPhase_fires (s : SM) :
    s.Fires (if s.tx.wordsPending = 0 ∧ s.calling.callingPhase = .sendingAck then
      .event (if s.noLink then .amdDeclinedLink else .handshakeComplete) else .none)
      s.completeCallingPhase := by
  unfold completeCallingPhase
  have ha := completeAck_fires s
  cases s.calling.callingPhase with
  | scanningCall | groupScanningCall | leadingCall =>
    rw [if_neg (by simp)]
    exact advanceAfter_control _ _ _
  | conclusion =>
    rw [if_neg (by simp)]
    exact completeConclusion_control s
  | sendingAck =>
    simp only [and_true]
    exact ha
  | _ => rw [if_neg (by simp)]

theorem completeCalling_fires (s : SM) :
    s.Fires (if s.tx.wordsPending = 1 ∧ s.calling.callingPhase = .sendingAck then
      .event (if s.noLink then .amdDeclinedLink else .handshakeComplete) else .none)
      s.completeCalling := by
  unfold completeCalling
  by_cases h : s.tx.wordsPending = 0
  · rw [if_pos h, if_neg (by omega)]
  · rw [if_neg h]
    have hp := completeCallingPhase_fires s.popWord.countCycle
    have hw : s.popWord.countCycle.tx.wordsPending = 0 ↔ s.tx.wordsPending = 1 := by
      show s.tx.wordsPending - 1 = 0 ↔ _
      omega
    simp only [hw] at hp
    exact hp

theorem responseDone_fires (s : SM) :
    s.Fires (raiseIf s.hs.pendingReject .linkTimeout) s.responseDone := by
  unfold responseDone raiseIf
  split
  · exact fires_event _ rfl rfl rfl
  · rfl

theorem completeResponse_fires (s : SM) :
    s.Fires (raiseIf (s.tx.wordsPending = 1 ∧ s.hs.pendingReject) .linkTimeout)
      s.completeResponse := by
  unfold completeResponse
  by_cases h : s.tx.wordsPending = 0
  · rw [if_pos h, raiseIf_neg (by omega)]
  rw [if_neg h]
  have hw : s.popWord.countHsWord.tx.wordsPending = s.tx.wordsPending - 1 := rfl
  dsimp only
  by_cases h1 : s.tx.wordsPending = 1
  · rw [if_pos (by omega), raiseIf_congr (and_iff_right h1)]
    exact responseDone_fires s.popWord.countHsWord
  · rw [if_neg (by omega), raiseIf_neg (fun hh => h1 hh.1)]
    rfl

theorem onWordComplete_fires (s : SM) : s.Fires s.completeTrigger s.onWordComplete := by
  unfold onWordComplete completeTrigger
  by_cases h1 : s.currentState = .linked ∧ s.link.linkedTerminating
  · rw [if_pos h1, if_pos h1]
    exact completeTermination_fires s
  rw [if_neg h1, if_neg h1]
  by_cases h2 : s.currentState = .linked ∧ s.ow.orderwireTransmitting
  · rw [if_pos h2, if_pos h2]
    exact completeOrderwire_control s
  rw [if_neg h2, if_neg h2]
  by_cases h3 : s.currentState = .sounding
  · rw [if_pos h3, if_pos h3]
    exact completeSounding_control s
  rw [if_neg h3, if_neg h3]
  by_cases h4 : s.allcallBroadcasting = true
  · rw [if_pos h4, if_pos h4]
    exact completeAllcall_control s
  rw [if_neg h4, if_neg h4]
  by_cases h5 : s.currentState = .calling
  · rw [if_pos h5, if_pos h5]
    exact completeCalling_fires s
  rw [if_neg h5, if_neg h5]
  by_cases h6 : s.currentState = .handshake ∧ s.hs.handshakePhase = .sendingResponse
  · rw [if_pos h6, raiseIf_congr (show _ ↔ s.tx.wordsPending = 1 ∧ s.hs.pendingReject from
      ⟨fun hh => hh.2.2, fun hh => ⟨h6.1, h6.2, hh⟩⟩)]
    exact completeResponse_fires s
  · rw [if_neg h6, raiseIf_neg (fun hh => h6 ⟨hh.1, hh.2.1⟩)]

/-! ### The API -/

theorem sendAllcallBroadcast_control (s : SM) (a t : Str) (l : Bool) :
    (s.sendAllcallBroadcast a t l).1.control = s.control := by
  unfold sendAllcallBroadcast
  split
  · rfl
  · split
    · rfl
    · split
      · rfl
      · split
        · rfl
        · exact (armDrain_control _ _).trans (transmitWords_control _ _)

/-- `terminate_link` always queues a word, so it never moves at once. -/
theorem terminateLink_eq {s : SM} (h : s.currentState = .linked) :
    s.terminateLink =
      { s with
        link := { s.link with linkedTerminating := true }
        tx := {
          wordsPending := s.tx.wordsPending + (termination s.link.activeCallTo s.selfAddress).length
          txDrainStartMs := s.currentTimeMs, txDrainDeadlineMs := txDrainTimeoutMs }
        out := s.out ++ (termination s.link.activeCallTo s.selfAddress).map
          (fun w => .transmit (w.stamp s.currentTimeMs)) ++ [.rxEnabled false] } := by
  have hl := length_termination_pos s.link.activeCallTo s.selfAddress
  unfold terminateLink
  rw [if_neg (not_not.mpr h)]
  simp only [transmitWords_eq, rxEnabled, emit]
  rw [if_neg (by omega)]

theorem terminateLink_control (s : SM) : s.terminateLink.control = s.control := by
  by_cases h : s.currentState = .linked
  · rw [terminateLink_eq h]
    rfl
  · unfold terminateLink
    rw [if_pos h]

theorem emergencyManualControl_fires (s : SM) :
    s.Fires .emergency s.emergencyManualControl := by
  refine ⟨_, ?_, ?_, rfl⟩ <;>
  · split
    · rw [transmitWords_eq]
      rfl
    · rfl

theorem set_control (s : SM) (x : Setting) : (s.set x).control = s.control := by
  cases x <;> first | rfl | (unfold set setSelfAddress; dsimp only; split <;> rfl)

/-- **Every operation is its trigger, fired.** -/
theorem exec_fires (s : SM) (op : Op) : s.Fires (s.trigger op) (s.exec op) := by
  cases op with
  | processEvent e => exact fires_event e rfl rfl rfl
  | update now env =>
    unfold exec trigger update
    dsimp only
    split
    · rfl
    · exact tick_fires { s with currentTimeMs := now } env
  | processReceivedWord w => exact (processReceivedWord_reacts s w).fires
  | onWordComplete => exact onWordComplete_fires s
  | initiateCall t => exact (initiateCall_reacts s t).fires
  | initiateNetCall a => exact (initiateNetCall_reacts s a).fires
  | initiateGroupCall ms => exact (initiateGroupCall_reacts s ms).fires
  | respondToCall => exact (respondToCall_reacts s).fires
  | sendSounding => exact (sendSounding_reacts s).fires
  | sendSoundingSweep chs => exact (sendSoundingSweep_reacts s chs).fires
  | sendAllcallBroadcast a t l => exact sendAllcallBroadcast_control s a t l
  | terminateLink => exact terminateLink_control s
  | emergencyManualControl => exact emergencyManualControl_fires s
  | triggerLinkedOrderwire ws d =>
    show (s.triggerLinkedOrderwire ws d).control = _
    unfold triggerLinkedOrderwire
    split <;> rfl
  | sendLinkedAmd ws p n =>
    show (s.sendLinkedAmd ws p n).control = _
    unfold sendLinkedAmd
    split <;> rfl
  | respondToLinkedAmd a ws =>
    show (s.respondToLinkedAmd a ws).control = _
    unfold respondToLinkedAmd
    split
    · rfl
    · split <;> rfl
  | onLinkActivity =>
    show s.onLinkActivity.control = _
    unfold onLinkActivity
    split <;> rfl
  | resetLinkIdleTimer =>
    show s.resetLinkIdleTimer.control = _
    unfold resetLinkIdleTimer
    split <;> rfl
  | updateLinkQuality lq =>
    obtain ⟨o, ho⟩ := updateLqa_eq s lq
    show (s.updateLqa lq).control = _
    rw [ho]
    rfl
  | beginScanPause t =>
    show (s.beginScanPause t).control = _
    unfold beginScanPause
    split <;> rfl
  | extendPeerWaitWindow d => rfl
  | set x => exact set_control s x

/-- **Every operation moves the state variables as its trigger moves the diagram.** -/
theorem exec_control (s : SM) (op : Op) :
    (s.exec op).control = s.control.fire s.moreSweep (s.trigger op) := (exec_fires s op).control

theorem step_control (s : SM) (op : Op) :
    (s.step op).control = s.control.fire s.moreSweep (s.trigger op) := by
  have h : s.clearOut.trigger op = s.trigger op := by cases op <;> rfl
  have := exec_control s.clearOut op
  rwa [h] at this

/-! ## Events a trigger cannot raise -/

theorem raiseIf_ne {c : Prop} [Decidable c] {e e' : ALEEvent} (h : e ≠ e') :
    raiseIf c e ≠ .event e' := by
  by_cases hc : c
  · rw [raiseIf_pos hc]
    intro he
    exact h (Trigger.event.inj he)
  · rw [raiseIf_neg hc]
    exact Trigger.noConfusion

theorem event_ne {e e' : ALEEvent} (h : e ≠ e') : Trigger.event e ≠ .event e' :=
  fun he => h (Trigger.event.inj he)

theorem none_ne (e : ALEEvent) : Trigger.none ≠ .event e := Trigger.noConfusion

theorem callingTrigger_ne (s : SM) (env : Env) {e : ALEEvent} (he : e ≠ .linkTimeout) :
    s.callingTrigger env ≠ .event e := by
  have hr : s.retryTrigger ≠ .event e := raiseIf_ne he.symm
  unfold callingTrigger
  repeat' split
  all_goals first | exact hr | exact raiseIf_ne he.symm | exact none_ne _

theorem handshakeTrigger_ne (s : SM) (env : Env) {e : ALEEvent} (he : e ≠ .linkTimeout)
    (he' : e ≠ .handshakeComplete) : s.handshakeTrigger env ≠ .event e := by
  unfold handshakeTrigger waitCycleEndTrigger waitAckTrigger
  repeat' split
  all_goals
    first
      | exact raiseIf_ne he.symm
      | exact raiseIf_ne he'.symm
      | exact event_ne he.symm
      | exact none_ne _

theorem linkedTrigger_ne (s : SM) {e : ALEEvent} (he : e ≠ .linkTimeout)
    (he' : e ≠ .linkTerminated) : s.linkedTrigger ≠ .event e := by
  unfold linkedTrigger twaTrigger
  repeat' split
  all_goals
    first
      | exact raiseIf_ne he.symm
      | exact raiseIf_ne he'.symm
      | exact event_ne he'.symm
      | exact none_ne _

theorem soundingTrigger_ne (s : SM) (env : Env) {e : ALEEvent} (he : e ≠ .soundingComplete) :
    s.soundingTrigger env ≠ .event e := by
  unfold soundingTrigger
  repeat' split
  all_goals
    first | exact raiseIf_ne he.symm | exact event_ne he.symm | exact none_ne _

end SM

end OpenALE
