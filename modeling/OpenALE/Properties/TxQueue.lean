import OpenALE.App.TxPath
import OpenALE.Properties.Validity

/-!
# The queue of the modulator

The assertion of `enqueue_tx49_` allows `MAX_TX_SEQUENCE_WORDS` words behind the one being sent.
`burst` is what a step of the machine hands over, told from the state before it.

Results:
* `transmitted_step`: so it is.
* `queue_iff`: the assertion holds along a run exactly when every burst, and every flush of the PTT
  lead, finds room behind the words still waiting. No length is enforced: a call with the default
  ten scan channels, full addresses and a full text has 70 words.
-/

namespace OpenALE

namespace SM

/-! ## What a step hands over -/

/-- What `handle_linked` hands over from the orderwire block on: the orderwire burst, or the
termination of the `Twa` timeout. -/
def activeBurst (s : SM) : List ALEWord :=
  if s.ow.orderwireTransmitting then []
  else if s.ow.orderwirePending then s.orderwireBurst
  else if s.linkedQuiet ∧ s.timing.twa ≤ s.currentTimeMs - s.lastWordTimeMs ∧
      s.link.activeCallTo ≠ [] ∧ s.selfAddress ≠ [] then
    termination s.link.activeCallTo s.selfAddress
  else []

/-- The words of a tick in `LINKED`. -/
def linkedBurst (s : SM) : List ALEWord :=
  if (s.link.linkedTerminating || s.ow.orderwireTransmitting) && s.drainExpired then []
  else if s.link.linkedTerminating then []
  else if s.twasSettled ∧ s.link.linkedTwasAddr = s.link.activeCallTo then []
  else s.activeBurst

/-- The words of a tick, after the clock has moved. -/
def tickBurst (s : SM) (env : Env) : List ALEWord :=
  if s.checkLinkTimeout then []
  else if s.allcallBroadcasting && s.drainExpired then []
  else match s.currentState with
    | .calling =>
      match s.calling.callingPhase with
      | .tuning =>
        if s.timing.tt ≤ s.currentTimeMs - s.calling.tuneStartMs then s.seqs.callFrame else []
      | .sendingAck =>
        if s.tx.wordsPending = 0 ∧ s.calling.callCyclesInPhase = 0 then
          ack s.calling.toAddress s.selfAddress s.noLink
        else []
      | _ => []
    | .handshake =>
      if s.hs.handshakePhase = .channelCheck ∧ ¬ s.lbtChannelBusy env ∧
          tdrwMs ≤ s.currentTimeMs - s.hs.hsLbtStartMs then s.responseWords
      else []
    | .linked => s.linkedBurst
    | .sounding =>
      if s.snd.soundingPhase = .lbt ∧ ¬ s.lbtChannelBusy env ∧
          s.effectiveTwtMs ≤ s.currentTimeMs - s.snd.soundingLbtStartMs ∧ s.selfAddress ≠ [] then
        s.soundingWords
      else []
    | _ => []

/-- The words an operation hands to the transmitter. -/
def burst (s : SM) : Op → List ALEWord
  | .update now env =>
    if 0x80000000 ≤ now - s.currentTimeMs then [] else (s.clocked now).tickBurst env
  | .sendAllcallBroadcast selfAddr text linkAfterSend =>
    if s.available ∧ ¬ s.allcallBroadcasting ∧ selfAddr ≠ [] ∧ encodeAmd text ≠ [] then
      s.allcallWords selfAddr text linkAfterSend
    else []
  | .terminateLink =>
    if s.currentState = .linked then termination s.link.activeCallTo s.selfAddress else []
  | .emergencyManualControl =>
    if s.emergencySends then termination s.link.activeCallTo s.selfAddress else []
  | _ => []

/-- The receiver is shut in the same step, before the words: not for a call and a termination. -/
def shutsFirst (s : SM) : Op → Bool
  | .update _ _ => s.currentState == .handshake || s.currentState == .sounding ||
      s.currentState == .linked && s.ow.orderwirePending
  | .sendAllcallBroadcast _ _ _ => true
  | _ => false

/-- The signals count the words handed over. -/
theorem sends_signals (out : List Output) : sends (signals out) = (transmitted out).length := by
  induction out with
  | nil => rfl
  | cons o out ih =>
    cases o with
    | transmit w =>
      show sends (.send :: signals out) = (w :: transmitted out).length
      rw [sends, List.count_cons_self, List.length_cons, ← ih]
      rfl
    | rxEnabled on =>
      show sends (.rx on :: signals out) = _
      rw [sends_rx, ih]
      rfl
    | _ => exact ih

section Burst

variable {s s' p : SM} {now : UInt32} {env : Env}

theorem Hands.of_nil {ws : List ALEWord} (h : s.Hands s' []) (hw : ws = []) : s.Hands s' ws := by
  rw [hw]
  exact h

theorem handleSounding_hands (hc : p.currentState = .sounding)
    (hl : p.checkLinkTimeout = false) (ha : (p.allcallBroadcasting && p.drainExpired) = false) :
    p.Hands (p.handleSounding env) (p.tickBurst env) := by
  have hb : p.tickBurst env = if p.snd.soundingPhase = .lbt ∧ ¬ p.lbtChannelBusy env ∧
      p.effectiveTwtMs ≤ p.currentTimeMs - p.snd.soundingLbtStartMs ∧ p.selfAddress ≠ [] then
      p.soundingWords else [] := by
    unfold tickBurst
    rw [hl, ha, hc]
    rfl
  rw [hb]
  unfold handleSounding
  by_cases hph : p.snd.soundingPhase = .lbt
  · rw [if_pos hph]
    unfold handleSoundingLbt
    by_cases hbusy : p.lbtChannelBusy env = true
    · rw [if_pos hbusy, if_neg (fun h => h.2.1 hbusy)]
      exact (Hands.refl p).event _
    rw [if_neg hbusy]
    by_cases ht : p.effectiveTwtMs ≤ p.currentTimeMs - p.snd.soundingLbtStartMs
    · rw [if_pos ht]
      unfold startSounding
      dsimp only
      by_cases hself : p.selfAddress ≠ []
      · rw [if_pos hself, if_pos ⟨hph, hbusy, ht, hself⟩]
        refine (hands_transmitWords _ p.soundingWords).trans ?_
        show transmitted (p.out ++ _) ++ _ = _
        rw [transmitted_append]
        exact congrArg (· ++ _) (List.append_nil _)
      · rw [if_neg hself, if_neg (fun h => hself h.2.2.2)]
        exact (transmitted_processEvent _ _).trans (List.append_nil _).symm
    · rw [if_neg ht, if_neg (fun h => ht h.2.2.1)]
      exact Hands.refl p
  · have hnil : (if p.snd.soundingPhase = .lbt ∧ ¬ p.lbtChannelBusy env ∧
        p.effectiveTwtMs ≤ p.currentTimeMs - p.snd.soundingLbtStartMs ∧ p.selfAddress ≠ [] then
        p.soundingWords else []) = [] := if_neg fun h => hph h.1
    rw [if_neg hph, hnil]
    have hopen : p.Hands p.openIfDrained [] := by
      unfold openIfDrained openSoundingWindow
      dsimp only
      split
      · exact hands_of_out ((transmitted_append _ _).trans (List.append_nil _))
      · exact Hands.refl p
    dsimp only
    split
    · exact hopen
    split
    · exact hopen.event _
    · exact hopen

theorem handleCalling_hands (hc : p.currentState = .calling)
    (hl : p.checkLinkTimeout = false) (ha : (p.allcallBroadcasting && p.drainExpired) = false) :
    p.Hands (p.handleCalling env) (p.tickBurst env) := by
  have hb : p.tickBurst env = match p.calling.callingPhase with
      | .tuning =>
        if p.timing.tt ≤ p.currentTimeMs - p.calling.tuneStartMs then p.seqs.callFrame else []
      | .sendingAck =>
        if p.tx.wordsPending = 0 ∧ p.calling.callCyclesInPhase = 0 then
          ack p.calling.toAddress p.selfAddress p.noLink
        else []
      | _ => [] := by
    unfold tickBurst
    rw [hl, ha, hc]
    rfl
  have hnext : p.Hands p.tryNextCallingChannel [] := by
    unfold tryNextCallingChannel
    split
    · refine hands_of_out ?_
      show transmitted (p.out ++ _) = _
      rw [transmitted_append, transmitted_channels, List.append_nil]
    · refine (transmitted_processEvent _ _).trans ?_
      exact transmitted_append _ _
  rw [hb]
  unfold handleCalling
  cases hp : p.calling.callingPhase with
  | lbt =>
    dsimp only
    unfold handleCallingLbt
    split
    · exact hnext
    split
    · exact hands_of_out ((transmitted_append _ _).trans (List.append_nil _))
    · exact Hands.refl p
  | tuning =>
    dsimp only
    unfold handleTuning
    by_cases ht : p.timing.tt ≤ p.currentTimeMs - p.calling.tuneStartMs
    · rw [if_pos ht, if_pos ht]
      dsimp only
      rw [enqueueCallSequence_eq]
      exact hands_transmitWords _ p.seqs.callFrame
    · rw [if_neg ht, if_neg ht]
      exact Hands.refl p
  | listening =>
    dsimp only
    unfold handleListening
    repeat' split
    all_goals
      first
        | exact hnext
        | exact Hands.refl p
        | exact hands_of_out ((transmitted_append _ _).trans (List.append_nil _))
  | sendingAck =>
    dsimp only
    unfold handleSendingAck
    by_cases hw : 0 < p.tx.wordsPending
    · rw [if_pos hw, if_neg (c := p.tx.wordsPending = 0 ∧ _) (fun h => by omega)]
      split
      · exact (transmitted_processEvent _ _).trans (List.append_nil _).symm
      · exact Hands.refl p
    · have h0 : p.tx.wordsPending = 0 := by omega
      rw [if_neg hw]
      by_cases hcyc : p.calling.callCyclesInPhase = 0
      · rw [if_pos hcyc, if_pos ⟨h0, hcyc⟩]
        exact (hands_transmitWords p _).armDrain _
      · rw [if_neg hcyc, if_neg (fun h => hcyc h.2)]
        exact Hands.refl p
  | _ => exact Hands.refl p

theorem linkEstablished_hands (h : s.Hands p []) : s.Hands p.linkEstablished [] :=
  (h.emit rfl).event _

theorem handleHandshake_hands (hc : p.currentState = .handshake)
    (hl : p.checkLinkTimeout = false) (ha : (p.allcallBroadcasting && p.drainExpired) = false) :
    p.Hands (p.handleHandshake env) (p.tickBurst env) := by
  have hb : p.tickBurst env = if p.hs.handshakePhase = .channelCheck ∧ ¬ p.lbtChannelBusy env ∧
      tdrwMs ≤ p.currentTimeMs - p.hs.hsLbtStartMs then p.responseWords else [] := by
    unfold tickBurst
    rw [hl, ha, hc]
    rfl
  rw [hb]
  unfold handleHandshake
  cases hp : p.hs.handshakePhase with
  | channelCheck =>
    dsimp only
    unfold handleChannelCheck
    by_cases hbusy : p.lbtChannelBusy env = true
    · rw [if_pos hbusy, if_neg (fun h => h.2.1 hbusy)]
      exact (Hands.refl p).event _
    rw [if_neg hbusy]
    by_cases ht : tdrwMs ≤ p.currentTimeMs - p.hs.hsLbtStartMs
    · rw [if_pos ht, if_pos ⟨rfl, hbusy, ht⟩]
      refine Hands.armDrain ?_ _
      refine (hands_transmitWords _ p.responseWords).trans ?_
      show transmitted (p.out ++ _) ++ _ = _
      rw [transmitted_append]
      exact congrArg (· ++ _) (List.append_nil _)
    · rw [if_neg ht, if_neg (fun h => ht h.2.2)]
      exact Hands.refl p
  | waitCycleEnd =>
    rw [if_neg (fun h => HandshakePhase.noConfusion h.1)]
    dsimp only
    unfold handleWaitCycleEnd
    dsimp only
    repeat' split
    all_goals
      first
        | exact Hands.refl p
        | exact (Hands.refl p).event _
        | exact linkEstablished_hands (hands_of_out rfl)
  | sendingResponse =>
    rw [if_neg (fun h => HandshakePhase.noConfusion h.1)]
    dsimp only
    unfold handleSendingResponse
    split
    · exact (transmitted_processEvent _ _).trans (List.append_nil _).symm
    · exact Hands.refl p
  | waitAck =>
    rw [if_neg (fun h => HandshakePhase.noConfusion h.1)]
    dsimp only
    unfold handleWaitAck
    repeat' split
    all_goals
      first
        | exact Hands.refl p
        | exact (Hands.refl p).event _
        | exact linkEstablished_hands (Hands.refl p)
  | _ =>
    rw [if_neg (fun h => HandshakePhase.noConfusion h.1)]
    dsimp only
    first
      | exact Hands.refl p
      | (unfold handleSlotWait; split <;> exact Hands.refl p)

/-- The idle warning hands nothing over and leaves what the timeout looks at. -/
theorem idleWarning_kept (p : SM) : p.Hands p.idleWarning [] ∧
    p.idleWarning.link.activeCallTo = p.link.activeCallTo ∧
    p.idleWarning.selfAddress = p.selfAddress ∧ p.idleWarning.currentTimeMs = p.currentTimeMs ∧
    p.idleWarning.lastWordTimeMs = p.lastWordTimeMs ∧ p.idleWarning.timing = p.timing := by
  unfold idleWarning rearmIdleWarning
  dsimp only
  split <;> split <;>
    first
      | exact ⟨Hands.refl p, rfl, rfl, rfl, rfl, rfl⟩
      | exact ⟨(Hands.refl p).emit rfl, rfl, rfl, rfl, rfl, rfl⟩

theorem twaTimeout_burst (p : SM) : p.Hands p.twaTimeout
    (if p.timing.twa ≤ p.currentTimeMs - p.lastWordTimeMs ∧ p.link.activeCallTo ≠ [] ∧
        p.selfAddress ≠ [] then termination p.link.activeCallTo p.selfAddress else []) := by
  unfold twaTimeout
  dsimp only
  by_cases ht : p.timing.twa ≤ p.currentTimeMs - p.lastWordTimeMs
  · rw [if_pos ht]
    refine (transmitted_processEvent _ _).trans ?_
    by_cases ha : p.link.activeCallTo ≠ [] ∧ p.selfAddress ≠ []
    · rw [if_pos ha, if_pos ⟨ht, ha⟩]
      exact hands_transmitWords { p with link := { p.link with linkedTerminating := true } } _
    · rw [if_neg ha, if_neg (fun h => ha h.2)]
      exact (List.append_nil _).symm
  · rw [if_neg ht, if_neg (fun h => ht h.1)]
    exact Hands.refl p

theorem startOrderwire_hands (p : SM) : p.Hands p.startOrderwire p.orderwireBurst := by
  unfold startOrderwire
  dsimp only
  refine Hands.armDrain ?_ _
  refine (hands_transmitWords _ p.orderwireBurst).trans ?_
  show transmitted (p.out ++ _) ++ _ = _
  rw [transmitted_append]
  exact congrArg (· ++ _) (List.append_nil _)

theorem handleLinkedActive_hands (p : SM) : p.Hands p.handleLinkedActive p.activeBurst := by
  unfold handleLinkedActive activeBurst
  by_cases h1 : p.ow.orderwireTransmitting = true
  · rw [if_pos h1, if_pos h1]
    exact Hands.refl p
  rw [if_neg h1, if_neg h1]
  by_cases h2 : p.ow.orderwirePending = true
  · rw [if_pos h2, if_pos h2]
    exact startOrderwire_hands p
  rw [if_neg h2, if_neg h2]
  by_cases h3 : p.amd.linkedAmdRetryPending = true
  · rw [if_pos h3, if_neg (fun h => h.1.2.2.1 h3)]
    unfold handleLinkedAmdRetry
    split <;> exact Hands.refl p
  rw [if_neg h3]
  by_cases h4 : p.amd.linkedAmdPhase = .listening ∧ p.amd.linkedAmdListenStartMs ≠ 0
  · rw [if_pos h4, if_neg (fun h => h.1.2.2.2.1 h4)]
    exact handleLinkedAmdListening_hands p
  rw [if_neg h4]
  by_cases h5 : p.amd.linkedAmdPhase = .waitAck
  · rw [if_pos h5, if_neg (fun h => h.1.2.2.2.2 h5)]
    exact handleLinkedAmdWaitAck_hands p
  rw [if_neg h5]
  have hq : p.linkedQuiet := ⟨h1, h2, h3, h4, h5⟩
  obtain ⟨hout, hto, hself, hnow, hlast, htim⟩ := idleWarning_kept p
  have ht := twaTimeout_burst p.idleWarning
  unfold Hands at hout ht ⊢
  rw [hto, hself, hnow, hlast, htim, hout, List.map_nil, List.append_nil] at ht
  simp only [hq, true_and]
  exact ht

theorem handleLinked_hands (p : SM) : p.Hands p.handleLinked p.linkedBurst := by
  unfold handleLinked
  by_cases h1 : ((p.link.linkedTerminating || p.ow.orderwireTransmitting) && p.drainExpired) = true
  · rw [if_pos h1]
    exact (linkedDrainTimeout_hands p).of_nil (if_pos h1)
  by_cases h2 : p.link.linkedTerminating = true
  · rw [if_neg h1, if_pos h2]
    exact (Hands.refl p).of_nil ((if_neg h1).trans (if_pos h2))
  rw [if_neg h1, if_neg h2]
  by_cases h3 : p.twasSettled = true
  · rw [if_pos h3]
    dsimp only
    by_cases h4 : p.link.linkedTwasAddr = p.link.activeCallTo
    · rw [if_pos h4]
      have hnil : p.linkedBurst = [] := (if_neg h1).trans ((if_neg h2).trans (if_pos ⟨h3, h4⟩))
      rw [hnil]
      exact (transmitted_processEvent _ _).trans (List.append_nil _).symm
    · have hb : p.linkedBurst = p.activeBurst :=
        (if_neg h1).trans ((if_neg h2).trans (if_neg fun h => h4 h.2))
      rw [if_neg h4, hb]
      exact handleLinkedActive_hands { p with link := { p.link with linkedTwasAddr := [] } }
  · have hb : p.linkedBurst = p.activeBurst :=
      (if_neg h1).trans ((if_neg h2).trans (if_neg fun h => h3 h.1))
    rw [if_neg h3, hb]
    exact handleLinkedActive_hands p

theorem tick_burst (p : SM) (env : Env) : p.Hands (p.tick env) (p.tickBurst env) := by
  unfold tick
  by_cases hl : p.checkLinkTimeout = true
  · rw [if_pos hl]
    exact ((Hands.refl p).event _).of_nil (if_pos hl)
  by_cases ha : (p.allcallBroadcasting && p.drainExpired) = true
  · rw [if_neg hl, if_pos ha]
    exact (hands_of_out (transmitted_append _ _ |>.trans (List.append_nil _))).of_nil
      ((if_neg hl).trans (if_pos ha))
  rw [if_neg hl, if_neg ha]
  have hl' : p.checkLinkTimeout = false := by simpa using hl
  have ha' : (p.allcallBroadcasting && p.drainExpired) = false := by simpa using ha
  unfold handle
  cases hc : p.currentState with
  | calling => exact handleCalling_hands hc hl' ha'
  | handshake => exact handleHandshake_hands hc hl' ha'
  | sounding => exact handleSounding_hands hc hl' ha'
  | linked =>
    have hb : p.tickBurst env = p.linkedBurst := by
      unfold tickBurst
      rw [hl', ha', hc]
      rfl
    rw [hb]
    exact handleLinked_hands p
  | scanning =>
    have hb : p.tickBurst env = [] := by
      unfold tickBurst
      rw [hl', ha', hc]
      rfl
    rw [hb]
    refine hands_of_out ?_
    dsimp only
    unfold handleScanning
    dsimp only
    repeat' split
    all_goals
      first
        | rfl
        | (show transmitted (p.out ++ _) = _
           rw [transmitted_append, transmitted_channels, List.append_nil])
  | _ =>
    have hb : p.tickBurst env = [] := by
      unfold tickBurst
      rw [hl', ha', hc]
      rfl
    rw [hb]
    exact Hands.refl p

/-- A reaction hands nothing over. -/
theorem Reacts.sends_eq {g : Trigger} (h : s.Reacts g s') :
    sends (signals s'.out) = sends (signals s.out) := by
  match g, h with
  | .none, h => rw [h.out]
  | .event e, ⟨p, hn, _, hp⟩ =>
    rw [hp, sends_signals, transmitted_processEvent, ← sends_signals, hn.out]

theorem Hands.sends_eq {ws : List ALEWord} (h : s.Hands s' ws) :
    sends (signals s'.out) = sends (signals s.out) + ws.length := by
  rw [sends_signals, sends_signals, h, List.length_append, List.length_map]

theorem sendAllcallBroadcast_hands (s : SM) (a t : Str) (l : Bool) :
    s.Hands (s.sendAllcallBroadcast a t l).1 (s.burst (.sendAllcallBroadcast a t l)) := by
  show s.Hands _ (if _ then _ else _)
  unfold sendAllcallBroadcast
  by_cases h1 : s.available = true
  swap
  · rw [if_pos h1, if_neg (fun h => h1 h.1)]
    exact Hands.refl s
  by_cases h2 : s.allcallBroadcasting = true
  · rw [if_neg (not_not.mpr h1), if_pos h2, if_neg (fun h => h.2.1 h2)]
    exact Hands.refl s
  by_cases h3 : a = []
  · rw [if_neg (not_not.mpr h1), if_neg h2, if_pos h3, if_neg (fun h => h.2.2.1 h3)]
    exact Hands.refl s
  by_cases h4 : encodeAmd t = []
  · rw [if_neg (not_not.mpr h1), if_neg h2, if_neg h3, if_pos h4, if_neg (fun h => h.2.2.2 h4)]
    exact Hands.refl s
  rw [if_neg (not_not.mpr h1), if_neg h2, if_neg h3, if_neg h4, if_pos ⟨h1, h2, h3, h4⟩]
  dsimp only
  refine Hands.armDrain ?_ _
  refine (hands_transmitWords _ (s.allcallWords a t l)).trans ?_
  show transmitted (s.out ++ _) ++ _ = _
  rw [transmitted_append]
  exact congrArg (· ++ _) (List.append_nil _)

theorem terminateLink_hands (s : SM) : s.Hands s.terminateLink (s.burst .terminateLink) := by
  have hws := hands_transmitWords { s with link := { s.link with linkedTerminating := true } }
    (OpenALE.termination s.link.activeCallTo s.selfAddress)
  show s.Hands _ (if _ then _ else _)
  unfold terminateLink
  by_cases hc : s.currentState = .linked
  · rw [if_neg (not_not.mpr hc), if_pos hc]
    dsimp only
    split
    · exact (transmitted_processEvent _ _).trans
        ((transmitted_append _ _).trans ((List.append_nil _).trans hws))
    · exact (transmitted_append _ _).trans ((List.append_nil _).trans hws)
  · rw [if_pos hc, if_neg hc]
    exact Hands.refl s

theorem emergency_hands (s : SM) :
    s.Hands s.emergencyManualControl (s.burst .emergencyManualControl) := by
  show s.Hands _ (if _ then _ else _)
  unfold emergencyManualControl
  dsimp only
  have hout : transmitted (s.out ++ [.operator .emergencyActive]) = transmitted s.out :=
    (transmitted_append _ _).trans (List.append_nil _)
  unfold Hands
  rw [transmitted_transitionTo]
  by_cases hc : s.emergencySends
  · have hc' : s.currentState = .linked ∧ ¬ s.link.linkedTerminating ∧ s.link.activeCallTo ≠ [] ∧
        s.selfAddress ≠ [] := hc
    rw [if_pos hc, if_pos (by exact hc')]
    refine (hands_transmitWords _ _).trans ?_
    exact congrArg (· ++ _) hout
  · have hc' : ¬ (s.currentState = .linked ∧ ¬ s.link.linkedTerminating ∧
        s.link.activeCallTo ≠ [] ∧ s.selfAddress ≠ []) := hc
    rw [if_neg hc, if_neg (by exact hc')]
    exact hout.trans (List.append_nil _).symm

/-- **An operation hands over its burst.** -/
theorem exec_sends (ho : s.control.Outside) (op : Op) :
    sends (signals (s.exec op).out) = sends (signals s.out) + (s.burst op).length := by
  cases op with
  | update now env =>
    show sends (signals (s.update now env).out) = _ + (if _ then _ else _ : List ALEWord).length
    by_cases hb : 0x80000000 ≤ now - s.currentTimeMs
    · rw [show s.update now env = s from if_pos hb, if_pos hb]
      rfl
    · rw [show s.update now env = (s.clocked now).tick env from if_neg hb, if_neg hb]
      exact (tick_burst (s.clocked now) env).sends_eq
  | onWordComplete =>
    obtain ⟨v, sig, hy, hm⟩ := done_moves ho
    show sends (signals s.onWordComplete.out) = _
    rw [hy.out, sends_append, hm.quiet]
    rfl
  | sendAllcallBroadcast a t l => exact (sendAllcallBroadcast_hands s a t l).sends_eq
  | terminateLink => exact (terminateLink_hands s).sends_eq
  | emergencyManualControl => exact (emergency_hands s).sends_eq
  | processEvent e => exact Reacts.sends_eq (reacts_event e (.refl s) rfl)
  | processReceivedWord w => exact (processReceivedWord_reacts s w).sends_eq
  | initiateCall t => exact (initiateCall_reacts s t).sends_eq
  | initiateNetCall a => exact (initiateNetCall_reacts s a).sends_eq
  | initiateGroupCall ms => exact (initiateGroupCall_reacts s ms).sends_eq
  | respondToCall => exact (respondToCall_reacts s).sends_eq
  | sendSounding => exact (sendSounding_reacts s).sends_eq
  | sendSoundingSweep chs => exact (sendSoundingSweep_reacts s chs).sends_eq
  | updateLinkQuality lq => exact congrArg sends (updateLqa_signals s lq)
  | set x => exact congrArg sends (set_txView s x).2
  | triggerLinkedOrderwire ws d =>
    show sends (signals (s.triggerLinkedOrderwire ws d).out) = _
    unfold triggerLinkedOrderwire
    split <;> rfl
  | sendLinkedAmd ws p n =>
    show sends (signals (s.sendLinkedAmd ws p n).out) = _
    unfold sendLinkedAmd
    split <;> rfl
  | respondToLinkedAmd a ws =>
    show sends (signals (s.respondToLinkedAmd a ws).out) = _
    unfold respondToLinkedAmd
    split
    · rfl
    · split <;> rfl
  | onLinkActivity =>
    show sends (signals s.onLinkActivity.out) = _
    unfold onLinkActivity
    split <;> rfl
  | resetLinkIdleTimer =>
    show sends (signals s.resetLinkIdleTimer.out) = _
    unfold resetLinkIdleTimer
    split <;> rfl
  | beginScanPause t =>
    show sends (signals (s.beginScanPause t).out) = _
    unfold beginScanPause
    split <;> rfl
  | extendPeerWaitWindow d => rfl

/-! ## Where the words stand among the signals -/

/-- The words of an operation, after the receiver is shut where it is shut first. -/
def Shaped (s : SM) (op : Op) (sig : List Signal) : Prop :=
  ∃ pre n post, sig = pre ++ List.replicate n .send ++ post ∧ sends pre = 0 ∧ sends post = 0 ∧
    (n ≠ 0 → pre = if s.shutsFirst op then [.rx false] else [])

theorem shaped_silent {op : Op} {sig : List Signal} (h : sends sig = 0) : s.Shaped op sig :=
  ⟨sig, 0, [], by simp, h, rfl, fun hn => absurd rfl hn⟩

/-- Of the states that queue a burst while they listen, all shut the receiver first. -/
theorem shutsFirst_of_queues (hm : s.mode = .listen) (hq : s.queues env = true) (now : UInt32)
    (e : Env) : s.shutsFirst (.update now e) = true := by
  unfold queues at hq
  unfold shutsFirst
  cases hc : s.currentState with
  | handshake => rfl
  | sounding => rfl
  | linked =>
    rw [hc] at hq
    simp only [Bool.and_eq_true] at hq
    rw [hq.2.1.1.1]
    rfl
  | calling =>
    rw [hc] at hq
    rw [mode_calling hc] at hm
    cases hp : s.calling.callingPhase <;> rw [hp] at hq hm <;>
      first | exact Mode.noConfusion hm | simp at hq
  | _ =>
    rw [hc] at hq
    simp at hq

theorem raiseIf_eq {c : Prop} [Decidable c] {e e' : ALEEvent} (h : raiseIf c e = .event e') :
    c ∧ e = e' := by
  by_cases hc : c
  · rw [raiseIf_pos hc] at h
    exact ⟨hc, Trigger.event.inj h⟩
  · rw [raiseIf_neg hc] at h
    exact Trigger.noConfusion h

/-- The `Twa` timeout leaves no orderwire behind. -/
theorem not_pending_of_parts (hc : s.currentState = .linked) (hl : s.checkLinkTimeout = false)
    (h : s.tickTrigger env = .event .linkTimeout) : s.ow.orderwirePending = false := by
  unfold tickTrigger at h
  rw [hl] at h
  by_cases ha : (s.allcallBroadcasting && s.drainExpired) = true
  · rw [if_neg Bool.false_ne_true, if_pos ha] at h
    exact Trigger.noConfusion h
  rw [if_neg Bool.false_ne_true, if_neg ha] at h
  unfold handleTrigger at h
  rw [hc] at h
  dsimp only at h
  unfold linkedTrigger at h
  split at h
  · exact absurd (raiseIf_eq h).2 (by decide)
  split at h
  · exact Trigger.noConfusion h
  split at h
  · exact absurd (Trigger.event.inj h) (by decide)
  · simpa using (raiseIf_eq h).1.1.2.1

theorem TickMove.shaped {v : TxView} {sig : List Signal} (h : s.TickMove env v sig) (now : UInt32)
    (e : Env) : s.Shaped (.update now e) sig := by
  cases h with
  | transition t n ht hn =>
    refine ⟨[], n, [.rx true], rfl, rfl, rfl, fun hne => ?_⟩
    obtain ⟨hc, hl, htrig, -, -⟩ := hn hne
    have hp := not_pending_of_parts hc hl htrig
    unfold shutsFirst
    rw [hc, hp]
    rfl
  | frame hc hm hq =>
    refine ⟨[], _, [], (List.append_nil _).symm, rfl, rfl, fun _ => ?_⟩
    unfold shutsFirst
    rw [hc]
    rfl
  | ack n hn hm hw hq =>
    refine ⟨[], _, [], (List.append_nil _).symm, rfl, rfl, fun _ => ?_⟩
    unfold shutsFirst
    rw [ack_of_mode hm]
    rfl
  | response n hn hc hm hq =>
    refine ⟨[.rx false], n, [], (List.append_nil _).symm, rfl, rfl, fun _ => ?_⟩
    rw [shutsFirst_of_queues hm hq]
    rfl
  | orderwire n hn hm hq =>
    refine ⟨[.rx false], n, [], (List.append_nil _).symm, rfl, rfl, fun _ => ?_⟩
    rw [shutsFirst_of_queues hm hq]
    rfl
  | sound n hn hm hq =>
    refine ⟨[.rx false], n, [], (List.append_nil _).symm, rfl, rfl, fun _ => ?_⟩
    rw [shutsFirst_of_queues hm hq]
    rfl
  | _ => exact shaped_silent rfl

/-- A broadcast is the only burst of a station that is available. -/
theorem shutsFirst_of_available {op : Op} (hc : s.currentState = .idle ∨ s.currentState = .scanning)
    (ht : timed op = false) (hb : s.burst op ≠ []) : s.shutsFirst op = true := by
  have hl : s.currentState ≠ .linked := by rcases hc with h | h <;> (rw [h]; decide)
  cases op with
  | sendAllcallBroadcast a t l => rfl
  | terminateLink => exact absurd (if_neg hl) hb
  | emergencyManualControl => exact absurd (if_neg fun h => hl h.1) hb
  | update now env => exact absurd ht Bool.noConfusion
  | _ => exact absurd rfl hb

theorem OtherMove.shaped {op : Op} {v : TxView} {sig : List Signal} (h : s.OtherMove op v sig)
    (ht : timed op = false) (hn : sends sig = (s.burst op).length) : s.Shaped op sig := by
  cases h with
  | transition t n ht hn' =>
    refine ⟨[], n, [.rx true], rfl, rfl, rfl, fun hne => ?_⟩
    rw [(hn' hne).1]
    rfl
  | broadcast n hpos ha hm hc =>
    refine ⟨[.rx false], n, [], (List.append_nil _).symm, rfl, rfl, fun hne => ?_⟩
    rw [sends_rx, sends_replicate] at hn
    have hb : s.burst op ≠ [] := by
      intro he
      rw [he] at hn
      exact hne hn
    rw [shutsFirst_of_available hc ht hb]
    rfl
  | terminate n hpos hop hc =>
    refine ⟨[], n, [.rx false], rfl, rfl, rfl, fun _ => ?_⟩
    rw [hop]
    rfl
  | _ => exact shaped_silent rfl

/-- **The signals of a step are its burst**, after the receiver is shut where it is shut first. -/
theorem step_shaped (ho : s.control.Outside) (op : Op) :
    s.Shaped op (signals (s.step op).out) ∧
      sends (signals (s.step op).out) = (s.burst op).length := by
  have hs : sends (signals (s.step op).out) = (s.burst op).length := by
    have h := exec_sends (s := s.clearOut) ho op
    have hb : s.clearOut.burst op = s.burst op := by cases op <;> rfl
    rw [hb] at h
    exact h.trans (Nat.zero_add _)
  refine ⟨?_, hs⟩
  by_cases ht : timed op = true
  · cases op with
    | update now env =>
      by_cases hb : 0x80000000 ≤ now - s.currentTimeMs
      · have hstep : s.step (.update now env) = s.clearOut := if_pos hb
        rw [hstep]
        exact shaped_silent rfl
      · have hstep : s.step (.update now env) = (s.clearOut.clocked now).tick env := if_neg hb
        obtain ⟨v, sig, hy, hm⟩ : (s.clearOut.clocked now).Ticks env ((s.clearOut.clocked now).tick env) :=
          tick_moves ho
        have hout : signals (s.step (.update now env)).out = sig := by
          rw [hstep, hy.out]
          rfl
        rw [hout]
        exact hm.shaped now env
    | onWordComplete =>
      obtain ⟨v, sig, hy, hm⟩ := done_moves (s := s.clearOut) ho
      have hout : signals (s.step .onWordComplete).out = sig := hy.out
      rw [hout]
      exact shaped_silent hm.quiet
    | _ => exact absurd ht Bool.false_ne_true
  · have ht' : timed op = false := by simpa using ht
    obtain ⟨v, sig, hy, hm⟩ := exec_others (s := s.clearOut) ho ht'
    have hb : s.clearOut.burst op = s.burst op := by cases op <;> rfl
    have hout : signals (s.step op).out = sig := hy.out
    rw [hout] at hs ⊢
    exact hm.shaped ht' (hs.trans (congrArg List.length hb.symm))

end Burst

end SM

/-! ## The assertion along a run -/

namespace TxStation

open SM

/-- The path as the words of an operation find it. -/
def facing (x : TxStation) (op : Op) (inhibited : Bool) : TxPath :=
  if x.sm.shutsFirst op then x.path.rxEnabled false inhibited else x.path

/-- The burst of an operation goes straight to the modulator and finds no room there. -/
def Floods (x : TxStation) (op : Op) (inhibited : Bool) : Prop :=
  ¬ 0 < (x.facing op inhibited).pttLeadDeadlineMs ∧ x.sm.burst op ≠ [] ∧
    maxTxSequenceWords + 1 < x.path.modulator.load + (x.sm.burst op).length

/-- A step queues more words than there is room for. -/
def Overfills (x : TxStation) : TxOp → Prop
  | .machine op inhibited => x.Floods op inhibited
  | .emergencyStop inhibited => x.Floods .emergencyManualControl inhibited
  | .clock now =>
    (0 < x.path.pttLeadDeadlineMs ∧ x.path.pttLeadDeadlineMs ≤ now) ∧
      x.path.pendingTxWords ≠ [] ∧
      maxTxSequenceWords + 1 < x.path.modulator.load + x.path.pendingTxWords.length
  | _ => False

/-- What holds as long as the assertion does. -/
structure Sound (x : TxStation) : Prop where
  outside : x.sm.control.Outside
  quiet : x.path.modulator.asserted = false

section Run

variable {x : TxStation} {op : Op} {inhibited : Bool}

/-- **When an operation trips the assertion.** -/
theorem asserted_machine (ho : x.sm.control.Outside) : (x.machine op inhibited).path.modulator.asserted =
    (x.path.modulator.asserted || decide (¬ 0 < (x.facing op inhibited).pttLeadDeadlineMs ∧
      x.sm.burst op ≠ [] ∧
      maxTxSequenceWords + 1 < x.path.modulator.load + (x.sm.burst op).length)) := by
  obtain ⟨⟨pre, n, post, hsig, hpre, hpost, hshut⟩, hlen⟩ := step_shaped ho op
  have hn : n = (x.sm.burst op).length := by
    rw [hsig, sends_append, sends_append, hpre, hpost, sends_replicate] at hlen
    omega
  have hserve := tally_serve x.path inhibited (x.sm.step op).out
  have ha : (x.machine op inhibited).path.modulator.asserted =
      ((signals (x.sm.step op).out).foldl (Tally.hear inhibited) x.path.tally).asserted :=
    congrArg Tally.asserted hserve
  rw [ha, hsig, asserted_tally _ _ hpre hpost]
  by_cases hb : x.sm.burst op = []
  · rw [hb] at hn
    simp [hb, hn, TxPath.tally]
  · have hn0 : n ≠ 0 := by
      rw [hn]
      exact fun h => hb (List.length_eq_zero_iff.mp h)
    have hface : (pre.foldl (Tally.hear inhibited) x.path.tally).pttLeadDeadlineMs =
        (x.facing op inhibited).pttLeadDeadlineMs := by
      rw [hshut hn0]
      unfold facing
      split
      · exact congrArg Tally.pttLeadDeadlineMs
          (tally_rxEnabled x.path inhibited false).symm
      · rfl
    rw [hface, ← hn]
    simp [hb, hn0, TxPath.tally]

theorem asserted_machine_iff (h : x.Sound) :
    (x.machine op inhibited).path.modulator.asserted = false ↔ ¬ x.Floods op inhibited := by
  rw [asserted_machine h.outside, h.quiet, Bool.false_or, decide_eq_false_iff_not]
  rfl

theorem sound_machine (h : x.Sound) (hf : ¬ x.Floods op inhibited) :
    (x.machine op inhibited).Sound :=
  ⟨outside_step h.outside op, (asserted_machine_iff h).mpr hf⟩

/-- A station that is not linked sends nothing in an emergency. -/
theorem not_floods_emergency (hl : x.sm.currentState ≠ .linked) :
    ¬ x.Floods .emergencyManualControl inhibited := by
  rintro ⟨-, hb, -⟩
  exact hb (if_neg fun h => hl h.1)

theorem not_linked_of_abortsOnPtt {s : SM} (h : abortsOnPtt s = true) : s.currentState ≠ .linked := by
  intro hc
  unfold abortsOnPtt at h
  rw [hc] at h
  exact absurd h (by decide)

theorem asserted_clock (x : TxStation) (now : UInt32) :
    (x.step (.clock now)).path.modulator.asserted = (x.path.modulator.asserted ||
      decide ((0 < x.path.pttLeadDeadlineMs ∧ x.path.pttLeadDeadlineMs ≤ now) ∧
        x.path.pendingTxWords ≠ [] ∧
        maxTxSequenceWords + 1 < x.path.modulator.load + x.path.pendingTxWords.length)) := by
  show (x.path.tickPttTiming now).modulator.asserted = _
  unfold TxPath.tickPttTiming
  dsimp only
  by_cases h : 0 < x.path.pttLeadDeadlineMs ∧ x.path.pttLeadDeadlineMs ≤ now
  · rw [if_pos h, Modulator.asserted_enqueueWords]
    simp [h]
  · rw [if_neg h]
    simp [h]

theorem sound_step (h : x.Sound) (op : TxOp) (hf : ¬ x.Overfills op) : (x.step op).Sound := by
  cases op with
  | machine op inhibited => exact sound_machine h hf
  | clock now =>
    refine ⟨h.outside, ?_⟩
    rw [asserted_clock, h.quiet, Bool.false_or, decide_eq_false_iff_not]
    exact hf
  | pull => exact ⟨h.outside, (Modulator.asserted_pullSymbolFrame _).trans h.quiet⟩
  | setPttLead ms => exact ⟨h.outside, h.quiet⟩
  | manualPtt on inhibited =>
    have hy : ({ x with path := x.path.setManualPtt on inhibited } : TxStation).Sound := by
      refine ⟨h.outside, ?_⟩
      show (x.path.setManualPtt on inhibited).modulator.asserted = false
      unfold TxPath.setManualPtt
      repeat' split
      all_goals exact h.quiet
    unfold step
    dsimp only
    split
    · rename_i hp
      exact sound_machine hy (not_floods_emergency (not_linked_of_abortsOnPtt hp.2.2))
    · exact hy
  | emergencyStop inhibited =>
    have hm := sound_machine h hf
    exact ⟨hm.outside, hm.quiet⟩

theorem asserted_of_overfills (h : x.Sound) (op : TxOp) (hf : x.Overfills op) :
    ¬ (x.step op).path.modulator.asserted = false := by
  cases op with
  | machine op inhibited => exact fun ha => (asserted_machine_iff h).mp ha hf
  | clock now =>
    rw [asserted_clock, h.quiet, Bool.false_or, decide_eq_false_iff_not]
    exact not_not.mpr hf
  | emergencyStop inhibited => exact fun ha => (asserted_machine_iff h).mp ha hf
  | _ => exact absurd hf id

theorem sound_init : init.Sound := ⟨outside_init, rfl⟩

/-- **The assertion of the modulator holds along a run exactly when every burst handed to it, and
every flush of the PTT lead, finds room behind the words that still wait.** -/
theorem queue_iff (as : List TxOp) :
    Machine.AllStates step (fun x => x.path.modulator.asserted = false) init as ↔
      Machine.AllSteps step (fun x op => ¬ x.Overfills op) init as := by
  have hquiet : ∀ x, Sound x → x.path.modulator.asserted = false := fun x h => h.quiet
  refine Machine.allStates_iff_allSteps ?_ hquiet ?_ sound_init
  · exact fun x op h hf => sound_step h op hf
  · exact fun x op h hf => asserted_of_overfills h op (not_not.mp hf)

/-- A call with the default ten scan channels, between addresses of 15 characters, with a text of
90. -/
def fullCall : List TxOp :=
  [.machine (.set (.selfAddress "SIERRAALPHAONE1".toList)) false,
    .machine (.set (.targetScanChannels 10)) false,
    .machine (.set (.pendingMessage {
      isAmd := true, content := List.replicate 90 'A', linkAfterSend := true })) false,
    .machine (.initiateCall "TANGOBRAVOTWO22".toList) false, .clock 784,
    .machine (.update 784 {}) false, .clock 1829, .machine (.update 1829 {}) false]

theorem queue_fail : ¬ ∀ as : List TxOp,
    Machine.AllStates step (fun x => x.path.modulator.asserted = false) init as := by
  intro h
  have hlast := (h fullCall).last
  have hrun : (Machine.run step init fullCall).path.modulator.asserted = true := by decide +kernel
  exact absurd hlast (by rw [hrun]; decide)

end Run

end TxStation

end OpenALE
