import OpenALE.Control.Held

/-!
# The machine as its radio sees it

`Radio` is what decides the channel: the channel manager and the sounding sweep. `hops` are the
channels among the callbacks fired.

Results:
* `transitionTo_radio`: what a transition does to the radio.
* `update_tunes`: a clock tick hops, retries on the next calling channel or raises an event.
* `exec_tunes`: an operation that does not retune on its own leaves the radio to its event.
-/

namespace OpenALE

/-- The channels among the callbacks fired. -/
def hops (out : List Output) : List Channel :=
  out.filterMap fun o => match o with
    | .channelChange ch => some ch
    | _ => none

theorem hops_append (a b : List Output) : hops (a ++ b) = hops a ++ hops b :=
  List.filterMap_append

theorem hops_transmit (ws : List ALEWord) (now : UInt32) :
    hops (ws.map fun w => .transmit (w.stamp now)) = [] := by
  induction ws with
  | nil => rfl
  | cons w ws ih => exact ih

theorem hops_channels (chs : List Channel) : hops (chs.map .channelChange) = chs := by
  induction chs with
  | nil => rfl
  | cons ch chs ih => exact congrArg (ch :: ·) ih

/-- The channel manager and the sounding sweep. -/
structure Radio where
  manager : ChannelManager
  sweepChs : List Channel
  sweepIdx : Nat
  sweepActive : Bool
  deriving DecidableEq

namespace SM

/-- The machine as its radio sees it. -/
def radio (s : SM) : Radio where
  manager := s.channelManager
  sweepChs := s.snd.soundingSweepChs
  sweepIdx := s.snd.soundingSweepIdx
  sweepActive := s.snd.soundingSweepActive

/-- Neither the diagram nor the radio sees a difference. -/
structure Still (s p : SM) : Prop where
  control : p.control = s.control
  radio : p.radio = s.radio
  hops : hops p.out = hops s.out

theorem Still.refl (s : SM) : s.Still s := ⟨rfl, rfl, rfl⟩

theorem Still.trans {s p q : SM} (h : s.Still p) (h' : p.Still q) : s.Still q :=
  ⟨h'.control.trans h.control, h'.radio.trans h.radio, h'.hops.trans h.hops⟩

/-- A callback that is no hop. -/
theorem Still.emit {s p : SM} (h : s.Still p) {o : Output} (ho : OpenALE.hops [o] = []) :
    s.Still (p.emit o) :=
  ⟨h.control, h.radio, by
    show OpenALE.hops (p.out ++ [o]) = _
    rw [hops_append, ho, List.append_nil, h.hops]⟩

theorem Still.rxEnabled {s p : SM} (h : s.Still p) (on : Bool) : s.Still (p.rxEnabled on) :=
  h.emit rfl

theorem Still.operator {s p : SM} (h : s.Still p) (e : OperatorEvent) : s.Still (p.operator e) :=
  h.emit rfl

theorem Still.transmitWords {s p : SM} (h : s.Still p) (ws : List ALEWord) :
    s.Still (p.transmitWords ws) := by
  rw [transmitWords_eq]
  refine ⟨h.control, h.radio, ?_⟩
  show OpenALE.hops (p.out ++ _) = _
  rw [hops_append, hops_transmit, List.append_nil, h.hops]

theorem Still.armDrain {s p : SM} (h : s.Still p) (d : UInt32) : s.Still (p.armDrain d) := by
  unfold SM.armDrain
  split
  · exact ⟨h.control, h.radio, h.hops⟩
  · exact h

/-- A burst with its watchdog. -/
theorem Still.burst {s p : SM} (h : s.Still p) (ws : List ALEWord) (d : UInt32) :
    s.Still ((p.transmitWords ws).armDrain d) := (h.transmitWords ws).armDrain d

/-- The radio is left to an event, if one is raised at all. -/
def Tunes (s s' : SM) : Prop :=
  s.Still s' ∨ ∃ p e, s.Still p ∧ e ≠ .errorOccurred ∧ s' = (p.processEvent e).1

section Tunes

variable {s p s' : SM}

theorem Still.tunes (h : s.Still s') : s.Tunes s' := Or.inl h

theorem Still.raises (h : s.Still p) (e : ALEEvent) (he : e ≠ .errorOccurred) :
    s.Tunes (p.processEvent e).1 := Or.inr ⟨p, e, h, he, rfl⟩

theorem Still.andThen (h : s.Still p) (h' : p.Tunes s') : s.Tunes s' := by
  rcases h' with h' | ⟨q, e, hq, he, hs⟩
  · exact (h.trans h').tunes
  · exact Or.inr ⟨q, e, h.trans hq, he, hs⟩

end Tunes

/-! ## Transitions -/

/-- What entering `t` does to the channel manager; `hop` is the calling channel. -/
def arrive (m : ChannelManager) (t : ALEState) (now : UInt32) (hop : Option Channel) :
    ChannelManager × List Channel :=
  match t with
  | .idle => (m.clearOverride, [])
  | .scanning => m.clearOverride.start now
  | .calling => (m, hop.toList)
  | _ => (m, [])

/-- The calling channel the index points at. -/
def callingChannel (s : SM) : Option Channel :=
  s.calling.callingChannels[s.calling.callingChannelIndex]?

section Transition

variable {s : SM} {t : ALEState}

theorem leaveFor_radio (s : SM) (t : ALEState) : (s.leaveFor t).radio = s.radio := by
  unfold leaveFor exitState
  cases s.currentState <;> rfl

theorem leaveFor_callingChannel (s : SM) (t : ALEState) :
    (s.leaveFor t).callingChannel = s.callingChannel := by
  unfold leaveFor exitState
  cases s.currentState <;> rfl

theorem enterState_radio (s : SM) (t : ALEState) :
    (s.enterState t).radio =
        { s.radio with manager := (arrive s.channelManager t s.currentTimeMs s.callingChannel).1 } ∧
      hops (s.enterState t).out =
        hops s.out ++ (arrive s.channelManager t s.currentTimeMs s.callingChannel).2 := by
  have hnil : ∀ o : List Output, hops (o ++ [.rxEnabled true]) = hops o ++ [] := by
    intro o
    rw [hops_append]
    rfl
  have hchs : ∀ (o : List Output) (chs : List Channel),
      hops (o ++ chs.map .channelChange ++ [.rxEnabled true]) = hops o ++ chs := by
    intro o chs
    rw [hops_append, hops_append, hops_channels]
    exact List.append_nil _
  cases t
  case scanning => exact ⟨rfl, hchs _ _⟩
  case calling =>
    refine ⟨rfl, ?_⟩
    have h := hchs s.out (s.callingChannel.toList.flatMap ChannelManager.hopCalling)
    refine Eq.trans h ?_
    unfold arrive
    cases s.callingChannel <;> rfl
  all_goals exact ⟨rfl, hnil _⟩

/-- **What a transition does to the radio.** -/
theorem transitionTo_radio (h : s.currentState ≠ t) :
    (s.transitionTo t).1.radio =
        { s.radio with manager := (arrive s.channelManager t s.currentTimeMs s.callingChannel).1 } ∧
      hops (s.transitionTo t).1.out =
        hops s.out ++ (arrive s.channelManager t s.currentTimeMs s.callingChannel).2 := by
  obtain ⟨h1, h2⟩ := enterState_radio (s.leaveFor t) t
  have hr := leaveFor_radio s t
  have hm : (s.leaveFor t).channelManager = s.channelManager := congrArg Radio.manager hr
  have ht : (s.leaveFor t).currentTimeMs = s.currentTimeMs := (leaveFor_kept s t).currentTimeMs
  rw [hr, hm, ht, leaveFor_callingChannel] at h1
  rw [hm, ht, leaveFor_callingChannel, leaveFor_out] at h2
  rw [transitionTo_of_ne h]
  refine ⟨h1, ?_⟩
  show hops (((s.leaveFor t).enterState t).out ++ [_]) = _
  rw [hops_append, h2]
  exact List.append_nil _

end Transition

/-! ## The clock -/

theorem linkTimeout_tunes (s : SM) : s.Tunes s.linkTimeout :=
  (Still.refl s).raises _ (by decide)

theorem linkEstablished_tunes (s : SM) : s.Tunes s.linkEstablished :=
  ((Still.refl s).operator _).raises _ (by decide)

theorem endSounding_tunes (s : SM) : s.Tunes s.endSounding :=
  (Still.refl s).raises _ (by decide)

theorem amdDeclined_tunes (s : SM) (e : OperatorEvent) : s.Tunes (s.amdDeclined e) :=
  ((Still.refl s).operator e).raises _ (by decide)

/-- A scanning tick hops, re-anchors the dwell or leaves the channel manager alone. -/
theorem handleScanning_radio (s : SM) (env : Env) :
    (s.handleScanning env).control = s.control ∧
      ∃ r : ChannelManager × List Channel,
        (s.handleScanning env).radio = { s.radio with manager := r.1 } ∧
        hops (s.handleScanning env).out = hops s.out ++ r.2 ∧
        (r = (s.channelManager, []) ∨ r = (s.channelManager.anchorDwell s.currentTimeMs, []) ∨
          r = s.channelManager.hopNext s.currentTimeMs ∨
          r = (s.channelManager.anchorDwell s.currentTimeMs).hopNext s.currentTimeMs) := by
  have hout : ∀ (r : ChannelManager × List Channel),
      hops (s.out ++ r.2.map .channelChange) = hops s.out ++ r.2 := by
    intro r
    rw [hops_append, hops_channels]
  unfold handleScanning
  dsimp only
  by_cases hp : s.scan.scanningPhase = .scanPause
  · rw [if_pos hp]
    split
    · exact ⟨rfl, _, rfl, hout _, Or.inr (Or.inr (Or.inl rfl))⟩
    · exact ⟨rfl, (s.channelManager, []), rfl, (List.append_nil _).symm, Or.inl rfl⟩
  · rw [if_neg hp]
    by_cases hr : env.hopReady = true ∧ ¬ s.scan.prevHopReady = true
    · rw [if_pos hr]
      split
      · exact ⟨rfl, _, rfl, hout _, Or.inr (Or.inr (Or.inr rfl))⟩
      · exact ⟨rfl, (s.channelManager.anchorDwell s.currentTimeMs, []), rfl,
          (List.append_nil _).symm, Or.inr (Or.inl rfl)⟩
    · rw [if_neg hr]
      split
      · exact ⟨rfl, _, rfl, hout _, Or.inr (Or.inr (Or.inl rfl))⟩
      · exact ⟨rfl, (s.channelManager, []), rfl, (List.append_nil _).symm, Or.inl rfl⟩

/-- `s'` is `s` with its call restarted on channel `ch`, the next of the list. -/
structure RetriesOn (s s' : SM) (ch : Channel) : Prop where
  next : s.calling.callingChannels[s.calling.callingChannelIndex + 1]? = some ch
  control : s'.control = s.control
  radio : s'.radio = s.radio
  hops : hops s'.out = hops s.out ++ [ch]
  channels : s'.calling.callingChannels = s.calling.callingChannels
  index : s'.calling.callingChannelIndex = s.calling.callingChannelIndex + 1
  phase : s'.calling.callingPhase = .lbt

theorem tryNextCallingChannel_radio (s : SM) :
    s.Tunes s.tryNextCallingChannel ∨ ∃ ch, s.RetriesOn s.tryNextCallingChannel ch := by
  unfold tryNextCallingChannel
  split
  · rename_i ch hch
    refine Or.inr ⟨ch, hch, rfl, rfl, ?_, rfl, rfl, rfl⟩
    exact hops_append s.out [.channelChange ch]
  · left
    have h : s.Still s.nextChannelIndex := ⟨rfl, rfl, rfl⟩
    exact (h.operator .noChannelsLeft).raises .linkTimeout (by decide)

/-- A calling tick retries on the next channel or leaves the radio to its event. -/
theorem handleCalling_radio (s : SM) (env : Env) :
    s.Tunes (s.handleCalling env) ∨ ∃ ch, s.RetriesOn (s.handleCalling env) ch := by
  have hr := tryNextCallingChannel_radio s
  unfold handleCalling
  cases s.calling.callingPhase with
  | lbt =>
    show s.Tunes (s.handleCallingLbt env) ∨ ∃ ch, s.RetriesOn (s.handleCallingLbt env) ch
    unfold handleCallingLbt
    split
    · exact hr
    · left
      split
      · have h : s.Still { s with calling := { s.calling with
            callingPhase := .tuning, tuneStartMs := s.currentTimeMs } } := ⟨rfl, rfl, rfl⟩
        exact (h.rxEnabled false).tunes
      · exact (Still.refl s).tunes
  | tuning =>
    left
    show s.Tunes s.handleTuning
    unfold handleTuning
    split
    · rw [enqueueCallSequence_eq]
      have h : s.Still { s with calling := { s.calling with
          firstCallTxMs := s.currentTimeMs, callCyclesInPhase := 0,
          callingPhase := s.firstTxPhase } } := ⟨rfl, rfl, rfl⟩
      exact (h.transmitWords _).tunes
    · exact (Still.refl s).tunes
  | listening =>
    show s.Tunes s.handleListening ∨ ∃ ch, s.RetriesOn s.handleListening ch
    unfold handleListening
    have h : s.Still { s with calling := { s.calling with
        callingPhase := .sendingAck, callCyclesInPhase := 0,
        collectingRemoteConclusion := false } } := ⟨rfl, rfl, rfl⟩
    repeat' split
    all_goals
      first
        | exact hr
        | exact Or.inl (Still.refl s).tunes
        | exact Or.inl (h.rxEnabled false).tunes
  | sendingAck =>
    left
    show s.Tunes s.handleSendingAck
    unfold handleSendingAck
    split
    · split
      · have h : s.Still { s with tx := { s.tx with txDrainStartMs := 0 } } := ⟨rfl, rfl, rfl⟩
        exact h.raises .linkTimeout (by decide)
      · exact (Still.refl s).tunes
    · split
      · exact ((Still.refl s).burst _ _).tunes
      · exact (Still.refl s).tunes
  | scanningCall | groupScanningCall | leadingCall | conclusion =>
    exact Or.inl (Still.refl s).tunes

theorem buildResponseWords_still (s : SM) : s.Still s.buildResponseWords := by
  have h : s.Still { s with pend := { s.pend with
      pendingLqaCmdSet := false, pendingLqaReportSet := false } } := ⟨rfl, rfl, rfl⟩
  exact h.burst _ _

theorem handleHandshake_tunes (s : SM) (env : Env) : s.Tunes (s.handleHandshake env) := by
  unfold handleHandshake
  cases s.hs.handshakePhase with
  | waitCycleEnd =>
    show s.Tunes s.handleWaitCycleEnd
    unfold handleWaitCycleEnd
    have h : s.Still { s with link := { s.link with activeCallTo := s.hs.callerAddress } } :=
      ⟨rfl, rfl, rfl⟩
    have h' : s.Still { s with hs := { s.hs with
        handshakePhase := .slotWait, slotWaitStartMs := s.currentTimeMs } } := ⟨rfl, rfl, rfl⟩
    repeat' split
    all_goals
      first
        | exact linkTimeout_tunes s
        | exact h.andThen (linkEstablished_tunes _)
        | exact h'.tunes
        | exact (Still.refl s).tunes
  | channelCheck =>
    show s.Tunes (s.handleChannelCheck env)
    unfold handleChannelCheck
    split
    · exact linkTimeout_tunes s
    · split
      · have h : (s.rxEnabled false).Still { s.rxEnabled false with hs := { (s.rxEnabled false).hs with
            handshakePhase := .sendingResponse, hsWordsInPhase := 0 } } := ⟨rfl, rfl, rfl⟩
        exact (((Still.refl s).rxEnabled false).trans (h.trans (buildResponseWords_still _))).tunes
      · exact (Still.refl s).tunes
  | sendingResponse =>
    show s.Tunes s.handleSendingResponse
    unfold handleSendingResponse
    split
    · have h : s.Still { s with tx := { s.tx with txDrainStartMs := 0 } } := ⟨rfl, rfl, rfl⟩
      exact h.andThen (linkTimeout_tunes _)
    · exact (Still.refl s).tunes
  | waitAck =>
    show s.Tunes s.handleWaitAck
    unfold handleWaitAck
    repeat' split
    all_goals
      first
        | exact linkTimeout_tunes s
        | exact linkEstablished_tunes s
        | exact (Still.refl s).tunes
  | slotWait =>
    show s.Tunes s.handleSlotWait
    unfold handleSlotWait
    have h : s.Still { s with hs := { s.hs with
        handshakePhase := .channelCheck, hsLbtStartMs := s.currentTimeMs } } := ⟨rfl, rfl, rfl⟩
    split
    · exact h.tunes
    · exact (Still.refl s).tunes
  | awaitAccept =>
    have h : s.Still s.handleAwaitAccept := ⟨rfl, rfl, rfl⟩
    exact h.tunes

theorem twaTimeout_tunes (s : SM) : s.Tunes s.twaTimeout := by
  unfold twaTimeout
  dsimp only
  have h : s.Still { s with link := { s.link with linkedTerminating := true } } := ⟨rfl, rfl, rfl⟩
  split
  · split
    · exact (h.transmitWords _).andThen (linkTimeout_tunes _)
    · exact h.andThen (linkTimeout_tunes _)
  · exact (Still.refl s).tunes

theorem startOrderwire_still (s : SM) : s.Still s.startOrderwire := by
  have h : s.Still { s with ow := { s.ow with
      orderwirePending := false, orderwireTransmitting := true } } := ⟨rfl, rfl, rfl⟩
  exact (h.rxEnabled false).burst _ _

theorem linkedAmdRetryOrFail_still (s : SM) : s.Still s.linkedAmdRetryOrFail := by
  unfold linkedAmdRetryOrFail
  dsimp only
  split
  · exact ⟨rfl, rfl, hops_append s.out [.operator .amdRetry] |>.trans (List.append_nil _)⟩
  · exact ⟨rfl, rfl, hops_append s.out [.operator .amdNotDelivered] |>.trans (List.append_nil _)⟩

theorem idleWarning_still (s : SM) : s.Still s.idleWarning := by
  unfold idleWarning rearmIdleWarning
  dsimp only
  split <;> split <;>
    first
      | exact ⟨rfl, rfl, rfl⟩
      | exact ⟨rfl, rfl, hops_append s.out [_] |>.trans (List.append_nil _)⟩

theorem handleLinkedActive_tunes (s : SM) : s.Tunes s.handleLinkedActive := by
  have hf := linkedAmdRetryOrFail_still s
  unfold handleLinkedActive
  split
  · exact (Still.refl s).tunes
  split
  · exact (startOrderwire_still s).tunes
  split
  · unfold handleLinkedAmdRetry
    split
    · exact Still.tunes ⟨rfl, rfl, rfl⟩
    · exact (Still.refl s).tunes
  split
  · unfold handleLinkedAmdListening
    repeat' split
    all_goals
      first
        | exact hf.tunes
        | exact (Still.refl s).tunes
        | exact Still.tunes ⟨rfl, rfl, rfl⟩
  split
  · unfold handleLinkedAmdWaitAck endLinkedAmd
    repeat' split
    all_goals exact Still.tunes ⟨rfl, rfl, rfl⟩
  · exact (idleWarning_still s).andThen (twaTimeout_tunes _)

theorem handleLinked_tunes (s : SM) : s.Tunes s.handleLinked := by
  unfold handleLinked
  split
  · unfold linkedDrainTimeout
    split
    · have h : s.Still { s with
          link := { s.link with linkedTerminating := false }
          tx := { s.tx with txDrainStartMs := 0 } } := ⟨rfl, rfl, rfl⟩
      exact (h.rxEnabled true).raises .linkTerminated (by decide)
    · have h : s.Still { s with
          ow := { s.ow with orderwireTransmitting := false }
          tx := { s.tx with txDrainStartMs := 0 } } := ⟨rfl, rfl, rfl⟩
      exact (h.rxEnabled true).tunes
  split
  · exact (Still.refl s).tunes
  split
  · dsimp only
    have h : s.Still { s with link := { s.link with linkedTwasAddr := [] } } := ⟨rfl, rfl, rfl⟩
    split
    · exact h.raises .linkTerminated (by decide)
    · exact h.andThen (handleLinkedActive_tunes _)
  · exact handleLinkedActive_tunes s

theorem openSoundingWindow_still (s : SM) : s.Still s.openSoundingWindow := by
  have h : s.Still { s with snd := { s.snd with
      soundingPhase := .listening, soundingListeningStartMs := s.currentTimeMs } } := ⟨rfl, rfl, rfl⟩
  exact h.rxEnabled true

theorem startSounding_tunes (s : SM) : s.Tunes s.startSounding := by
  have h : s.Still { s with snd := { s.snd with soundingPhase := .transmitting } } := ⟨rfl, rfl, rfl⟩
  unfold startSounding
  dsimp only
  split
  · have h' : s.Still { s with
        snd := { s.snd with soundingPhase := .transmitting }
        pend := { s.pend with pendingNoiseCmdSet := false }
        out := s.out ++ [.rxEnabled false] } := ⟨rfl, rfl, (h.rxEnabled false).hops⟩
    exact (h'.transmitWords _).tunes
  · exact h.andThen (endSounding_tunes _)

theorem handleSounding_tunes (s : SM) (env : Env) : s.Tunes (s.handleSounding env) := by
  have ho : s.Still s.openIfDrained := by
    unfold openIfDrained
    split
    · exact openSoundingWindow_still s
    · exact Still.refl s
  unfold handleSounding
  split
  · unfold handleSoundingLbt
    split
    · exact endSounding_tunes s
    · split
      · exact startSounding_tunes s
      · exact (Still.refl s).tunes
  · dsimp only
    split
    · exact ho.tunes
    · split
      · exact ho.andThen (endSounding_tunes _)
      · exact ho.tunes

theorem allcallDrainTimeout_still (s : SM) : s.Still s.allcallDrainTimeout := by
  have h : s.Still { s with
      allcallBroadcasting := false
      tx := { s.tx with txDrainStartMs := 0, wordsPending := 0 } } := ⟨rfl, rfl, rfl⟩
  exact h.rxEnabled true

/-- What a clock tick does to the radio. -/
inductive TickTunes (s s' : SM) : Prop where
  | tunes (h : s.Tunes s')
  | retries (hc : s.currentState = .calling) (ch : Channel) (h : s.RetriesOn s' ch)
  | scans (hc : s.currentState = .scanning) (hctl : s'.control = s.control) (now : UInt32)
      (r : ChannelManager × List Channel) (hr : s'.radio = { s.radio with manager := r.1 })
      (hh : hops s'.out = hops s.out ++ r.2)
      (hm : r = (s.channelManager, []) ∨ r = (s.channelManager.anchorDwell now, []) ∨
          r = s.channelManager.hopNext now ∨
          r = (s.channelManager.anchorDwell now).hopNext now)

theorem tick_tunes (s : SM) (env : Env) : s.TickTunes (s.tick env) := by
  unfold tick
  split
  · exact .tunes (linkTimeout_tunes s)
  split
  · exact .tunes (allcallDrainTimeout_still s).tunes
  unfold handle
  cases hc : s.currentState with
  | scanning =>
    obtain ⟨hctl, r, hr, hh, hm⟩ := handleScanning_radio s env
    exact .scans hc hctl s.currentTimeMs r hr hh hm
  | calling =>
    rcases handleCalling_radio s env with h | ⟨ch, h⟩
    · exact .tunes h
    · exact .retries hc ch h
  | handshake => exact .tunes (handleHandshake_tunes s env)
  | linked => exact .tunes (handleLinked_tunes s)
  | sounding => exact .tunes (handleSounding_tunes s env)
  | idle | error => exact .tunes (Still.refl s).tunes

theorem update_tunes (s : SM) (now : UInt32) (env : Env) : s.TickTunes (s.update now env) := by
  unfold update
  split
  · exact .tunes (Still.refl s).tunes
  have hk : s.Still { s with currentTimeMs := now } := ⟨rfl, rfl, rfl⟩
  cases tick_tunes { s with currentTimeMs := now } env with
  | tunes h => exact .tunes (hk.andThen h)
  | retries hc ch h =>
    exact .retries hc ch ⟨h.next, h.control, h.radio, h.hops, h.channels, h.index, h.phase⟩
  | scans hc hctl t r hr hh hm => exact .scans hc hctl t r hr hh hm

/-! ## Words -/

theorem updateLqa_still (s : SM) (lq : LinkQuality) : s.Still (s.updateLqa lq) := by
  unfold updateLqa
  split
  · exact (Still.refl s).emit rfl
  · exact Still.refl s

theorem detectIncomingCall_tunes (s : SM) (r : WordRole) : s.Tunes (s.detectIncomingCall r) := by
  unfold detectIncomingCall
  cases r with
  | toSelf a =>
    have h : s.Still { s with link := { s.link with activeCallTo := a } } := ⟨rfl, rfl, rfl⟩
    exact h.raises .callDetected (by decide)
  | allcall a =>
    have h : s.Still { s with hs := { s.hs with allcallSilent := true } } := ⟨rfl, rfl, rfl⟩
    exact h.raises .callDetected (by decide)
  | _ => exact (Still.refl s).tunes

theorem reactScanning_tunes {s : SM} (hs : s.currentState = .scanning) (r : WordRole) :
    s.Tunes (s.reactScanning r) := by
  have hd := detectIncomingCall_tunes s r
  unfold reactScanning
  dsimp only
  split
  · exact hd
  · rename_i hst
    -- no call was detected, or the state would be another
    have hq : s.detectIncomingCall r = s := by
      have hf := (detectIncomingCall_reacts s r).control
      have hc : (s.detectIncomingCall r).currentState =
          (s.control.fire s.moreSweep (detectTrigger r)).state := congrArg Control.state hf
      have hs' : s.control.state = .scanning := hs
      rw [not_not] at hst
      cases r <;> first | rfl | skip
      all_goals
        rw [hst] at hc
        simp only [detectTrigger, Control.fire, Control.event, hs', Control.goTo_state] at hc
        exact absurd hc (by decide)
    rw [hq]
    exact Still.tunes ⟨rfl, rfl, rfl⟩

theorem reactCalling_tunes (s : SM) (r : WordRole) : s.Tunes (s.reactCalling r) := by
  unfold reactCalling
  split
  · exact (Still.refl s).tunes
  unfold reactListening
  repeat' split
  all_goals
    first
      | exact ((Still.refl s).operator .callRejected).raises .linkTimeout (by decide)
      | exact Still.tunes ⟨rfl, rfl, rfl⟩

theorem reactHandshake_tunes (s : SM) (r : WordRole) (w : ALEWord) :
    s.Tunes (s.reactHandshake r w) := by
  unfold reactHandshake
  split
  · exact linkTimeout_tunes s
  cases s.hs.handshakePhase with
  | waitCycleEnd =>
    show s.Tunes (s.reactWaitCycleEnd r w)
    unfold reactWaitCycleEnd
    repeat' split
    all_goals exact Still.tunes ⟨rfl, rfl, rfl⟩
  | waitAck =>
    show s.Tunes (s.reactWaitAck r)
    unfold reactWaitAck
    repeat' split
    all_goals
      first
        | exact amdDeclined_tunes s _
        | exact Still.tunes ⟨rfl, rfl, rfl⟩
  | _ => exact (Still.refl s).tunes

theorem reactLinked_still (s : SM) (r : WordRole) : s.Still (s.reactLinked r) := by
  have hc : ∀ r, s.Still (s.reactLinkedAmdConfirm r) := by
    intro r
    unfold reactLinkedAmdConfirm
    repeat' split
    all_goals exact ⟨rfl, rfl, rfl⟩
  unfold reactLinked
  repeat' split
  all_goals first | exact hc _ | exact ⟨rfl, rfl, rfl⟩

theorem react_tunes (s : SM) (r : WordRole) (w : ALEWord) : s.Tunes (s.react r w) := by
  unfold react
  cases hs : s.currentState with
  | idle => exact detectIncomingCall_tunes s r
  | scanning => exact reactScanning_tunes hs r
  | calling => exact reactCalling_tunes s r
  | handshake => exact reactHandshake_tunes s r w
  | linked => exact (reactLinked_still s r).tunes
  | sounding =>
    show s.Tunes (s.reactSounding r)
    unfold reactSounding
    split
    · exact endSounding_tunes s
    · split
      · exact detectIncomingCall_tunes s r
      · exact (Still.refl s).tunes
  | error => exact (Still.refl s).tunes

theorem onInvalidWord_tunes (s : SM) : s.Tunes s.onInvalidWord := by
  unfold onInvalidWord countError
  have h : s.Still { s with hs := { s.hs with contiguousErrors := s.hs.contiguousErrors + 1 } } :=
    ⟨rfl, rfl, rfl⟩
  dsimp only
  repeat' split
  all_goals
    first
      | exact endSounding_tunes s
      | exact h.andThen (linkTimeout_tunes _)
      | exact linkTimeout_tunes s
      | exact Still.tunes ⟨rfl, rfl, rfl⟩

theorem processReceivedWord_tunes (s : SM) (w : ALEWord) : s.Tunes (s.processReceivedWord w) := by
  unfold processReceivedWord
  split
  · exact onInvalidWord_tunes s
  · have h : s.Still { s with
        hs := { s.hs with contiguousErrors := 0 }, lastWordTimeMs := s.currentTimeMs } :=
      ⟨rfl, rfl, rfl⟩
    exact (h.trans (updateLqa_still _ _)).andThen (react_tunes _ _ w)

/-! ## Completions -/

theorem completeCalling_tunes (s : SM) : s.Tunes s.completeCalling := by
  unfold completeCalling
  split
  · exact (Still.refl s).tunes
  have hp : s.Still s.popWord.countCycle := ⟨rfl, rfl, rfl⟩
  refine hp.andThen ?_
  generalize s.popWord.countCycle = p
  have ha : ∀ n t, p.Still (p.advanceAfter n t) := by
    intro n t
    unfold advanceAfter
    split <;> exact ⟨rfl, rfl, rfl⟩
  unfold completeCallingPhase
  cases p.calling.callingPhase with
  | scanningCall | groupScanningCall | leadingCall => exact (ha _ _).tunes
  | conclusion =>
    show p.Tunes p.completeConclusion
    unfold completeConclusion
    split
    · have h : p.Still { p with calling := { p.calling with
          callingPhase := .listening, listeningStartMs := p.currentTimeMs
          callCyclesInPhase := 0 } } := ⟨rfl, rfl, rfl⟩
      exact (h.rxEnabled true).tunes
    · exact (Still.refl p).tunes
  | sendingAck =>
    show p.Tunes p.completeAck
    unfold completeAck
    repeat' split
    all_goals
      first
        | exact amdDeclined_tunes p _
        | exact linkEstablished_tunes p
        | exact (Still.refl p).tunes
  | lbt | tuning | listening => exact (Still.refl p).tunes

theorem completeResponse_tunes (s : SM) : s.Tunes s.completeResponse := by
  unfold completeResponse
  split
  · exact (Still.refl s).tunes
  have hp : s.Still s.popWord.countHsWord := ⟨rfl, rfl, rfl⟩
  refine hp.andThen ?_
  dsimp only
  generalize s.popWord.countHsWord = p
  split
  · unfold responseDone
    split
    · have h : p.Still { p with hs := { p.hs with pendingReject := false } } := ⟨rfl, rfl, rfl⟩
      exact h.andThen (linkTimeout_tunes _)
    · have h : p.Still { p with hs := { p.hs with
          handshakePhase := .waitAck, hsAckStartMs := p.currentTimeMs, hsAckToMs := 0,
          hsTlwwStartMs := 0, hsAckTisRcvd := false } } := ⟨rfl, rfl, rfl⟩
      exact (h.rxEnabled true).tunes
  · exact (Still.refl p).tunes

theorem completeTermination_tunes (s : SM) : s.Tunes s.completeTermination := by
  unfold completeTermination
  dsimp only
  split
  · have h : s.Still { s.popWord with
        link := { s.popWord.link with linkedTerminating := false }
        tx := { s.popWord.tx with txDrainStartMs := 0 } } := ⟨rfl, rfl, rfl⟩
    exact h.raises .linkTerminated (by decide)
  · exact Still.tunes ⟨rfl, rfl, rfl⟩

theorem amdHandOff_still (s : SM) : s.Still s.amdHandOff := by
  unfold amdHandOff
  split
  · exact ⟨rfl, rfl, rfl⟩
  · exact ⟨rfl, rfl, rfl⟩
  · have h : s.Still { s with amd := { s.amd with linkedAmdPhase := .none } } := ⟨rfl, rfl, rfl⟩
    exact h.operator .amdDelivered
  · exact Still.refl s

theorem completeOrderwire_still (s : SM) : s.Still s.completeOrderwire := by
  unfold completeOrderwire
  dsimp only
  split
  · have h : s.Still { s.popWord with
        ow := { s.popWord.ow with orderwireTransmitting := false }
        tx := { s.popWord.tx with txDrainStartMs := 0 } } := ⟨rfl, rfl, rfl⟩
    exact (h.rxEnabled true).trans (amdHandOff_still _)
  · exact ⟨rfl, rfl, rfl⟩

theorem completeSounding_still (s : SM) : s.Still s.completeSounding := by
  have h : s.Still s.popWord := ⟨rfl, rfl, rfl⟩
  unfold completeSounding
  dsimp only
  split
  · exact h.trans (openSoundingWindow_still _)
  · exact h

theorem completeAllcall_still (s : SM) : s.Still s.completeAllcall := by
  unfold completeAllcall
  dsimp only
  split
  · have h : s.Still { s.popWord with
        allcallBroadcasting := false
        tx := { s.popWord.tx with txDrainStartMs := 0 } } := ⟨rfl, rfl, rfl⟩
    exact h.rxEnabled true
  · exact ⟨rfl, rfl, rfl⟩

theorem onWordComplete_tunes (s : SM) : s.Tunes s.onWordComplete := by
  unfold onWordComplete
  split
  · exact completeTermination_tunes s
  split
  · exact (completeOrderwire_still s).tunes
  split
  · exact (completeSounding_still s).tunes
  split
  · exact (completeAllcall_still s).tunes
  split
  · exact completeCalling_tunes s
  split
  · exact completeResponse_tunes s
  · exact (Still.refl s).tunes

/-! ## The API -/

theorem callRequest_tunes {s p : SM} (h : s.Still p) : s.Tunes p.callRequest.1 :=
  h.raises .callRequest (by decide)

theorem initiateCall_tunes (s : SM) (target : Str) : s.Tunes (s.initiateCall target).1 := by
  unfold initiateCall
  split
  · exact (Still.refl s).tunes
  · exact callRequest_tunes ⟨rfl, rfl, rfl⟩

theorem initiateNetCall_tunes (s : SM) (a : Str) : s.Tunes (s.initiateNetCall a).1 := by
  unfold initiateNetCall
  split
  · exact (Still.refl s).tunes
  · exact callRequest_tunes ⟨rfl, rfl, rfl⟩

theorem initiateGroupCall_tunes (s : SM) (ms : List Str) : s.Tunes (s.initiateGroupCall ms).1 := by
  unfold initiateGroupCall
  split
  · exact (Still.refl s).tunes
  split
  · exact (Still.refl s).tunes
  · exact callRequest_tunes ⟨rfl, rfl, rfl⟩

theorem sendAllcallBroadcast_still (s : SM) (a t : Str) (l : Bool) :
    s.Still (s.sendAllcallBroadcast a t l).1 := by
  unfold sendAllcallBroadcast
  repeat' split
  all_goals first | exact Still.refl s | skip
  have h : s.Still { s with allcallBroadcasting := true } := ⟨rfl, rfl, rfl⟩
  exact (h.rxEnabled false).burst _ _

theorem terminateLink_tunes (s : SM) : s.Tunes s.terminateLink := by
  unfold terminateLink
  split
  · exact (Still.refl s).tunes
  dsimp only
  have h : s.Still { s with link := { s.link with linkedTerminating := true } } := ⟨rfl, rfl, rfl⟩
  have ht := (h.transmitWords (termination s.link.activeCallTo s.selfAddress)).rxEnabled false
  generalize (SM.transmitWords _ _).rxEnabled false = p at ht ⊢
  split
  · have hq : p.Still { p with link := { p.link with linkedTerminating := false } } :=
      ⟨rfl, rfl, rfl⟩
    exact (ht.trans hq).raises .linkTerminated (by decide)
  · have hq : p.Still { p with tx := { p.tx with
        txDrainStartMs := p.currentTimeMs, txDrainDeadlineMs := txDrainTimeoutMs } } :=
      ⟨rfl, rfl, rfl⟩
    exact (ht.trans hq).tunes

/-- The operations that retune on their own, or take any event at all. -/
def retunes : Op → Bool
  | .processEvent _ | .update _ _ | .sendSoundingSweep _ | .emergencyManualControl => true
  | .set (.configureScan _) | .set (.addScanChannel _) => true
  | _ => false

/-- **Only six operations do more to the radio than raise an event.** -/
theorem exec_tunes (s : SM) {op : Op} (hp : retunes op = false) : s.Tunes (s.exec op) := by
  cases op with
  | processEvent e => exact absurd hp.symm Bool.false_ne_true
  | update now env => exact absurd hp.symm Bool.false_ne_true
  | sendSoundingSweep chs => exact absurd hp.symm Bool.false_ne_true
  | emergencyManualControl => exact absurd hp.symm Bool.false_ne_true
  | processReceivedWord w => exact processReceivedWord_tunes s w
  | onWordComplete => exact onWordComplete_tunes s
  | initiateCall target => exact initiateCall_tunes s target
  | initiateNetCall a => exact initiateNetCall_tunes s a
  | initiateGroupCall ms => exact initiateGroupCall_tunes s ms
  | respondToCall =>
    show s.Tunes s.respondToCall.1
    unfold respondToCall
    repeat' split
    all_goals
      first
        | exact (Still.refl s).tunes
        | exact (Still.refl s).raises .handshakeComplete (by decide)
  | sendSounding =>
    show s.Tunes s.sendSounding.1
    unfold sendSounding
    split
    · exact (Still.refl s).tunes
    · exact (Still.refl s).raises .soundingRequest (by decide)
  | sendAllcallBroadcast a t l => exact (sendAllcallBroadcast_still s a t l).tunes
  | terminateLink => exact terminateLink_tunes s
  | triggerLinkedOrderwire ws d =>
    show s.Tunes (s.triggerLinkedOrderwire ws d)
    unfold triggerLinkedOrderwire
    split <;> exact Still.tunes ⟨rfl, rfl, rfl⟩
  | sendLinkedAmd ws p n =>
    show s.Tunes (s.sendLinkedAmd ws p n)
    unfold sendLinkedAmd
    split <;> exact Still.tunes ⟨rfl, rfl, rfl⟩
  | respondToLinkedAmd a ws =>
    show s.Tunes (s.respondToLinkedAmd a ws)
    unfold respondToLinkedAmd
    repeat' split
    all_goals exact Still.tunes ⟨rfl, rfl, rfl⟩
  | onLinkActivity =>
    show s.Tunes s.onLinkActivity
    unfold onLinkActivity
    split <;> exact Still.tunes ⟨rfl, rfl, rfl⟩
  | resetLinkIdleTimer =>
    show s.Tunes s.resetLinkIdleTimer
    unfold resetLinkIdleTimer
    split <;> exact Still.tunes ⟨rfl, rfl, rfl⟩
  | updateLinkQuality lq => exact (updateLqa_still s lq).tunes
  | beginScanPause t =>
    show s.Tunes (s.beginScanPause t)
    unfold beginScanPause
    split <;> exact Still.tunes ⟨rfl, rfl, rfl⟩
  | extendPeerWaitWindow d => exact Still.tunes ⟨rfl, rfl, rfl⟩
  | set x =>
    cases x with
    | configureScan c => exact absurd hp.symm Bool.false_ne_true
    | addScanChannel ch => exact absurd hp.symm Bool.false_ne_true
    | selfAddress a =>
      show s.Tunes (s.setSelfAddress a)
      unfold setSelfAddress
      split <;> exact Still.tunes ⟨rfl, rfl, rfl⟩
    | _ => exact Still.tunes ⟨rfl, rfl, rfl⟩

end SM

end OpenALE
