import OpenALE.Control.Linked

/-!
# Bursts: the clock

What a transition and a clock tick do to the machine as its transmitter sees it, and what they
signal to the antenna.

Results:
* `transitionTo_yields`: a transition opens the receiver and counts no words.
* `tick_moves`: a clock tick is one `SM.TickMove`.
-/

namespace OpenALE

namespace SM

/-! ## Transitions -/

section Transition

variable {s p : SM}

theorem transitionTo_yields {t : ALEState} (h : p.currentState ≠ t) :
    p.Yields (p.transitionTo t).1 (p.txView.go t) [.rx true] := by
  constructor
  · have hcal : (p.leaveFor t).calling = p.calling := by
      unfold leaveFor exitState
      cases p.currentState <;> rfl
    have hall : (p.leaveFor t).allcallBroadcasting = p.allcallBroadcasting :=
      (leaveFor_kept p t).allcallBroadcasting
    have how : (p.leaveFor t).ow = p.ow := (leaveFor_kept p t).ow
    rw [transitionTo_of_ne h]
    have hgo : p.txView.go t = (p.leaveFor t).txView.go t := by
      unfold TxView.go txView
      rw [hcal, hall, how]
    rw [hgo]
    cases t <;> rfl
  · obtain ⟨chs, hc⟩ := transitionTo_out h
    rw [hc, signals_append, signals_append, signals_channels, List.append_nil]
    rfl

/-- Leaving a call, a handshake or a link goes back to where it came from. -/
theorem back_yields (ho : p.control.Outside)
    (hc : p.currentState = .calling ∨ p.currentState = .handshake ∨ p.currentState = .linked) :
    p.preLinkState ≠ p.currentState ∧
      p.Yields (p.transitionTo p.preLinkState).1 (p.txView.go p.preLinkState) [.rx true] := by
  have hpre : p.preLinkState = .idle ∨ p.preLinkState = .scanning ∨ p.preLinkState = .sounding :=
    ho.preLink
  have hne : p.preLinkState ≠ p.currentState := by
    rcases hc with h | h | h <;> rcases hpre with h' | h' | h' <;> rw [h, h'] <;> decide
  exact ⟨hne, transitionTo_yields hne.symm⟩

/-- The events that give up a call, a handshake or a link. -/
theorem giveUp_yields (ho : p.control.Outside) {e : ALEEvent}
    (hc : (p.currentState = .calling ∨ p.currentState = .handshake) ∧
        (e = .linkTimeout ∨ e = .amdDeclinedLink) ∨
      p.currentState = .linked ∧ (e = .linkTimeout ∨ e = .linkTerminated)) :
    p.preLinkState ≠ p.currentState ∧
      p.Yields (p.processEvent e).1 (p.txView.go p.preLinkState) [.rx true] := by
  have he : (p.processEvent e).1 = (p.transitionTo p.preLinkState).1 := by
    unfold processEvent
    rcases hc with ⟨h | h, rfl | rfl⟩ | ⟨h, rfl | rfl⟩ <;> rw [h]
  rw [he]
  exact back_yields ho (by tauto)

theorem handshakeComplete_yields (hc : p.currentState = .calling ∨ p.currentState = .handshake) :
    p.Yields (p.processEvent .handshakeComplete).1 (p.txView.go .linked) [.rx true] := by
  have he : (p.processEvent .handshakeComplete).1 = (p.transitionTo .linked).1 := by
    unfold processEvent
    rcases hc with h | h <;> rw [h]
  rw [he]
  exact transitionTo_yields (by rcases hc with h | h <;> rw [h] <;> decide)

/-- A transition after a change the transmitter does not see, to whatever state. -/
theorem goTo_yields {q : SM} (t : ALEState) (hv : q.txView = p.txView)
    (hs : q.currentState = p.currentState) (hout : q.out = p.out) :
    p.Yields (q.transitionTo t).1 p.txView [] ∨
      ∃ t', t' ≠ p.currentState ∧ p.Yields (q.transitionTo t).1 (p.txView.go t') [.rx true] := by
  by_cases h : q.currentState = t
  · left
    rw [transitionTo_self h]
    exact .quiet hv (by rw [hout])
  · right
    refine ⟨t, fun ht => h (hs.trans ht.symm), ?_⟩
    have hy := transitionTo_yields h
    exact ⟨by rw [hy.view, hv], by rw [hy.out, hout]⟩

/-- The end of a sounding: back to where it came from, or on to the sweep's next channel. -/
theorem soundingComplete_yields (hs : p.currentState = .sounding) (ho : p.control.Outside) :
    (∃ t, t ≠ p.currentState ∧ p.Yields p.soundingComplete.1 (p.txView.go t) [.rx true]) ∨
      p.moreSweep = true ∧
        p.Yields p.soundingComplete.1 { p.txView with mode := .listen, awaits := false } [.rx true] := by
  have hback : ∀ q : SM, q.txView = p.txView → q.currentState = p.currentState → q.out = p.out →
      ∃ t, t ≠ p.currentState ∧
        p.Yields (q.transitionTo p.previousState).1 (p.txView.go t) [.rx true] := by
    intro q hv hst hout
    have hne : q.currentState ≠ p.previousState := by
      rw [hst, hs]
      exact (ho.sounding hs).symm
    have hy := transitionTo_yields hne
    exact ⟨p.previousState, by rw [hs]; exact ho.sounding hs, by rw [hy.view, hv],
      by rw [hy.out, hout]⟩
  unfold soundingComplete
  by_cases ha : p.snd.soundingSweepActive = true
  · rw [if_pos ha]
    split
    · rename_i ch hch
      right
      refine ⟨?_, ?_, ?_⟩
      · obtain ⟨hlt, -⟩ := List.getElem?_eq_some_iff.mp hch
        unfold moreSweep
        rw [ha, decide_eq_true hlt]
        rfl
      · unfold advanceSweep txView mode awaits
        dsimp only [setChannels, rxEnabled, emit]
        rw [hs]
        rfl
      · show signals ((p.out ++ [.channelChange ch]) ++ [.rxEnabled true]) = _
        rw [signals_append, signals_append, List.append_assoc]
        rfl
    · exact Or.inl (hback p.dropSweep rfl rfl rfl)
  · rw [if_neg ha]
    exact Or.inl (hback p rfl rfl rfl)

/-- What an event does to the transmitter's view. -/
theorem event_yields (p : SM) (ho : p.control.Outside) (e : ALEEvent) :
    p.Yields (p.processEvent e).1 p.txView [] ∨
      (∃ t, t ≠ p.currentState ∧ p.Yields (p.processEvent e).1 (p.txView.go t) [.rx true]) ∨
      (p.currentState = .sounding ∧ e = .soundingComplete ∧ p.moreSweep = true ∧
        p.Yields (p.processEvent e).1 { p.txView with mode := .listen, awaits := false } [.rx true]) := by
  have hgo : ∀ (q : SM) (t : ALEState), q.txView = p.txView → q.currentState = p.currentState →
      q.out = p.out → p.Yields (q.transitionTo t).1 p.txView [] ∨
        ∃ t', t' ≠ p.currentState ∧ p.Yields (q.transitionTo t).1 (p.txView.go t') [.rx true] :=
    fun q t => goTo_yields t
  have hsc : p.currentState = .sounding → _ := fun hs => soundingComplete_yields hs ho
  have hself : p.Yields (p, false).1 p.txView [] := .refl p
  unfold processEvent
  cases hc : p.currentState <;> rw [hc] at hgo <;> cases e <;>
    first
      | exact Or.inl hself
      | (rw [hc] at hsc
         rcases hsc rfl with h | ⟨h, h'⟩
         · exact Or.inr (Or.inl h)
         · exact Or.inr (Or.inr ⟨rfl, rfl, h, h'⟩))
      | (rcases hgo p _ rfl hc rfl with h | h
         · exact Or.inl h
         · exact Or.inr (Or.inl h))
      | (rcases hgo p.dropSweep _ rfl hc rfl with h | h
         · exact Or.inl h
         · exact Or.inr (Or.inl h))

end Transition

/-! ## The clock -/

/-- The tick to the current time queues a burst on a transmitter that is not sending. -/
def queues (s : SM) (env : Env) : Bool :=
  !s.checkLinkTimeout && !(s.allcallBroadcasting && s.drainExpired) &&
    match s.currentState with
    | .calling =>
      match s.calling.callingPhase with
      | .tuning => decide (s.timing.tt ≤ s.currentTimeMs - s.calling.tuneStartMs)
      | .sendingAck => s.tx.wordsPending == 0 && s.calling.callCyclesInPhase == 0
      | _ => false
    | .handshake =>
      s.hs.handshakePhase == .channelCheck && !s.lbtChannelBusy env &&
        decide (tdrwMs ≤ s.currentTimeMs - s.hs.hsLbtStartMs)
    | .linked =>
      s.ow.orderwirePending && !s.ow.orderwireTransmitting && !s.link.linkedTerminating &&
        !(s.twasSettled && s.link.linkedTwasAddr == s.link.activeCallTo)
    | .sounding =>
      s.snd.soundingPhase == .lbt && !s.lbtChannelBusy env &&
        decide (s.effectiveTwtMs ≤ s.currentTimeMs - s.snd.soundingLbtStartMs) &&
        s.selfAddress != []
    | _ => false

/-- The tick sends a termination frame and leaves the link at once: the `Twa` timeout. -/
def partsWith (s : SM) (env : Env) : Prop :=
  s.currentState = .linked ∧ s.checkLinkTimeout = false ∧
    s.tickTrigger env = .event .linkTimeout ∧ s.link.activeCallTo ≠ [] ∧ s.selfAddress ≠ []

/-- A clock tick, after the clock has moved. -/
inductive TickMove (s : SM) (env : Env) : TxView → List Signal → Prop where
  | stay : TickMove s env s.txView []
  | transition (t : ALEState) (n : Nat) (ht : t ≠ s.currentState)
      (hn : n ≠ 0 → s.partsWith env) :
      TickMove s env (s.txView.go t) (List.replicate n .send ++ [.rx true])
  | terminationLost (t : ALEState) (ht : t ≠ s.currentState) (hm : s.mode = .termination) :
      TickMove s env (s.txView.go t) [.rx true, .rx true]
  | sweep (hc : s.currentState = .sounding) (he : s.tickTrigger env = .event .soundingComplete)
      (hs : s.moreSweep = true) : TickMove s env { s.txView with mode := .listen, awaits := false } [.rx true]
  | tune (hc : s.currentState = .calling) (hm : s.mode = .listen) :
      TickMove s env { s.txView with mode := .tuning, awaits := false } [.rx false]
  | frame (hc : s.currentState = .calling) (hm : s.mode = .tuning) (hq : s.queues env = true) :
      TickMove s env { s.txView with
        mode := .call s.firstTxPhase, cycles := 0
        wordsPending := s.tx.wordsPending + s.seqs.callFrame.length }
        (List.replicate s.seqs.callFrame.length .send)
  | retry (hc : s.currentState = .calling) (hm : s.mode = .listen) :
      TickMove s env { s.txView with cycles := 0, wordsPending := 0, awaits := false } []
  | shutForAck (hc : s.currentState = .calling) (hm : s.mode = .listen) :
      TickMove s env { s.txView with mode := .ack, cycles := 0, awaits := false } [.rx false]
  | ack (n : Nat) (hn : 0 < n) (hm : s.mode = .ack) (hw : s.tx.wordsPending = 0)
      (hq : s.queues env = true) :
      TickMove s env { s.txView with wordsPending := n } (List.replicate n .send)
  | response (n : Nat) (hn : 0 < n) (hc : s.currentState = .handshake) (hm : s.mode = .listen)
      (hq : s.queues env = true) :
      TickMove s env { s.txView with
        mode := .response, wordsPending := s.tx.wordsPending + n, awaits := false }
        (.rx false :: List.replicate n .send)
  | orderwire (n : Nat) (hn : 0 < n) (hm : s.mode = .listen) (hq : s.queues env = true) :
      TickMove s env { s.txView with
        mode := .orderwire, transmitting := true, wordsPending := s.tx.wordsPending + n }
        (.rx false :: List.replicate n .send)
  | abandon (hc : s.currentState = .linked) (hm : s.mode = .orderwire) (hd : s.drainExpired = true)
      (hl : s.checkLinkTimeout = false) (ha : s.allcallBroadcasting = false) :
      TickMove s env { s.txView with mode := .listen, transmitting := false } [.rx true]
  | sound (n : Nat) (hn : 0 < n) (hm : s.mode = .listen) (hq : s.queues env = true) :
      TickMove s env { s.txView with
        mode := .sounding, wordsPending := s.tx.wordsPending + n, awaits := false }
        (.rx false :: List.replicate n .send)
  | window (hm : s.mode = .sounding) (hw : s.tx.wordsPending = 0) :
      TickMove s env { s.txView with mode := .listen, awaits := true } [.rx true]
  | allcallLost (ha : s.allcallBroadcasting = true) (hd : s.drainExpired = true)
      (hl : s.checkLinkTimeout = false) :
      TickMove s env { s.txView with
        mode := if s.mode = .broadcast then .listen else s.mode
        wordsPending := 0, allcall := false } [.rx true]

/-- `s'` is a clock tick of `s` to the transmitter. -/
def Ticks (s : SM) (env : Env) (s' : SM) : Prop := ∃ v sig, s.Yields s' v sig ∧ s.TickMove env v sig

section Tick

variable {s : SM} {env : Env}

theorem Ticks.stay {s' : SM} (hv : s'.txView = s.txView) (ho : signals s'.out = signals s.out) :
    s.Ticks env s' := ⟨_, _, .quiet hv ho, .stay⟩

theorem Ticks.goes {s' : SM} {t : ALEState} (ht : t ≠ s.currentState)
    (h : s.Yields s' (s.txView.go t) [.rx true]) : s.Ticks env s' :=
  ⟨_, _, h, .transition t 0 ht (fun hn => absurd rfl hn)⟩

/-- Giving up after a change the transmitter does not see. -/
theorem Ticks.givesUp {p : SM} (ho : s.control.Outside) {e : ALEEvent} (hp : p.control = s.control)
    (hv : p.txView = s.txView) (hout : signals p.out = signals s.out)
    (hc : (s.currentState = .calling ∨ s.currentState = .handshake) ∧
        (e = .linkTimeout ∨ e = .amdDeclinedLink) ∨
      s.currentState = .linked ∧ (e = .linkTimeout ∨ e = .linkTerminated)) :
    s.Ticks env (p.processEvent e).1 := by
  have hst : p.currentState = s.currentState := congrArg Control.state hp
  have hpl : p.preLinkState = s.preLinkState := congrArg Control.preLink hp
  obtain ⟨hne, hy⟩ := giveUp_yields (p := p) (by rw [hp]; exact ho) (by rw [hst]; exact hc)
  rw [hst, hpl] at hne
  rw [hv, hpl] at hy
  exact .goes hne ⟨hy.view, by rw [hy.out, hout]⟩

/-- The link comes up after a change the transmitter does not see. -/
theorem Ticks.completes {p : SM} (hst : p.currentState = s.currentState)
    (hv : p.txView = s.txView) (hout : signals p.out = signals s.out)
    (hc : s.currentState = .calling ∨ s.currentState = .handshake) :
    s.Ticks env (p.processEvent .handshakeComplete).1 := by
  have hy := handshakeComplete_yields (p := p) (by rw [hst]; exact hc)
  rw [hv] at hy
  refine .goes (t := .linked) ?_ ⟨hy.view, by rw [hy.out, hout]⟩
  rcases hc with h | h <;> rw [h] <;> decide

theorem handleScanning_ticks (hc : s.currentState = .scanning) :
    s.Ticks env (s.handleScanning env) := by
  have hm : ∀ (u : SM), u.currentState = s.currentState → u.calling = s.calling →
      u.tx = s.tx → u.allcallBroadcasting = s.allcallBroadcasting → u.ow = s.ow →
      u.txView = s.txView := by
    intro u h1 h2 h3 h4 h5
    unfold txView mode awaits
    rw [h1, h2, h3, h4, h5, hc]
  unfold handleScanning
  dsimp only
  repeat' split
  all_goals
    refine .stay (hm _ rfl rfl rfl rfl rfl) ?_
    first
      | rfl
      | exact signals_hop s _

theorem tryNextCallingChannel_ticks (ho : s.control.Outside) (hc : s.currentState = .calling)
    (hm : s.mode = .listen) : s.Ticks env s.tryNextCallingChannel := by
  unfold tryNextCallingChannel
  split
  · rename_i ch _
    refine ⟨_, _, ⟨?_, ?_⟩, .retry hc hm⟩
    · have hl : (s.nextChannelIndex.retryOn ch).mode = s.mode := by
        rw [hm]
        unfold mode
        rw [show (s.nextChannelIndex.retryOn ch).currentState = .calling from hc]
        rfl
      unfold txView
      rw [hl, awaits_calling (by exact hc)]
      rfl
    · rw [List.append_nil]
      exact signals_hop s _
  · exact .givesUp (p := s.nextChannelIndex.operator .noChannelsLeft) ho rfl rfl
      (signals_operator s _) (Or.inl ⟨Or.inl hc, Or.inl rfl⟩)

theorem handleCallingLbt_ticks (ho : s.control.Outside) (hc : s.currentState = .calling)
    (hm : s.mode = .listen) : s.Ticks env (s.handleCallingLbt env) := by
  unfold handleCallingLbt
  split
  · exact tryNextCallingChannel_ticks ho hc hm
  · split
    · refine ⟨_, _, ⟨?_, ?_⟩, .tune hc hm⟩
      · unfold txView
        rw [mode_calling (by exact hc), awaits_calling (by exact hc)]
        rfl
      · exact signals_append _ _
    · exact .stay rfl rfl

theorem transmitWords_signals (s : SM) (ws : List ALEWord) :
    signals (s.transmitWords ws).out = signals s.out ++ List.replicate ws.length .send := by
  rw [transmitWords_eq]
  show signals (s.out ++ _) = _
  rw [signals_append, signals_transmit]

theorem armDrain_signals (s : SM) (d : UInt32) : signals (s.armDrain d).out = signals s.out := by
  unfold armDrain
  split <;> rfl

theorem armDrain_txView (s : SM) (d : UInt32) : (s.armDrain d).txView = s.txView := by
  unfold armDrain
  split <;> rfl

/-- A burst with its watchdog. -/
theorem burst_yields (s : SM) (ws : List ALEWord) (d : UInt32) :
    s.Yields ((s.transmitWords ws).armDrain d)
      { s.txView with wordsPending := s.tx.wordsPending + ws.length }
      (List.replicate ws.length .send) := by
  constructor
  · rw [armDrain_txView, transmitWords_eq]
    rfl
  · rw [armDrain_signals, transmitWords_signals]

theorem handleTuning_ticks (hc : s.currentState = .calling) (hp : s.calling.callingPhase = .tuning)
    (hl : s.checkLinkTimeout = false) (ha : (s.allcallBroadcasting && s.drainExpired) = false) :
    s.Ticks env s.handleTuning := by
  have hm : s.mode = .tuning := by
    unfold mode
    rw [hc, hp]
  unfold handleTuning
  split
  · rename_i ht
    have hq : s.queues env = true := by
      unfold queues
      rw [hl, ha, hc, hp]
      simpa using ht
    refine ⟨_, _, ⟨?_, ?_⟩, .frame hc hm hq⟩
    · rw [enqueueCallSequence_eq, transmitWords_eq]
      unfold txView
      rw [mode_calling (by exact hc), awaits_calling (by exact hc), awaits_calling hc, hp]
      dsimp only
      have hf : ∀ p, p = s.firstTxPhase → p = .groupScanningCall ∨ p = .scanningCall ∨
          p = .leadingCall := by
        rintro p rfl
        unfold firstTxPhase
        repeat' split
        · exact Or.inl rfl
        · exact Or.inr (Or.inl rfl)
        · exact Or.inr (Or.inr rfl)
      rcases hf _ rfl with h | h | h <;> (rw [h]; rfl)
    · rw [enqueueCallSequence_eq]
      exact transmitWords_signals _ _
  · exact .stay rfl rfl

theorem handleListening_ticks (ho : s.control.Outside) (hc : s.currentState = .calling)
    (hm : s.mode = .listen) : s.Ticks env s.handleListening := by
  unfold handleListening
  split
  · split
    · exact tryNextCallingChannel_ticks ho hc hm
    · exact .stay rfl rfl
  · split
    · split
      · exact tryNextCallingChannel_ticks ho hc hm
      · exact .stay rfl rfl
    · split
      · refine ⟨_, _, ⟨?_, ?_⟩, .shutForAck hc hm⟩
        · unfold txView
          rw [mode_calling (by exact hc), awaits_calling (by exact hc)]
          rfl
        · exact signals_append _ _
      · exact .stay rfl rfl

theorem handleSendingAck_ticks (ho : s.control.Outside) (hc : s.currentState = .calling)
    (hp : s.calling.callingPhase = .sendingAck) (hl : s.checkLinkTimeout = false)
    (ha : (s.allcallBroadcasting && s.drainExpired) = false) :
    s.Ticks env s.handleSendingAck := by
  unfold handleSendingAck
  split
  · split
    · exact .givesUp (p := { s with tx := { s.tx with txDrainStartMs := 0 } }) ho rfl rfl rfl
        (Or.inl ⟨Or.inl hc, Or.inl rfl⟩)
    · exact .stay rfl rfl
  · rename_i hw
    have hw0 : s.tx.wordsPending = 0 := by omega
    split
    · rename_i hcyc
      have hm : s.mode = .ack := by
        unfold mode
        rw [hc, hp]
      have hq : s.queues env = true := by
        unfold queues
        rw [hl, ha, hc, hp]
        simp [hw0, hcyc]
      have hy := burst_yields s (ack s.calling.toAddress s.selfAddress s.noLink) txDrainTimeoutMs
      rw [hw0, Nat.zero_add] at hy
      exact ⟨_, _, hy, .ack _ (length_ack_pos _ _ _) hm hw0 hq⟩
    · exact .stay rfl rfl

theorem handleCalling_ticks (ho : s.control.Outside) (hc : s.currentState = .calling)
    (hl : s.checkLinkTimeout = false) (ha : (s.allcallBroadcasting && s.drainExpired) = false) :
    s.Ticks env (s.handleCalling env) := by
  have hm : s.calling.callingPhase = .lbt ∨ s.calling.callingPhase = .listening →
      s.mode = .listen := by
    rintro (h | h) <;> (unfold mode; rw [hc, h])
  unfold handleCalling
  split
  · exact handleCallingLbt_ticks ho hc (hm (Or.inl ‹_›))
  · exact handleTuning_ticks hc ‹_› hl ha
  · exact .stay rfl rfl
  · exact .stay rfl rfl
  · exact .stay rfl rfl
  · exact .stay rfl rfl
  · exact handleListening_ticks ho hc (hm (Or.inr ‹_›))
  · exact handleSendingAck_ticks ho hc ‹_› hl ha

theorem handleWaitCycleEnd_ticks (ho : s.control.Outside) (hc : s.currentState = .handshake)
    (hp : s.hs.handshakePhase = .waitCycleEnd) : s.Ticks env s.handleWaitCycleEnd := by
  have hback : s.Ticks env s.linkTimeout :=
    .givesUp (p := s) ho rfl rfl rfl (Or.inl ⟨Or.inr hc, Or.inl rfl⟩)
  unfold handleWaitCycleEnd
  split
  · exact hback
  split
  · exact hback
  split
  · split
    · exact hback
    split
    · have hv : ∀ a o, SM.txView { s with link := { s.link with activeCallTo := a }, out := o } =
          s.txView := by
        intro a o
        unfold txView mode awaits
        rw [hc]
      exact .completes (p := operator { s with link :=
        { s.link with activeCallTo := s.hs.callerAddress } } .linkEstablished) rfl (hv _ _)
        (signals_operator s _) (Or.inr hc)
    · refine .stay ?_ rfl
      unfold txView mode awaits
      rw [hc, hp]
      rfl
  · exact .stay rfl rfl

theorem buildResponseWords_yields (s : SM) :
    s.Yields s.buildResponseWords
      { s.txView with wordsPending := s.tx.wordsPending + s.responseWords.length }
      (List.replicate s.responseWords.length .send) := by
  have hy := burst_yields { s with pend := { s.pend with
    pendingLqaCmdSet := false, pendingLqaReportSet := false } } s.responseWords
  exact ⟨(hy _).view, (hy _).out⟩

theorem length_responseWords_pos (s : SM) : 0 < s.responseWords.length := by
  have hr : ∀ b, 0 < (response s.hs.callerAddress s.selfAddress b).length := by
    intro b
    unfold response addressedThenConclusion
    cases b
    · rw [if_neg (by decide), List.length_append]
      have := length_encode_pos s.selfAddress .tis
      omega
    · exact length_encode_pos s.selfAddress .twas
  unfold responseWords
  dsimp only
  generalize (if s.pend.pendingLqaCmdSet then lqaCmd s.pend.pendingLqaCmdRaw else []) = a
  generalize (if s.pend.pendingLqaReportSet then s.pend.pendingLqaReportSeq else []) = b
  split
  · exact hr _
  · have hpos := hr false
    unfold insertBeforeConclusion
    dsimp only
    rw [List.length_append, List.length_append, List.length_drop]
    omega

theorem handleChannelCheck_ticks (ho : s.control.Outside) (hc : s.currentState = .handshake)
    (hp : s.hs.handshakePhase = .channelCheck) (hl : s.checkLinkTimeout = false)
    (ha : (s.allcallBroadcasting && s.drainExpired) = false) :
    s.Ticks env (s.handleChannelCheck env) := by
  unfold handleChannelCheck
  split
  · exact .givesUp (p := s) ho rfl rfl rfl (Or.inl ⟨Or.inr hc, Or.inl rfl⟩)
  · rename_i hb
    split
    · rename_i ht
      have hq : s.queues env = true := by
        unfold queues
        rw [hl, ha, hc]
        simpa [hp, hb] using ht
      have hm : s.mode = .listen := by
        unfold mode
        rw [hc, hp]
        rfl
      have hy := buildResponseWords_yields { s.rxEnabled false with hs := { s.hs with
        handshakePhase := .sendingResponse, hsWordsInPhase := 0 } }
      refine ⟨_, _, ⟨hy.view.trans ?_, hy.out.trans ?_⟩,
        .response s.responseWords.length (length_responseWords_pos s) hc hm hq⟩
      · unfold txView mode awaits
        dsimp only [rxEnabled, emit]
        rw [hc]
        rfl
      · show signals (s.out ++ [_]) ++ _ = _
        rw [signals_append, List.append_assoc]
        rfl
    · exact .stay rfl rfl

theorem handleWaitAck_ticks (ho : s.control.Outside) (hc : s.currentState = .handshake) :
    s.Ticks env s.handleWaitAck := by
  have hback : s.Ticks env s.linkTimeout :=
    .givesUp (p := s) ho rfl rfl rfl (Or.inl ⟨Or.inr hc, Or.inl rfl⟩)
  unfold handleWaitAck
  split
  · exact hback
  split
  · exact hback
  split
  · exact .completes (p := s.operator .linkEstablished) rfl rfl (signals_operator s _) (Or.inr hc)
  · exact .stay rfl rfl

theorem handleHandshake_ticks (ho : s.control.Outside) (hc : s.currentState = .handshake)
    (hl : s.checkLinkTimeout = false) (ha : (s.allcallBroadcasting && s.drainExpired) = false) :
    s.Ticks env (s.handleHandshake env) := by
  have hmoves : ∀ {u : SM} {p : HandshakePhase}, s.hs.handshakePhase = p →
      p ≠ .sendingResponse ∧ p ≠ .waitAck → u.currentState = s.currentState →
      u.calling = s.calling → u.tx = s.tx → u.allcallBroadcasting = s.allcallBroadcasting →
      u.ow = s.ow → u.out = s.out →
      u.hs.handshakePhase ≠ .sendingResponse ∧ u.hs.handshakePhase ≠ .waitAck → s.Ticks env u := by
    intro u p hp hp' h1 h2 h3 h4 h5 h6 h7
    refine .stay ?_ (by rw [h6])
    have hcu : u.currentState = .handshake := h1.trans hc
    unfold txView
    rw [mode_handshake hc, mode_handshake hcu, awaits_handshake hc, awaits_handshake hcu, h2, h3, h4,
      h5, hc, hcu, hp, if_neg hp'.1, if_neg h7.1, beq_eq_false_iff_ne.mpr hp'.2,
      beq_eq_false_iff_ne.mpr h7.2]
  unfold handleHandshake
  cases hp : s.hs.handshakePhase with
  | waitCycleEnd => exact handleWaitCycleEnd_ticks ho hc hp
  | awaitAccept =>
    exact hmoves hp (by decide) rfl rfl rfl rfl rfl rfl
        ⟨fun h => HandshakePhase.noConfusion h, fun h => HandshakePhase.noConfusion h⟩
  | slotWait =>
    show s.Ticks env s.handleSlotWait
    unfold handleSlotWait
    split
    · exact hmoves hp (by decide) rfl rfl rfl rfl rfl rfl
        ⟨fun h => HandshakePhase.noConfusion h, fun h => HandshakePhase.noConfusion h⟩
    · exact .stay rfl rfl
  | channelCheck => exact handleChannelCheck_ticks ho hc hp hl ha
  | sendingResponse =>
    show s.Ticks env s.handleSendingResponse
    unfold handleSendingResponse
    split
    · exact .givesUp (p := { s with tx := { s.tx with txDrainStartMs := 0 } }) ho rfl rfl rfl
        (Or.inl ⟨Or.inr hc, Or.inl rfl⟩)
    · exact .stay rfl rfl
  | waitAck => exact handleWaitAck_ticks ho hc

/-- What else changes on a link is nothing to the transmitter. -/
theorem Ticks.stayLinked {u : SM} (hc : s.currentState = .linked)
    (hu : u.currentState = .linked) (ht : u.link.linkedTerminating = s.link.linkedTerminating)
    (hx : u.ow.orderwireTransmitting = s.ow.orderwireTransmitting) (hcal : u.calling = s.calling)
    (htx : u.tx = s.tx) (hall : u.allcallBroadcasting = s.allcallBroadcasting)
    (hout : signals u.out = signals s.out) : s.Ticks env u := by
  refine .stay ?_ hout
  unfold txView
  rw [mode_linked hc, mode_linked hu, awaits_linked hc, awaits_linked hu, ht, hx, hcal, htx, hall, hu,
    hc]

theorem twaTimeout_ticks {p : SM} (ho : s.control.Outside) (hc : s.currentState = .linked)
    (hp : p.control = s.control) (hv : p.txView = s.txView) (hout : signals p.out = signals s.out)
    (hparts : p.timing.twa ≤ p.currentTimeMs - p.lastWordTimeMs → p.link.activeCallTo ≠ [] →
      p.selfAddress ≠ [] → s.partsWith env) : s.Ticks env p.twaTimeout := by
  have hpc : p.currentState = .linked := (congrArg Control.state hp).trans hc
  have hpl : p.preLinkState = s.preLinkState := congrArg Control.preLink hp
  unfold twaTimeout
  split
  · rename_i ht
    dsimp only
    have hgo : ∀ q : SM, q.control = p.control → q.txView.go q.preLinkState =
        s.txView.go s.preLinkState → q.currentState = .linked → q.preLinkState ≠ s.currentState ∧
          q.Yields q.linkTimeout (s.txView.go s.preLinkState) [.rx true] := by
      intro q hq hgo hqc
      obtain ⟨hne, hy⟩ := giveUp_yields (p := q) (e := .linkTimeout)
        (by rw [hq, hp]; exact ho) (Or.inr ⟨hqc, Or.inl rfl⟩)
      rw [hqc] at hne
      exact ⟨by rw [hc]; exact hne, ⟨hy.view.trans hgo, hy.out⟩⟩
    have hv' : ∀ (q : SM), q.allcallBroadcasting = p.allcallBroadcasting →
        q.ow.orderwireTransmitting = p.ow.orderwireTransmitting →
        q.calling.callCyclesInPhase = p.calling.callCyclesInPhase →
        q.preLinkState = p.preLinkState → q.txView.go q.preLinkState =
          s.txView.go s.preLinkState := by
      intro q h1 h2 h3 h4
      rw [h4, hpl, ← hv]
      unfold TxView.go txView
      rw [h1, h2, h3]
    split
    · rename_i ha
      rw [transmitWords_eq]
      obtain ⟨hne, hy⟩ := hgo { p with
        link := { p.link with linkedTerminating := true }
        tx := { p.tx with wordsPending :=
          p.tx.wordsPending + (termination p.link.activeCallTo p.selfAddress).length }
        out := p.out ++ (termination p.link.activeCallTo p.selfAddress).map
          (fun w => .transmit (w.stamp p.currentTimeMs)) }
        rfl (hv' _ rfl rfl rfl rfl) hpc
      refine ⟨_, _, ⟨hy.view, ?_⟩, .transition s.preLinkState
        (termination p.link.activeCallTo p.selfAddress).length ?_ (fun _ => hparts ht ha.1 ha.2)⟩
      · rw [hy.out]
        show signals (p.out ++ _) ++ _ = _
        rw [signals_append, signals_transmit, hout, List.append_assoc]
      · rw [← hpl]
        exact hne
    · obtain ⟨hne, hy⟩ := hgo { p with link := { p.link with linkedTerminating := true } }
        rfl (hv' _ rfl rfl rfl rfl) hpc
      refine .goes (t := s.preLinkState) ?_ ⟨hy.view, ?_⟩
      · rw [← hpl]
        exact hne
      · rw [hy.out]
        show signals p.out ++ _ = _
        rw [hout]
  · exact .stay hv hout

theorem startOrderwire_ticks {p : SM} (hc : s.currentState = .linked)
    (hpc : p.currentState = .linked) (ht : s.link.linkedTerminating = false)
    (hx : s.ow.orderwireTransmitting = false)
    (hpt : p.link.linkedTerminating = false) (hcal : p.calling = s.calling) (htx : p.tx = s.tx)
    (hall : p.allcallBroadcasting = s.allcallBroadcasting) (hout : p.out = s.out)
    (hq : s.queues env = true) : s.Ticks env p.startOrderwire := by
  have hm : s.mode = .listen := by
    rw [mode_linked hc, ht, hx]
    rfl
  refine ⟨_, _, ⟨?_, ?_⟩, .orderwire _ (length_orderwireBurst_pos p) hm hq⟩
  · have hy := burst_yields (({ p with ow := { p.ow with
      orderwirePending := false, orderwireTransmitting := true } } : SM).rxEnabled false)
      p.orderwireBurst
    have hmode : SM.mode (({ p with ow := { p.ow with
        orderwirePending := false, orderwireTransmitting := true } } : SM).rxEnabled false) =
        .orderwire := by
      rw [mode_linked (by exact hpc)]
      show (if p.link.linkedTerminating then _ else if true then _ else _) = _
      simp [hpt]
    refine (hy _).view.trans ?_
    unfold txView
    rw [hmode, awaits_linked (by exact hpc), awaits_linked hc]
    show TxView.mk .orderwire p.calling.callCyclesInPhase (p.tx.wordsPending + _)
      p.allcallBroadcasting true p.currentState false = _
    rw [hcal, htx, hall, hpc, ← hc]
  · rw [startOrderwire_out, signals_append, hout]
    show _ ++ (Signal.rx false :: signals (List.map _ _)) = _
    rw [signals_transmit]

theorem handleLinkedActive_ticks {a : Str} (ho : s.control.Outside) (hc : s.currentState = .linked)
    (hl : s.checkLinkTimeout = false) (ha : (s.allcallBroadcasting && s.drainExpired) = false)
    (ht : s.link.linkedTerminating = false)
    (htw : ¬ (s.twasSettled = true ∧ s.link.linkedTwasAddr = s.link.activeCallTo))
    (htrig : s.tickTrigger env = s.twaTrigger) :
    s.Ticks env (handleLinkedActive { s with link := { s.link with linkedTwasAddr := a } }) := by
  unfold handleLinkedActive
  by_cases h1 : s.ow.orderwireTransmitting = true
  · rw [if_pos h1]
    exact .stayLinked hc hc rfl rfl rfl rfl rfl rfl
  rw [if_neg h1]
  have hx : s.ow.orderwireTransmitting = false := by simpa using h1
  by_cases h2 : s.ow.orderwirePending = true
  · rw [if_pos h2]
    have hq : s.queues env = true := by
      unfold queues
      rw [hl, ha, hc]
      simp only [h2, hx, ht]
      simp only [Bool.not_false, Bool.and_self, Bool.true_and, Bool.not_eq_true',
        Bool.and_eq_false_iff, beq_eq_false_iff_ne]
      by_cases h : s.twasSettled = true
      · exact Or.inr fun h' => htw ⟨h, h'⟩
      · exact Or.inl (by simpa using h)
    exact startOrderwire_ticks hc hc ht hx ht rfl rfl rfl rfl hq
  rw [if_neg h2]
  by_cases h3 : s.amd.linkedAmdRetryPending = true
  · rw [if_pos h3]
    unfold handleLinkedAmdRetry
    split <;> exact .stayLinked hc hc rfl rfl rfl rfl rfl rfl
  rw [if_neg h3]
  by_cases h4 : s.amd.linkedAmdPhase = .listening ∧ s.amd.linkedAmdListenStartMs ≠ 0
  · rw [if_pos h4]
    unfold handleLinkedAmdListening linkedAmdRetryOrFail
    repeat' split
    all_goals
      first
        | exact .stayLinked hc hc rfl rfl rfl rfl rfl rfl
        | exact .stayLinked hc hc rfl rfl rfl rfl rfl (signals_operator s _)
  rw [if_neg h4]
  by_cases h5 : s.amd.linkedAmdPhase = .waitAck
  · rw [if_pos h5]
    unfold handleLinkedAmdWaitAck
    repeat' split
    all_goals exact .stayLinked hc hc rfl rfl rfl rfl rfl rfl
  rw [if_neg h5]
  have hq : s.linkedQuiet := ⟨h1, h2, h3, h4, h5⟩
  have hi : ∃ b t o, signals o = signals s.out ∧
      idleWarning { s with link := { s.link with linkedTwasAddr := a } } = { s with
        link := { s.link with
          linkedTwasAddr := a, idleWarningSent := b, lastSeenWordTimeMs := t }, out := o } := by
    unfold idleWarning rearmIdleWarning
    dsimp only
    split <;> split <;>
      exact ⟨_, _, _, by first | rfl | (exact (signals_append _ _).trans (List.append_nil _)), rfl⟩
  obtain ⟨b, t, o, hout, hw⟩ := hi
  rw [hw]
  refine twaTimeout_ticks ho hc rfl ?_ hout (fun htwa ha hs => ⟨hc, hl, ?_, ha, hs⟩)
  · unfold txView
    rw [mode_linked (by exact hc), mode_linked hc, awaits_linked (by exact hc), awaits_linked hc]
  · rw [htrig]
    exact raiseIf_pos ⟨hq, htwa⟩ _

theorem handleLinked_ticks (ho : s.control.Outside) (hc : s.currentState = .linked)
    (hl : s.checkLinkTimeout = false) (ha : (s.allcallBroadcasting && s.drainExpired) = false) :
    s.Ticks env s.handleLinked := by
  have htt : s.tickTrigger env = s.linkedTrigger := by
    unfold tickTrigger handleTrigger
    rw [hl, ha, hc]
    rfl
  unfold linkedTrigger at htt
  unfold handleLinked
  by_cases h1 : ((s.link.linkedTerminating || s.ow.orderwireTransmitting) && s.drainExpired) = true
  · rw [if_pos h1]
    obtain ⟨hb, hd⟩ := Bool.and_eq_true_iff.mp h1
    unfold linkedDrainTimeout
    split
    · rename_i ht
      obtain ⟨hne, hy⟩ := giveUp_yields (e := .linkTerminated) (p := rxEnabled { s with
        link := { s.link with linkedTerminating := false }
        tx := { s.tx with txDrainStartMs := 0 } } true) ho (Or.inr ⟨hc, Or.inr rfl⟩)
      have hm : s.mode = .termination := by
        rw [mode_linked hc, ht]
        rfl
      refine ⟨_, _, ⟨hy.view, hy.out.trans ?_⟩, .terminationLost s.preLinkState hne hm⟩
      show signals (s.out ++ [_]) ++ _ = _
      rw [signals_append, List.append_assoc]
      rfl
    · rename_i ht
      have ht' : s.link.linkedTerminating = false := by simpa using ht
      have hx : s.ow.orderwireTransmitting = true := by simpa [ht'] using hb
      have hall : s.allcallBroadcasting = false := by simpa [hd] using ha
      have hm : s.mode = .orderwire := by
        rw [mode_linked hc, ht', hx]
        rfl
      refine ⟨_, _, ⟨?_, ?_⟩, .abandon hc hm hd hl hall⟩
      · have hmode : SM.mode (rxEnabled { s with
            ow := { s.ow with orderwireTransmitting := false }
            tx := { s.tx with txDrainStartMs := 0 } } true) = .listen := by
          rw [mode_linked (by exact hc)]
          show (if s.link.linkedTerminating then _ else if false then _ else _) = _
          simp [ht']
        unfold txView
        rw [hmode]
        rfl
      · exact signals_append _ _
  rw [if_neg h1] at htt ⊢
  by_cases h2 : s.link.linkedTerminating = true
  · rw [if_pos h2]
    exact .stay rfl rfl
  rw [if_neg h2] at htt ⊢
  have ht : s.link.linkedTerminating = false := by simpa using h2
  by_cases h3 : s.twasSettled = true
  · rw [if_pos h3]
    dsimp only
    by_cases h4 : s.link.linkedTwasAddr = s.link.activeCallTo
    · rw [if_pos h4]
      have hv : SM.txView { s with link := { s.link with linkedTwasAddr := [] } } = s.txView := by
        unfold txView
        rw [mode_linked (by exact hc), mode_linked hc, awaits_linked (by exact hc), awaits_linked hc]
      exact .givesUp (p := { s with link := { s.link with linkedTwasAddr := [] } }) ho rfl hv rfl
        (Or.inr ⟨hc, Or.inr rfl⟩)
    · have htw : ¬ (s.twasSettled = true ∧ s.link.linkedTwasAddr = s.link.activeCallTo) :=
        fun hh => h4 hh.2
      rw [if_neg htw] at htt
      rw [if_neg h4]
      exact handleLinkedActive_ticks ho hc hl ha ht htw htt
  · have htw : ¬ (s.twasSettled = true ∧ s.link.linkedTwasAddr = s.link.activeCallTo) :=
      fun hh => h3 hh.1
    rw [if_neg htw] at htt
    rw [if_neg h3]
    exact handleLinkedActive_ticks (a := s.link.linkedTwasAddr) ho hc hl ha ht htw htt

/-- The sounding ends after a change that leaves the transmitter's counts alone. -/
theorem Ticks.endsSounding {p : SM} (ho : s.control.Outside) (hc : s.currentState = .sounding)
    (hp : p.control = s.control) (hm : p.moreSweep = s.moreSweep)
    (hv : { p.txView with mode := .listen, awaits := false } =
      { s.txView with mode := .listen, awaits := false })
    (hout : p.out = s.out) (ht : s.tickTrigger env = .event .soundingComplete) :
    s.Ticks env p.endSounding := by
  have hst : p.currentState = .sounding := (congrArg Control.state hp).trans hc
  have he : p.endSounding = p.soundingComplete.1 := by
    unfold endSounding processEvent
    rw [hst]
  rw [he]
  rcases soundingComplete_yields hst (by rw [hp]; exact ho) with ⟨t, hne, hy⟩ | ⟨hs, hy⟩
  · have hgo : p.txView.go t = s.txView.go t := by
      show TxView.go { p.txView with mode := .listen, awaits := false } t =
        TxView.go { s.txView with mode := .listen, awaits := false } t
      rw [hv]
    refine .goes (t := t) (by rw [hc, ← hst]; exact hne) ⟨hy.view.trans hgo, ?_⟩
    rw [hy.out, hout]
  · exact ⟨_, _, ⟨hy.view.trans hv, by rw [hy.out, hout]⟩, .sweep hc ht (hm.symm.trans hs)⟩

theorem length_soundingWords_pos (s : SM) : 0 < s.soundingWords.length := by
  have hc := length_conclusion_pos s.selfAddress s.snd.soundingUseTwas
  have hflat : ∀ n, 0 < n →
      0 < (List.replicate n (conclusion s.selfAddress s.snd.soundingUseTwas)).flatten.length := by
    intro n hn
    obtain ⟨k, rfl⟩ := Nat.exists_eq_succ_of_ne_zero hn.ne'
    rw [List.replicate_succ, List.flatten_cons, List.length_append]
    omega
  unfold soundingWords
  dsimp only
  have hn : 0 < (if 0 < s.targetScanChannels.toNat then s.targetScanChannels.toNat + 2 else 2) := by
    split <;> omega
  have h := hflat _ hn
  split
  · rw [List.length_append]
    omega
  · exact h

theorem startSounding_ticks (hc : s.currentState = .sounding) (hp : s.snd.soundingPhase = .lbt)
    (hself : s.selfAddress ≠ []) (hq : s.queues env = true) : s.Ticks env s.startSounding := by
  have hm : s.mode = .listen := by
    rw [mode_sounding hc, hp]
    rfl
  unfold startSounding
  dsimp only
  rw [if_pos hself]
  refine ⟨_, _, ⟨?_, ?_⟩, .sound s.soundingWords.length (length_soundingWords_pos s) hm hq⟩
  · rw [transmitWords_eq]
    unfold txView
    rw [mode_sounding (by exact hc), awaits_sounding (by exact hc)]
    rfl
  · rw [transmitWords_signals]
    show signals (s.out ++ [_]) ++ _ = _
    rw [signals_append, List.append_assoc]
    rfl

theorem handleSounding_ticks (ho : s.control.Outside) (hc : s.currentState = .sounding)
    (hl : s.checkLinkTimeout = false) (ha : (s.allcallBroadcasting && s.drainExpired) = false) :
    s.Ticks env (s.handleSounding env) := by
  have htt : s.tickTrigger env = s.soundingTrigger env := by
    unfold tickTrigger handleTrigger
    rw [hl, ha, hc]
    rfl
  unfold soundingTrigger at htt
  unfold handleSounding openIfDrained
  cases hp : s.snd.soundingPhase with
  | lbt =>
    rw [hp] at htt
    rw [if_pos rfl]
    unfold handleSoundingLbt
    by_cases hb : s.lbtChannelBusy env = true
    · rw [if_pos hb]
      exact .endsSounding ho hc rfl rfl rfl rfl (htt.trans (if_pos hb))
    rw [if_neg hb]
    have htt' : s.tickTrigger env = raiseIf (s.effectiveTwtMs ≤
        s.currentTimeMs - s.snd.soundingLbtStartMs ∧ s.selfAddress = []) .soundingComplete :=
      htt.trans (if_neg hb)
    by_cases ht : s.effectiveTwtMs ≤ s.currentTimeMs - s.snd.soundingLbtStartMs
    · rw [if_pos ht]
      by_cases hself : s.selfAddress = []
      · unfold startSounding
        dsimp only
        rw [if_neg (not_not.mpr hself)]
        exact .endsSounding ho hc rfl rfl rfl rfl (htt'.trans (raiseIf_pos ⟨ht, hself⟩ _))
      · have hq : s.queues env = true := by
          unfold queues
          rw [hl, ha, hc]
          simp [hp, hb, ht, hself]
        exact startSounding_ticks hc hp hself hq
    · rw [if_neg ht]
      exact .stay rfl rfl
  | transmitting =>
    rw [if_neg (by decide)]
    have hm : s.mode = .sounding := by
      rw [mode_sounding hc, hp]
      rfl
    by_cases hw : s.tx.wordsPending = 0
    · simp only [hw, and_self, if_true]
      unfold openSoundingWindow rxEnabled emit
      simp only [reduceCtorEq, if_false, UInt32.sub_self]
      refine ⟨_, _, ⟨?_, signals_append _ _⟩, .window hm hw⟩
      unfold txView
      rw [mode_sounding (by exact hc), awaits_sounding (by exact hc)]
      rfl
    · simp only [hw, and_false, if_false, hp, if_true]
      exact .stay rfl rfl
  | listening =>
    rw [hp] at htt
    simp only [reduceCtorEq, if_false, false_and, hp]
    split
    · rename_i ht
      exact .endsSounding ho hc rfl rfl rfl rfl (htt.trans (raiseIf_pos ht _))
    · exact .stay rfl rfl

/-- Once a broadcast is over, the transmitter listens where it was broadcasting. -/
theorem mode_allcallOff (ha : s.allcallBroadcasting = true) (tx : TxDrain) (out : List Output) :
    SM.mode { s with allcallBroadcasting := false, tx := tx, out := out } =
      if s.mode = .broadcast then .listen else s.mode := by
  unfold mode
  dsimp only
  rw [ha]
  cases s.currentState with
  | calling => cases s.calling.callingPhase <;> rfl
  | handshake => by_cases hp : s.hs.handshakePhase = .sendingResponse <;> simp [hp]
  | linked =>
    by_cases hp : s.link.linkedTerminating = true <;>
      by_cases hx : s.ow.orderwireTransmitting = true <;> simp [hp, hx]
  | sounding => by_cases hp : s.snd.soundingPhase = .transmitting <;> simp [hp]
  | _ => rfl

/-- **A clock tick is one of the moves `TickMove`.** -/
theorem tick_moves (ho : s.control.Outside) : s.Ticks env (s.tick env) := by
  unfold tick
  by_cases hl : s.checkLinkTimeout = true
  · rw [if_pos hl]
    have hc : s.currentState = .calling ∨ s.currentState = .handshake ∨
        s.currentState = .linked := by
      unfold checkLinkTimeout at hl
      revert hl
      cases s.currentState <;> simp
    exact .givesUp (p := s) ho rfl rfl rfl (by tauto)
  rw [if_neg hl]
  have hl' : s.checkLinkTimeout = false := by simpa using hl
  by_cases ha : (s.allcallBroadcasting && s.drainExpired) = true
  · rw [if_pos ha]
    obtain ⟨hall, hd⟩ := Bool.and_eq_true_iff.mp ha
    refine ⟨_, _, ⟨?_, signals_append _ _⟩, .allcallLost hall hd hl'⟩
    have hm : s.allcallDrainTimeout.mode = if s.mode = .broadcast then .listen else s.mode :=
      mode_allcallOff hall _ _
    unfold txView
    rw [hm]
    rfl
  rw [if_neg ha]
  have ha' : (s.allcallBroadcasting && s.drainExpired) = false := by simpa using ha
  unfold handle
  cases hc : s.currentState with
  | idle | error => exact .stay rfl rfl
  | scanning => exact handleScanning_ticks hc
  | calling => exact handleCalling_ticks ho hc hl' ha'
  | handshake => exact handleHandshake_ticks ho hc hl' ha'
  | linked => exact handleLinked_ticks ho hc hl' ha'
  | sounding => exact handleSounding_ticks ho hc hl' ha'

end Tick

end SM

end OpenALE
