import OpenALE.Control.Burst
import OpenALE.Control.Radio

/-!
# What an operation does in `SOUNDING`

`SoundView` is a sounding as the operator would log it: the phase of the cycle, the sweep it belongs
to, the channels hopped to and the words sent.

Results:
* `exec_sounds`: each operation stays, sounds, opens the window, completes the cycle or leaves.
* `soundingComplete_view`: the end of a cycle pins the next channel of the sweep or goes back.
* `update_overdue`: no phase outlasts its own limit.
-/

namespace OpenALE

/-- A sounding as it is logged. -/
structure SoundView where
  control : Control
  chs : List Channel
  idx : Nat
  active : Bool
  phase : SoundingPhase
  drainStart : UInt32
  hops : List Channel
  sends : Nat

namespace SM

/-- The sounding of the machine. -/
def soundView (s : SM) : SoundView where
  control := s.control
  chs := s.snd.soundingSweepChs
  idx := s.snd.soundingSweepIdx
  active := s.snd.soundingSweepActive
  phase := s.snd.soundingPhase
  drainStart := s.tx.txDrainStartMs
  hops := OpenALE.hops s.out
  sends := sends (signals s.out)

/-- A callback that neither hops nor sends. -/
theorem soundView_emit (s : SM) {o : Output} (hh : OpenALE.hops [o] = [])
    (hs : sends (signals [o]) = 0) : (s.emit o).soundView = s.soundView := by
  have h1 : OpenALE.hops (s.out ++ [o]) = OpenALE.hops s.out := by
    rw [hops_append, hh, List.append_nil]
  have h2 : sends (signals (s.out ++ [o])) = sends (signals s.out) := by
    rw [signals_append, sends_append, hs, Nat.add_zero]
  unfold soundView emit
  dsimp only
  rw [h1, h2]
  rfl

theorem soundView_rxEnabled (s : SM) (on : Bool) : (s.rxEnabled on).soundView = s.soundView :=
  s.soundView_emit rfl rfl

/-! ## The end of a cycle -/

section Complete

variable {p : SM}

/-- The next channel of the sweep. -/
def nextSweepChannel (s : SM) : Option Channel :=
  if s.snd.soundingSweepActive then s.snd.soundingSweepChs[s.snd.soundingSweepIdx + 1]? else none

theorem moreSweep_eq (s : SM) : s.moreSweep = s.nextSweepChannel.isSome := by
  unfold moreSweep nextSweepChannel
  cases s.snd.soundingSweepActive with
  | false => rfl
  | true =>
    rw [if_pos rfl, Bool.true_and]
    by_cases h : s.snd.soundingSweepIdx + 1 < s.snd.soundingSweepChs.length
    · rw [List.getElem?_eq_getElem h, decide_eq_true h]
      rfl
    · rw [List.getElem?_eq_none (by omega), decide_eq_false h]
      rfl

/-- **With a channel left the sweep tunes to it and listens.** -/
theorem soundingComplete_next {ch : Channel} (h : p.nextSweepChannel = some ch) :
    p.soundingComplete.1.soundView = { p.soundView with
      idx := p.snd.soundingSweepIdx + 1, phase := .lbt, hops := OpenALE.hops p.out ++ [ch] } := by
  unfold nextSweepChannel at h
  cases ha : p.snd.soundingSweepActive with
  | false =>
    rw [ha] at h
    exact absurd h (by simp)
  | true =>
    rw [ha, if_pos rfl] at h
    have he : p.soundingComplete = (p.advanceSweep ch, true) := by
      unfold soundingComplete
      rw [ha, if_pos rfl, h]
    rw [he]
    have h1 : OpenALE.hops (p.out ++ [.channelChange ch]) = OpenALE.hops p.out ++ [ch] :=
      hops_append _ _
    have h2 : sends (signals (p.out ++ [.channelChange ch])) = sends (signals p.out) := by
      rw [signals_append, sends_append]
      rfl
    show SoundView.mk _ _ _ _ _ _ (OpenALE.hops (p.out ++ [.channelChange ch] ++ [_]))
      (sends (signals (p.out ++ [.channelChange ch] ++ [_]))) = _
    rw [hops_append, signals_append, sends_append, h1, h2]
    exact congrArg (fun l => SoundView.mk _ _ _ _ _ _ l _) (List.append_nil _)

/-- **Without one it goes back and leaves sweep mode.** -/
theorem soundingComplete_last (h : p.nextSweepChannel = none) :
    ∃ q : SM, (q = p ∨ q = p.dropSweep) ∧ q.snd.soundingSweepActive = false ∧
      p.soundingComplete.1 = (q.transitionTo p.previousState).1 := by
  unfold nextSweepChannel at h
  unfold soundingComplete
  cases ha : p.snd.soundingSweepActive with
  | false => exact ⟨p, Or.inl rfl, ha, rfl⟩
  | true =>
    rw [ha, if_pos rfl] at h
    refine ⟨p.dropSweep, Or.inr rfl, rfl, ?_⟩
    rw [if_pos rfl, h]

end Complete

/-! ## Operations in `SOUNDING` -/

/-- An operation with trigger `g` in `SOUNDING`. -/
inductive SoundMove (s : SM) (g : Trigger) (s' : SM) : Prop where
  | stay (hv : s'.soundView = s.soundView) (hg : g ≠ .event .soundingComplete)
  | sounds (n : Nat) (hn : 0 < n) (hp : s.snd.soundingPhase = .lbt)
      (hv : s'.soundView = { s.soundView with
        phase := .transmitting, sends := sends (signals s.out) + n })
      (hg : g ≠ .event .soundingComplete)
  | window (hp : s.snd.soundingPhase = .transmitting)
      (hv : s'.soundView = { s.soundView with phase := .listening })
      (hg : g ≠ .event .soundingComplete)
  | completes (p : SM) (hv : { p.soundView with phase := s.snd.soundingPhase } = s.soundView)
      (hs : s' = p.soundingComplete.1) (hg : g = .event .soundingComplete)
  | calls (p : SM) (hv : p.soundView = s.soundView)
      (hs : s' = (p.dropSweep.transitionTo .handshake).1) (hg : g = .event .callDetected)
  | aborts (p : SM) (hv : p.soundView = s.soundView) (t : ALEState) (hne : t ≠ .sounding)
      (hs : s' = (p.transitionTo t).1) (hg : g = .emergency ∨ g = .event .errorOccurred)

section Move

variable {s p s' : SM} {g : Trigger}

/-- The move after a note. -/
theorem SoundMove.after (hv : p.soundView = s.soundView) (h : p.SoundMove g s') :
    s.SoundMove g s' := by
  have hphase : p.snd.soundingPhase = s.snd.soundingPhase := congrArg SoundView.phase hv
  have hsends : sends (signals p.out) = sends (signals s.out) := congrArg SoundView.sends hv
  cases h with
  | stay hv' hg => exact .stay (hv'.trans hv) hg
  | sounds n hn hp hv' hg =>
    rw [hv, hsends] at hv'
    exact .sounds n hn (hphase.symm.trans hp) hv' hg
  | window hp hv' hg =>
    rw [hv] at hv'
    exact .window (hphase.symm.trans hp) hv' hg
  | completes q hv' hs hg =>
    rw [hphase] at hv'
    exact .completes q (hv'.trans hv) hs hg
  | calls q hv' hs hg => exact .calls q (hv'.trans hv) hs hg
  | aborts q hv' t hne hs hg => exact .aborts q (hv'.trans hv) t hne hs hg

/-- `process_event(SOUNDING_COMPLETE)` in `SOUNDING`. -/
theorem endSounding_eq (hc : p.currentState = .sounding) : p.endSounding = p.soundingComplete.1 := by
  unfold endSounding processEvent
  rw [hc]

/-- The cycle ends after a note. -/
theorem SoundMove.ends (hc : s.currentState = .sounding)
    (hv : { p.soundView with phase := s.snd.soundingPhase } = s.soundView)
    (hg : g = .event .soundingComplete) : s.SoundMove g p.endSounding := by
  have hp : p.currentState = .sounding := (congrArg (Control.state ∘ SoundView.control) hv).trans hc
  exact .completes p hv (endSounding_eq hp) hg

/-- A call is taken after a note. -/
theorem SoundMove.taken (hc : s.currentState = .sounding) (hv : p.soundView = s.soundView) :
    s.SoundMove (.event .callDetected) (p.processEvent .callDetected).1 := by
  have hp : p.currentState = .sounding := (congrArg (Control.state ∘ SoundView.control) hv).trans hc
  refine .calls p hv ?_ rfl
  unfold processEvent
  rw [hp]

theorem processEvent_sounds (hc : s.currentState = .sounding) (e : ALEEvent) :
    s.SoundMove (.event e) (s.processEvent e).1 := by
  by_cases h1 : e = .soundingComplete
  · subst h1
    exact .ends hc rfl rfl
  by_cases h2 : e = .callDetected
  · subst h2
    exact .taken hc rfl
  by_cases h3 : e = .errorOccurred
  · subst h3
    refine .aborts s rfl .error (by decide) ?_ (Or.inr rfl)
    unfold processEvent
    rw [hc]
  · have he : (s.processEvent e).1 = s := by
      unfold processEvent
      rw [hc]
      cases e <;> first | rfl | exact absurd rfl h1 | exact absurd rfl h2 | exact absurd rfl h3
    rw [he]
    exact .stay rfl (event_ne h1)

/-! ### The clock -/

theorem startSounding_view (hself : s.selfAddress ≠ []) :
    s.startSounding.soundView = { s.soundView with
      phase := .transmitting, sends := sends (signals s.out) + s.soundingWords.length } := by
  unfold startSounding
  dsimp only
  rw [if_pos hself, transmitWords_eq]
  show SoundView.mk _ _ _ _ _ _ (OpenALE.hops (s.out ++ [_] ++ _))
    (sends (signals (s.out ++ [_] ++ _))) = _
  rw [hops_append, hops_append, hops_transmit, signals_append, signals_append, signals_transmit,
    sends_append, sends_append, sends_replicate, List.append_nil]
  exact congrArg (fun l => SoundView.mk _ _ _ _ _ _ l _) (List.append_nil _)

theorem openSoundingWindow_view (s : SM) :
    s.openSoundingWindow.soundView = { s.soundView with phase := .listening } :=
  soundView_rxEnabled { s with snd := { s.snd with
    soundingPhase := .listening, soundingListeningStartMs := s.currentTimeMs } } true

theorem handleSoundingLbt_sounds (env : Env) (hc : s.currentState = .sounding)
    (hp : s.snd.soundingPhase = .lbt) :
    s.SoundMove (s.soundingTrigger env) (s.handleSoundingLbt env) := by
  unfold soundingTrigger handleSoundingLbt
  rw [hp]
  dsimp only
  by_cases hb : s.lbtChannelBusy env = true
  · rw [if_pos hb, if_pos hb]
    exact .ends hc rfl rfl
  rw [if_neg hb, if_neg hb]
  by_cases hw : s.effectiveTwtMs ≤ s.currentTimeMs - s.snd.soundingLbtStartMs
  · rw [if_pos hw]
    by_cases hself : s.selfAddress = []
    · have hend : s.startSounding =
          endSounding { s with snd := { s.snd with soundingPhase := .transmitting } } := by
        unfold startSounding
        dsimp only
        rw [if_neg (not_not.mpr hself)]
      rw [hend, raiseIf_pos ⟨hw, hself⟩]
      exact .ends hc rfl rfl
    · rw [raiseIf_neg (fun h => hself h.2)]
      exact .sounds _ (length_soundingWords_pos s) hp (startSounding_view hself) (none_ne _)
  · rw [if_neg hw, raiseIf_neg (fun h => hw h.1)]
    exact .stay rfl (none_ne _)

/-- The fallback of `handle_sounding` opens the window and leaves it open. -/
theorem handleSounding_drained (env : Env) (hp : s.snd.soundingPhase = .transmitting)
    (hw : s.tx.wordsPending = 0) : s.handleSounding env = s.openSoundingWindow := by
  have hphase : s.openSoundingWindow.snd.soundingPhase = .listening := rfl
  have hn : ¬ trwMs < s.openSoundingWindow.currentTimeMs -
      s.openSoundingWindow.snd.soundingListeningStartMs := by
    show ¬ trwMs < s.currentTimeMs - s.currentTimeMs
    rw [UInt32.sub_self]
    decide
  unfold handleSounding openIfDrained
  simp only [hp, hw, and_self, if_true, hphase, reduceCtorEq, if_false]
  exact if_neg hn

theorem handleSounding_sounds (env : Env) (hc : s.currentState = .sounding) :
    s.SoundMove (s.soundingTrigger env) (s.handleSounding env) := by
  have hlbt := handleSoundingLbt_sounds env hc
  unfold handleSounding openIfDrained
  cases hp : s.snd.soundingPhase with
  | lbt =>
    rw [if_pos rfl]
    exact hlbt hp
  | transmitting =>
    have hg : s.soundingTrigger env = .none := by
      unfold soundingTrigger
      rw [hp]
    rw [hg]
    by_cases hw : s.tx.wordsPending = 0
    · have hopen := handleSounding_drained env hp hw
      unfold handleSounding openIfDrained at hopen
      rw [hp] at hopen
      rw [hopen]
      exact .window hp (openSoundingWindow_view s) (none_ne _)
    · simp only [hw, and_false, if_false, hp, if_true, reduceCtorEq]
      exact .stay rfl (none_ne _)
  | listening =>
    unfold soundingTrigger
    rw [hp]
    simp only [reduceCtorEq, if_false, false_and, hp]
    by_cases hw : trwMs < s.currentTimeMs - s.snd.soundingListeningStartMs
    · rw [if_pos hw, raiseIf_pos hw]
      exact .ends hc rfl rfl
    · rw [if_neg hw, raiseIf_neg hw]
      exact .stay rfl (none_ne _)

/-- No link timeout and no drain watchdog runs in `SOUNDING`. -/
theorem tick_sounding (env : Env) (hc : s.currentState = .sounding)
    (hd : s.tx.txDrainStartMs = 0) :
    s.tick env = s.handleSounding env ∧ s.tickTrigger env = s.soundingTrigger env := by
  have hl : s.checkLinkTimeout = false := by
    unfold checkLinkTimeout
    rw [hc]
  have ha : s.drainExpired = false := by
    unfold drainExpired
    rw [hd]
    rfl
  unfold tick tickTrigger handle handleTrigger
  rw [hl, ha, hc, Bool.and_false]
  exact ⟨rfl, rfl⟩

theorem update_sounds {now : UInt32} {env : Env} (hc : s.currentState = .sounding)
    (hd : s.tx.txDrainStartMs = 0) :
    s.SoundMove (s.trigger (.update now env)) (s.update now env) := by
  unfold update trigger
  dsimp only
  by_cases hb : 0x80000000 ≤ now - s.currentTimeMs
  · rw [if_pos hb, if_pos hb]
    exact .stay rfl (none_ne _)
  rw [if_neg hb, if_neg hb]
  obtain ⟨h1, h2⟩ := tick_sounding (s := { s with currentTimeMs := now }) env hc hd
  rw [h1, h2]
  refine SoundMove.after (p := { s with currentTimeMs := now }) rfl ?_
  exact handleSounding_sounds env hc

/-! ### Words and completions -/

theorem onInvalidWord_sounds (hc : s.currentState = .sounding) :
    s.SoundMove s.invalidTrigger s.onInvalidWord := by
  unfold invalidTrigger onInvalidWord
  rw [hc]
  dsimp only
  by_cases hp : s.snd.soundingPhase = .lbt
  · rw [if_pos hp, raiseIf_pos hp]
    exact .ends hc rfl rfl
  · rw [if_neg hp, raiseIf_neg hp]
    exact .stay rfl (none_ne _)

theorem react_sounds (hc : s.currentState = .sounding) (r : WordRole) (w : ALEWord) :
    s.SoundMove (s.reactTrigger r) (s.react r w) := by
  unfold reactTrigger react reactSounding
  rw [hc]
  dsimp only
  by_cases hb : r = .channelBusy
  · subst hb
    rw [if_pos rfl]
    exact .ends hc rfl rfl
  rw [if_neg hb]
  have hd : s.SoundMove (detectTrigger r) (s.detectIncomingCall r) := by
    unfold detectTrigger detectIncomingCall
    cases r <;> first | exact .stay rfl (none_ne _) | exact .taken hc rfl
  by_cases hp : s.snd.soundingPhase = .listening
  · rw [if_pos hp]
    cases r <;> first | exact absurd rfl hb | (dsimp only; rw [if_pos hp]; exact hd)
  · rw [if_neg hp]
    cases r <;> first | exact absurd rfl hb | (dsimp only; rw [if_neg hp]; exact .stay rfl (none_ne _))

theorem updateLqa_view (s : SM) (lq : LinkQuality) : (s.updateLqa lq).soundView = s.soundView := by
  unfold updateLqa
  split
  · exact soundView_emit s rfl rfl
  · rfl

theorem processReceivedWord_sounds (hc : s.currentState = .sounding) (w : ALEWord) :
    s.SoundMove (s.trigger (.processReceivedWord w)) (s.processReceivedWord w) := by
  unfold trigger processReceivedWord
  dsimp only
  by_cases hw : w.valid = true
  · rw [if_neg (not_not.mpr hw), if_neg (not_not.mpr hw)]
    have hv := updateLqa_view { s with
      hs := { s.hs with contiguousErrors := 0 }, lastWordTimeMs := s.currentTimeMs }
      (wordQuality { s with
        hs := { s.hs with contiguousErrors := 0 }, lastWordTimeMs := s.currentTimeMs } w)
    obtain ⟨o, ho⟩ := updateLqa_eq { s with
      hs := { s.hs with contiguousErrors := 0 }, lastWordTimeMs := s.currentTimeMs }
      (wordQuality { s with
        hs := { s.hs with contiguousErrors := 0 }, lastWordTimeMs := s.currentTimeMs } w)
    rw [ho] at hv ⊢
    exact (react_sounds (s := { s with
      hs := { s.hs with contiguousErrors := 0 }, lastWordTimeMs := s.currentTimeMs, out := o })
      hc _ w).after hv
  · rw [if_pos hw, if_pos hw]
    exact onInvalidWord_sounds hc

theorem onWordComplete_sounds (hc : s.currentState = .sounding) :
    s.SoundMove s.completeTrigger s.onWordComplete := by
  have hn : ¬ (s.currentState = .linked ∧ s.link.linkedTerminating) := by simp [hc]
  have hn' : ¬ (s.currentState = .linked ∧ s.ow.orderwireTransmitting) := by simp [hc]
  unfold completeTrigger onWordComplete
  rw [if_neg hn, if_neg hn, if_neg hn', if_neg hn', if_pos hc, if_pos hc]
  unfold completeSounding
  dsimp only
  split
  · rename_i h
    exact .window h.2 (openSoundingWindow_view s.popWord) (none_ne _)
  · exact .stay rfl (none_ne _)

/-! ### The API -/

/-- **Each operation in `SOUNDING` stays, sounds, opens the window, completes the cycle or
leaves.** -/
theorem exec_sounds (hc : s.currentState = .sounding) (hd : s.tx.txDrainStartMs = 0) (op : Op) :
    s.SoundMove (s.trigger op) (s.exec op) := by
  have hav : s.available = false := by
    unfold available
    rw [hc]
    rfl
  have how : s.orderwireOpen = false := by
    unfold orderwireOpen
    rw [hc]
    rfl
  have hstay : s.SoundMove .none s := .stay rfl (none_ne _)
  cases op with
  | processEvent e => exact processEvent_sounds hc e
  | update now env => exact update_sounds hc hd
  | processReceivedWord w => exact processReceivedWord_sounds hc w
  | onWordComplete => exact onWordComplete_sounds hc
  | initiateCall target =>
    simp only [trigger, exec, initiateCall, raiseIf, hav]
    exact hstay
  | initiateNetCall a =>
    simp only [trigger, exec, initiateNetCall, raiseIf, hav]
    exact hstay
  | initiateGroupCall ms =>
    simp only [trigger, exec, initiateGroupCall, raiseIf, hav]
    simpa using hstay
  | respondToCall =>
    simp only [trigger, exec, respondToCall, raiseIf, hc]
    simpa using hstay
  | sendSounding =>
    simp only [trigger, exec, sendSounding, raiseIf, hav]
    exact hstay
  | sendSoundingSweep chs =>
    simp only [trigger, exec, sendSoundingSweep, raiseIf, hav]
    simpa using hstay
  | sendAllcallBroadcast a t l =>
    simp only [trigger, exec, sendAllcallBroadcast, hav]
    exact hstay
  | terminateLink =>
    simp only [trigger, exec, terminateLink, hc]
    exact hstay
  | emergencyManualControl =>
    refine .aborts (SM.operator { s with emergencyActive := true } .emergencyActive)
      (soundView_emit { s with emergencyActive := true } rfl rfl) .idle (by decide) ?_ (Or.inl rfl)
    show s.emergencyManualControl = _
    unfold emergencyManualControl
    dsimp only
    rw [if_neg (by
      show ¬ (s.currentState = .linked ∧ _)
      rw [hc]
      exact fun h => ALEState.noConfusion h.1)]
  | triggerLinkedOrderwire ws d =>
    simp only [trigger, exec, triggerLinkedOrderwire, how]
    exact hstay
  | sendLinkedAmd ws p n =>
    simp only [trigger, exec, sendLinkedAmd, how]
    exact hstay
  | respondToLinkedAmd a ws =>
    simp only [trigger, exec, respondToLinkedAmd, how]
    exact hstay
  | onLinkActivity =>
    simp only [trigger, exec, onLinkActivity, hc]
    exact hstay
  | resetLinkIdleTimer =>
    simp only [trigger, exec, resetLinkIdleTimer, hc]
    exact hstay
  | updateLinkQuality lq => exact .stay (updateLqa_view s lq) (none_ne _)
  | beginScanPause t =>
    simp only [trigger, exec, beginScanPause, hc]
    simpa using hstay
  | extendPeerWaitWindow d => exact .stay rfl (none_ne _)
  | set x =>
    cases x with
    | selfAddress a =>
      simp only [trigger, exec, set, setSelfAddress]
      split <;> exact .stay rfl (none_ne _)
    | _ => exact .stay rfl (none_ne _)

/-- One step in `SOUNDING`. -/
theorem step_sounds (hc : s.currentState = .sounding) (hd : s.tx.txDrainStartMs = 0) (op : Op) :
    s.clearOut.SoundMove (s.trigger op) (s.step op) := by
  have h : s.clearOut.trigger op = s.trigger op := by cases op <;> rfl
  rw [← h]
  exact exec_sounds (s := s.clearOut) hc hd op

/-- Only an emergency stop and an error event abort. -/
theorem trigger_aborts (hc : s.currentState = .sounding) {op : Op}
    (h : s.trigger op = .emergency ∨ s.trigger op = .event .errorOccurred) :
    op = .emergencyManualControl ∨ op = .processEvent .errorOccurred := by
  have hraise : ∀ {c : Prop} [Decidable c] {e : ALEEvent}, e ≠ .errorOccurred →
      ¬ (raiseIf c e = .emergency ∨ raiseIf c e = .event .errorOccurred) := by
    intro c _ e he
    unfold raiseIf
    split
    · simpa using he
    · simp
  have hsnd : ∀ {s : SM} {env : Env}, ¬ (s.soundingTrigger env = .emergency ∨
      s.soundingTrigger env = .event .errorOccurred) := by
    intro s env
    unfold soundingTrigger
    split
    · split
      · simp
      · exact hraise (by decide)
    · simp
    · exact hraise (by decide)
  cases op with
  | emergencyManualControl => exact Or.inl rfl
  | processEvent e =>
    right
    have he : e = .errorOccurred := by simpa [trigger] using h
    rw [he]
  | update now env =>
    exfalso
    simp only [trigger, tickTrigger, handleTrigger, hc] at h
    split at h
    · simp at h
    split at h
    · simp at h
    split at h
    · simp at h
    · exact hsnd h
  | processReceivedWord w =>
    exfalso
    have hr : ∀ r, ¬ (s.reactTrigger r = .emergency ∨ s.reactTrigger r = .event .errorOccurred) := by
      intro r
      unfold reactTrigger
      rw [hc]
      cases r <;> simp [detectTrigger] <;> split <;> simp
    simp only [trigger] at h
    split at h
    · unfold invalidTrigger at h
      rw [hc] at h
      exact hraise (by decide) h
    · exact hr _ h
  | onWordComplete =>
    exfalso
    simp [trigger, completeTrigger, hc] at h
  | initiateCall _ | initiateNetCall _ | initiateGroupCall _ | respondToCall | sendSounding
  | sendSoundingSweep _ => exact absurd h (hraise (by decide))
  | _ => exact absurd h (by simp [trigger])

end Move

end SM

end OpenALE
