import OpenALE.Control.Drain

/-!
# What an operation does while an AllCall broadcast is on the air

The broadcast stays in `IDLE` or `SCANNING`; what is left of it is `words_pending` and the drain
watchdog.

Results:
* `exec_air`: while the broadcast is on, an operation leaves it alone, completes a word of it, finds
  its deadline passed or changes the state.
* `exec_allcall_off`: only `send_allcall_broadcast` starts one.
-/

namespace OpenALE

namespace SM

/-- The operation neither completes a word nor finds the deadline of the broadcast passed. -/
def Idles (s : SM) : Op → Prop
  | .onWordComplete => False
  | .update now _ => s.allcallLost now = false
  | _ => True

/-- The broadcast sees no difference. -/
structure OffAir (s p : SM) : Prop where
  state : p.currentState = s.currentState
  allcall : p.allcallBroadcasting = s.allcallBroadcasting
  tx : p.tx = s.tx
  out : signals p.out = signals s.out

theorem OffAir.refl (s : SM) : s.OffAir s := ⟨rfl, rfl, rfl, rfl⟩

/-- An operation while the broadcast is on. -/
inductive AirMove (s : SM) (op : Op) (s' : SM) : Prop where
  | stay (h : s.OffAir s') (hi : s.Idles op)
  | leaves (hc : s'.currentState ≠ s.currentState)
      (ha : s'.allcallBroadcasting = s.allcallBroadcasting) (htx : s'.tx = {})
  | word (hop : op = .onWordComplete) (hs : s' = s.completeAllcall)
  | lost (now : UInt32) (env : Env) (hop : op = .update now env) (hl : s.allcallLost now = true)
      (hs : s' = (s.clocked now).allcallDrainTimeout)

section Move

variable {s p : SM} {op : Op}

/-- A transition while the broadcast is on. -/
theorem transitionTo_air {t : ALEState} (h : s.OffAir p) (hne : s.currentState ≠ t) :
    s.AirMove op (p.transitionTo t).1 := by
  refine .leaves ?_ ((transitionTo_kept p t).allcallBroadcasting.trans h.allcall) ?_
  · rw [transitionTo_state]
    exact Ne.symm hne
  · exact transitionTo_tx (by rw [h.state]; exact hne)

/-- An event after something the broadcast does not see. -/
theorem processEvent_air (hav : s.currentState = .idle ∨ s.currentState = .scanning)
    (h : s.OffAir p) (hi : s.Idles op) (e : ALEEvent) : s.AirMove op (p.processEvent e).1 := by
  have hgo : ∀ t, s.currentState ≠ t → s.AirMove op (p.transitionTo t).1 :=
    fun t => transitionTo_air h
  have hstay : s.AirMove op p := .stay h hi
  unfold processEvent
  rw [h.state]
  rcases hav with h | h <;> rw [h] at hgo ⊢ <;> cases e <;>
    first
      | exact hstay
      | exact hgo _ (fun h => ALEState.noConfusion h)

theorem callRequest_air (hav : s.currentState = .idle ∨ s.currentState = .scanning)
    (hi : s.Idles op) (h : s.OffAir p) : s.AirMove op p.callRequest.1 :=
  processEvent_air hav h hi _

theorem handleScanning_air (env : Env) :
    (s.handleScanning env).allcallBroadcasting = s.allcallBroadcasting ∧
      (s.handleScanning env).tx = s.tx ∧
      signals (s.handleScanning env).out = signals s.out := by
  unfold handleScanning
  dsimp only
  repeat' split
  all_goals
    first
      | exact ⟨rfl, rfl, rfl⟩
      | exact ⟨rfl, rfl, signals_hop s _⟩

/-- No link timeout runs in `IDLE` and `SCANNING`. -/
theorem checkLinkTimeout_available (hav : s.currentState = .idle ∨ s.currentState = .scanning) :
    s.checkLinkTimeout = false := by
  unfold checkLinkTimeout
  rcases hav with h | h <;> rw [h]

/-- While the broadcast is on, a tick looks at its watchdog first. -/
theorem tick_air (hav : s.currentState = .idle ∨ s.currentState = .scanning)
    (ha : s.allcallBroadcasting = true) (env : Env) :
    s.tick env = if s.drainExpired then s.allcallDrainTimeout else s.handle env := by
  unfold tick
  rw [checkLinkTimeout_available hav, if_neg Bool.false_ne_true, ha, Bool.true_and]

theorem handle_air (hav : s.currentState = .idle ∨ s.currentState = .scanning) (env : Env) :
    s.OffAir (s.handle env) := by
  unfold handle
  rcases hav with h | h <;> rw [h]
  · exact .refl s
  · obtain ⟨h1, h2, h3⟩ := handleScanning_air (s := s) env
    exact ⟨congrArg Control.state (handleScanning_control s env), h1, h2, h3⟩

theorem update_air (hav : s.currentState = .idle ∨ s.currentState = .scanning)
    (ha : s.allcallBroadcasting = true) (now : UInt32) (env : Env) :
    s.AirMove (.update now env) (s.update now env) := by
  have hl : (s.clocked now).checkLinkTimeout = false := checkLinkTimeout_available hav
  by_cases hb : 0x80000000 ≤ now - s.currentTimeMs
  · have he : s.update now env = s := if_pos hb
    rw [he]
    refine .stay (.refl s) ?_
    show s.allcallLost now = false
    unfold allcallLost deadlinePassed
    rw [decide_eq_false (not_not.mpr hb)]
    rfl
  have he : s.update now env = (s.clocked now).tick env := if_neg hb
  have hlost : s.allcallLost now = (s.clocked now).drainExpired := by
    unfold allcallLost deadlinePassed
    rw [decide_eq_true hb, hl, ha, Bool.and_true, Bool.true_and, Bool.not_false, Bool.true_and]
  rw [he, tick_air (s := s.clocked now) hav ha]
  cases hd : (s.clocked now).drainExpired with
  | true =>
    rw [if_pos rfl]
    exact .lost now env rfl (hlost.trans hd) rfl
  | false =>
    rw [if_neg Bool.false_ne_true]
    have hh := handle_air (s := s.clocked now) hav env
    exact .stay ⟨hh.state, hh.allcall, hh.tx, hh.out⟩ (hlost.trans hd)

/-! ### Words -/

theorem detectIncomingCall_air {w : ALEWord}
    (hav : s.currentState = .idle ∨ s.currentState = .scanning) (h : s.OffAir p) (r : WordRole) :
    s.AirMove (.processReceivedWord w) (p.detectIncomingCall r) := by
  unfold detectIncomingCall
  cases r with
  | toSelf a =>
    refine processEvent_air (p := { p with link := { p.link with activeCallTo := a } }) hav ?_ ?_ _
    · exact ⟨h.state, h.allcall, h.tx, h.out⟩
    · exact trivial
  | allcall a =>
    refine processEvent_air (p := { p with hs := { p.hs with allcallSilent := true } }) hav ?_ ?_ _
    · exact ⟨h.state, h.allcall, h.tx, h.out⟩
    · exact trivial
  | _ => exact .stay h trivial

theorem react_air {w : ALEWord} (hav : s.currentState = .idle ∨ s.currentState = .scanning)
    (h : s.OffAir p) (r : WordRole) : s.AirMove (.processReceivedWord w) (p.react r w) := by
  have hd := detectIncomingCall_air (w := w) hav h r
  unfold react
  rw [h.state]
  rcases hav with h | h <;> rw [h]
  · exact hd
  · show s.AirMove _ (p.reactScanning r)
    unfold reactScanning
    dsimp only
    split
    · exact hd
    · rename_i hst
      have hst' : (p.detectIncomingCall r).currentState = s.currentState := (not_not.mp hst).trans h.symm
      cases hd with
      | stay h hi => exact .stay ⟨h.state, h.allcall, h.tx, h.out⟩ hi
      | leaves hc _ _ => exact absurd hst' hc
      | word hop _ => exact Op.noConfusion hop
      | lost _ _ hop _ _ => exact Op.noConfusion hop

theorem processReceivedWord_air (hav : s.currentState = .idle ∨ s.currentState = .scanning)
    (w : ALEWord) : s.AirMove (.processReceivedWord w) (s.processReceivedWord w) := by
  unfold processReceivedWord
  split
  · have he : s.onInvalidWord = s := by
      unfold onInvalidWord
      rcases hav with h | h <;> rw [h]
    rw [he]
    exact .stay ⟨rfl, rfl, rfl, rfl⟩ trivial
  · dsimp only
    have hsig := updateLqa_signals
      { s with hs := { s.hs with contiguousErrors := 0 }, lastWordTimeMs := s.currentTimeMs }
      (wordQuality { s with
        hs := { s.hs with contiguousErrors := 0 }, lastWordTimeMs := s.currentTimeMs } w)
    obtain ⟨o, ho⟩ := updateLqa_eq
      { s with hs := { s.hs with contiguousErrors := 0 }, lastWordTimeMs := s.currentTimeMs }
      (wordQuality { s with
        hs := { s.hs with contiguousErrors := 0 }, lastWordTimeMs := s.currentTimeMs } w)
    rw [ho] at hsig ⊢
    generalize hq : ({ s with
      hs := { s.hs with contiguousErrors := 0 }, lastWordTimeMs := s.currentTimeMs, out := o } : SM) = q
    have h : s.OffAir q := by
      rw [← hq]
      exact ⟨rfl, rfl, rfl, hsig⟩
    exact react_air hav h _

/-! ### The API -/

theorem onWordComplete_air (hav : s.currentState = .idle ∨ s.currentState = .scanning)
    (ha : s.allcallBroadcasting = true) : s.onWordComplete = s.completeAllcall := by
  have hl : s.currentState ≠ .linked := by rcases hav with h | h <;> rw [h] <;> decide
  have hs : s.currentState ≠ .sounding := by rcases hav with h | h <;> rw [h] <;> decide
  unfold onWordComplete
  rw [if_neg (fun h => hl h.1), if_neg (fun h => hl h.1), if_neg hs, if_pos ha]

theorem emergencyManualControl_air (hav : s.currentState = .idle ∨ s.currentState = .scanning) :
    s.AirMove .emergencyManualControl s.emergencyManualControl := by
  have hl : s.currentState ≠ .linked := by rcases hav with h | h <;> rw [h] <;> decide
  have he : s.emergencyManualControl =
      ((SM.operator { s with emergencyActive := true } .emergencyActive).transitionTo .idle).1 := by
    unfold emergencyManualControl
    dsimp only
    rw [if_neg (by
      show ¬ (s.currentState = .linked ∧ _)
      exact fun h => hl h.1)]
  rw [he]
  by_cases hi : s.currentState = .idle
  · rw [transitionTo_self (show (SM.operator { s with emergencyActive := true }
      .emergencyActive).currentState = .idle from hi)]
    exact .stay ⟨rfl, rfl, rfl, signals_operator { s with emergencyActive := true } _⟩ trivial
  · exact transitionTo_air ⟨rfl, rfl, rfl, signals_operator { s with emergencyActive := true } _⟩ hi

/-- **While the broadcast is on, an operation leaves it alone, completes a word of it, finds its
deadline passed or changes the state.** -/
theorem exec_air (hav : s.currentState = .idle ∨ s.currentState = .scanning)
    (ha : s.allcallBroadcasting = true) (op : Op) : s.AirMove op (s.exec op) := by
  have hav' : s.available = true := (available_iff s).mpr hav
  have hl : s.currentState ≠ .linked := by rcases hav with h | h <;> rw [h] <;> decide
  have hh : s.currentState ≠ .handshake := by rcases hav with h | h <;> rw [h] <;> decide
  have how : s.orderwireOpen = false := by
    unfold orderwireOpen
    rw [beq_eq_false_iff_ne.mpr hl]
    rfl
  cases op with
  | update now env => exact update_air hav ha now env
  | onWordComplete => exact .word rfl (onWordComplete_air hav ha)
  | processReceivedWord w => exact processReceivedWord_air hav w
  | processEvent e =>
    refine processEvent_air hav (.refl s) ?_ e
    exact trivial
  | emergencyManualControl => exact emergencyManualControl_air hav
  | initiateCall target =>
    show s.AirMove _ (s.initiateCall target).1
    unfold initiateCall
    rw [if_neg (not_not.mpr hav')]
    exact callRequest_air hav trivial ⟨rfl, rfl, rfl, rfl⟩
  | initiateNetCall a =>
    show s.AirMove _ (s.initiateNetCall a).1
    unfold initiateNetCall
    rw [if_neg (not_not.mpr hav')]
    exact callRequest_air hav trivial ⟨rfl, rfl, rfl, rfl⟩
  | initiateGroupCall ms =>
    show s.AirMove _ (s.initiateGroupCall ms).1
    unfold initiateGroupCall
    rw [if_neg (not_not.mpr hav')]
    split
    · exact .stay ⟨rfl, rfl, rfl, rfl⟩ trivial
    · exact callRequest_air hav trivial ⟨rfl, rfl, rfl, rfl⟩
  | sendSounding =>
    show s.AirMove _ s.sendSounding.1
    unfold sendSounding
    rw [if_neg (not_not.mpr hav')]
    refine processEvent_air hav (.refl s) ?_ _
    exact trivial
  | sendSoundingSweep chs =>
    show s.AirMove _ (s.sendSoundingSweep chs).1
    unfold sendSoundingSweep
    rw [if_neg (not_not.mpr hav'), if_pos ha]
    exact .stay ⟨rfl, rfl, rfl, rfl⟩ trivial
  | sendAllcallBroadcast a t l =>
    show s.AirMove _ (s.sendAllcallBroadcast a t l).1
    unfold sendAllcallBroadcast
    rw [if_neg (not_not.mpr hav'), if_pos ha]
    exact .stay ⟨rfl, rfl, rfl, rfl⟩ trivial
  | respondToCall =>
    simp only [exec, respondToCall, hh, ne_eq, not_false_eq_true, if_true]
    exact .stay ⟨rfl, rfl, rfl, rfl⟩ trivial
  | terminateLink =>
    simp only [exec, terminateLink, hl, ne_eq, not_false_eq_true, if_true]
    exact .stay ⟨rfl, rfl, rfl, rfl⟩ trivial
  | triggerLinkedOrderwire ws d =>
    simp only [exec, triggerLinkedOrderwire, how]
    exact .stay ⟨rfl, rfl, rfl, rfl⟩ trivial
  | sendLinkedAmd ws q n =>
    simp only [exec, sendLinkedAmd, how]
    exact .stay ⟨rfl, rfl, rfl, rfl⟩ trivial
  | respondToLinkedAmd a ws =>
    simp only [exec, respondToLinkedAmd, how]
    exact .stay ⟨rfl, rfl, rfl, rfl⟩ trivial
  | onLinkActivity =>
    simp only [exec, onLinkActivity, hl, if_false]
    exact .stay ⟨rfl, rfl, rfl, rfl⟩ trivial
  | resetLinkIdleTimer =>
    simp only [exec, resetLinkIdleTimer, hl, ne_eq, not_false_eq_true, if_true]
    exact .stay ⟨rfl, rfl, rfl, rfl⟩ trivial
  | updateLinkQuality lq =>
    have hs := updateLqa_signals s lq
    obtain ⟨o, ho⟩ := updateLqa_eq s lq
    show s.AirMove _ (s.updateLqa lq)
    rw [ho] at hs ⊢
    exact .stay ⟨rfl, rfl, rfl, hs⟩ trivial
  | beginScanPause t =>
    show s.AirMove _ (s.beginScanPause t)
    unfold beginScanPause
    split <;>
      exact .stay ⟨rfl, rfl, rfl, rfl⟩ trivial
  | extendPeerWaitWindow d =>
    exact .stay ⟨rfl, rfl, rfl, rfl⟩ trivial
  | set x =>
    have hset : (s.set x).currentState = s.currentState ∧
        (s.set x).allcallBroadcasting = s.allcallBroadcasting ∧ (s.set x).tx = s.tx ∧
        (s.set x).out = s.out := by
      cases x with
      | selfAddress a =>
        unfold set setSelfAddress
        dsimp only
        split <;> exact ⟨rfl, rfl, rfl, rfl⟩
      | _ => exact ⟨rfl, rfl, rfl, rfl⟩
    obtain ⟨h1, h2, h3, h4⟩ := hset
    exact .stay ⟨h1, h2, h3, congrArg signals h4⟩ trivial

end Move

/-! ## The start of a broadcast -/

/-- A reaction starts no broadcast. -/
theorem Reacts.allcall {s s' : SM} {g : Trigger} (h : s.Reacts g s') :
    s'.allcallBroadcasting = s.allcallBroadcasting := by
  match g, h with
  | .none, h => exact congrArg TxView.allcall h.view
  | .event e, ⟨p, hn, _, hp⟩ =>
    rw [hp, (processEvent_kept p e).allcallBroadcasting]
    exact congrArg TxView.allcall hn.view

/-- A tick starts no broadcast. -/
theorem TickMove.allcall_off {s : SM} {env : Env} {v : TxView} {sig : List Signal}
    (h : s.TickMove env v sig) (ha : s.allcallBroadcasting = false) : v.allcall = false := by
  cases h <;> first | exact ha | rfl

/-- Nor does a completed word. -/
theorem DoneMove.allcall_off {s : SM} {v : TxView} {sig : List Signal} (h : s.DoneMove v sig)
    (ha : s.allcallBroadcasting = false) : v.allcall = false := by
  cases h with
  | stray _ _ _ _ h => exact absurd (ha.symm.trans h) Bool.false_ne_true
  | _ => first | exact ha | rfl

theorem update_allcall_off {s : SM} (ho : s.control.Outside) (ha : s.allcallBroadcasting = false)
    (now : UInt32) (env : Env) : (s.update now env).allcallBroadcasting = false := by
  by_cases hb : 0x80000000 ≤ now - s.currentTimeMs
  · rw [show s.update now env = s from if_pos hb]
    exact ha
  · rw [show s.update now env = (s.clocked now).tick env from if_neg hb]
    have ht : (s.clocked now).Ticks env ((s.clocked now).tick env) := tick_moves ho
    obtain ⟨v, sig, hy, hm⟩ := ht
    exact (congrArg TxView.allcall hy.view).trans (hm.allcall_off ha)

/-- **Only `send_allcall_broadcast` starts a broadcast.** -/
theorem exec_allcall_off {s : SM} (ho : s.control.Outside) (ha : s.allcallBroadcasting = false)
    {op : Op} (hop : ∀ a t l, op ≠ .sendAllcallBroadcast a t l) :
    (s.exec op).allcallBroadcasting = false := by
  have hr : ∀ {g : Trigger}, s.Reacts g (s.exec op) → (s.exec op).allcallBroadcasting = false :=
    fun h => h.allcall.trans ha
  cases op with
  | sendAllcallBroadcast a t l => exact absurd rfl (hop a t l)
  | update now env => exact update_allcall_off ho ha now env
  | onWordComplete =>
    obtain ⟨v, sig, hy, hm⟩ := done_moves ho
    exact (congrArg TxView.allcall hy.view).trans (hm.allcall_off ha)
  | processEvent e => exact (processEvent_kept s e).allcallBroadcasting.trans ha
  | processReceivedWord w => exact hr (processReceivedWord_reacts s w)
  | initiateCall t => exact hr (initiateCall_reacts s t)
  | initiateNetCall a => exact hr (initiateNetCall_reacts s a)
  | initiateGroupCall ms => exact hr (initiateGroupCall_reacts s ms)
  | respondToCall => exact hr (respondToCall_reacts s)
  | sendSounding => exact hr (sendSounding_reacts s)
  | sendSoundingSweep chs => exact hr (sendSoundingSweep_reacts s chs)
  | terminateLink =>
    show s.terminateLink.allcallBroadcasting = false
    by_cases hc : s.currentState = .linked
    · rw [terminateLink_eq hc]
      exact ha
    · unfold terminateLink
      rw [if_pos hc]
      exact ha
  | emergencyManualControl =>
    show s.emergencyManualControl.allcallBroadcasting = false
    unfold emergencyManualControl
    rw [(transitionTo_kept _ _).allcallBroadcasting]
    split
    · rw [transmitWords_eq]
      exact ha
    · exact ha
  | triggerLinkedOrderwire ws d =>
    show (s.triggerLinkedOrderwire ws d).allcallBroadcasting = false
    unfold triggerLinkedOrderwire
    split <;> exact ha
  | sendLinkedAmd ws p n =>
    show (s.sendLinkedAmd ws p n).allcallBroadcasting = false
    unfold sendLinkedAmd
    split <;> exact ha
  | respondToLinkedAmd a ws =>
    show (s.respondToLinkedAmd a ws).allcallBroadcasting = false
    unfold respondToLinkedAmd
    repeat' split
    all_goals exact ha
  | onLinkActivity =>
    show s.onLinkActivity.allcallBroadcasting = false
    unfold onLinkActivity
    split <;> exact ha
  | resetLinkIdleTimer =>
    show s.resetLinkIdleTimer.allcallBroadcasting = false
    unfold resetLinkIdleTimer
    split <;> exact ha
  | updateLinkQuality lq =>
    obtain ⟨o, ho⟩ := updateLqa_eq s lq
    show (s.updateLqa lq).allcallBroadcasting = false
    rw [ho]
    exact ha
  | beginScanPause t =>
    show (s.beginScanPause t).allcallBroadcasting = false
    unfold beginScanPause
    split <;> exact ha
  | extendPeerWaitWindow d => exact ha
  | set x => exact (congrArg TxView.allcall (set_txView s x).1).trans ha

end SM

end OpenALE
