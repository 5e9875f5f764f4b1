import OpenALE.Control.Diagram
import OpenALE.Control.View

/-!
# Received words and requests: a note and an event

A received word, a call request and a sounding request do two things at most: they note something
down that neither the diagram nor the transmitter sees, and they raise the event of their trigger.

Results:
* `processReceivedWord_reacts`: so it is for a received word.
* `initiateCall_reacts` and its siblings: so it is for the requests.
-/

namespace OpenALE

namespace SM

/-- `p` is `s` to the diagram, to the transmitter, to the antenna and to the orderwire. -/
structure Notes (s p : SM) : Prop where
  control : p.control = s.control
  view : p.txView = s.txView
  out : signals p.out = signals s.out
  ow : p.ow = s.ow

theorem Notes.refl (s : SM) : s.Notes s := ⟨rfl, rfl, rfl, rfl⟩

theorem Notes.trans {s p q : SM} (h : s.Notes p) (h' : p.Notes q) : s.Notes q :=
  ⟨h'.control.trans h.control, h'.view.trans h.view, h'.out.trans h.out, h'.ow.trans h.ow⟩

/-- `s'` comes from `s` by a note and the event of the trigger `g`. -/
abbrev Reacts (s : SM) (g : Trigger) (s' : SM) : Prop :=
  match g with
  | .none => s.Notes s'
  | .event e => ∃ p : SM, s.Notes p ∧ (e = .soundingComplete → p.moreSweep = s.moreSweep) ∧
      s' = (p.processEvent e).1
  | .emergency => False

theorem reacts_event {s p : SM} (e : ALEEvent) (h : s.Notes p) (hm : p.moreSweep = s.moreSweep) :
    s.Reacts (.event e) (p.processEvent e).1 := ⟨p, h, fun _ => hm, rfl⟩

/-- Only `SOUNDING_COMPLETE` looks at the sweep. -/
theorem Control.event_congr {c : Control} {a b : Bool} {e : ALEEvent}
    (h : e = .soundingComplete → a = b) : c.event a e = c.event b e := by
  by_cases he : e = .soundingComplete
  · rw [h he]
  · unfold Control.event
    cases c.state <;> cases e <;> first | rfl | exact absurd rfl he

/-- A reaction after a note. -/
theorem Notes.reacts {s p s' : SM} {g : Trigger} (h : s.Notes p) (hm : p.moreSweep = s.moreSweep)
    (h' : p.Reacts g s') : s.Reacts g s' := by
  match g, h' with
  | .none, h' => exact h.trans h'
  | .event e, ⟨q, hn, hq, hp⟩ => exact ⟨q, h.trans hn, fun he => (hq he).trans hm, hp⟩

/-- A reaction fires its trigger. -/
theorem Reacts.fires {s s' : SM} {g : Trigger} (h : s.Reacts g s') : s.Fires g s' := by
  match g, h with
  | .none, h => exact h.control
  | .event e, ⟨p, hn, hm, hp⟩ =>
    exact ⟨p, hn.control, hn.ow, by rw [hn.control]; exact Control.event_congr hm, hp⟩

theorem Reacts.control {s s' : SM} {g : Trigger} (h : s.Reacts g s') :
    s'.control = s.control.fire s.moreSweep g := h.fires.control

/-! ## Received words -/

theorem countError_reacts (s : SM) :
    s.Reacts (raiseIf (maxScanningCallErrors < s.hs.contiguousErrors + 1) .linkTimeout)
      s.countError := by
  unfold countError raiseIf
  dsimp only
  split
  · exact reacts_event _ ⟨rfl, rfl, rfl, rfl⟩ rfl
  · exact ⟨rfl, rfl, rfl, rfl⟩

theorem onInvalidWord_reacts (s : SM) : s.Reacts s.invalidTrigger s.onInvalidWord := by
  unfold onInvalidWord invalidTrigger
  have he := countError_reacts s
  cases s.currentState with
  | sounding =>
    unfold raiseIf
    dsimp only
    split
    · exact reacts_event _ ⟨rfl, rfl, rfl, rfl⟩ rfl
    · exact ⟨rfl, rfl, rfl, rfl⟩
  | handshake =>
    cases s.hs.handshakePhase with
    | waitCycleEnd => exact he
    | channelCheck => exact reacts_event _ ⟨rfl, rfl, rfl, rfl⟩ rfl
    | _ => exact .refl s
  | _ => exact .refl s

theorem detectIncomingCall_reacts (s : SM) (r : WordRole) :
    s.Reacts (detectTrigger r) (s.detectIncomingCall r) := by
  unfold detectIncomingCall detectTrigger
  cases r <;> first | exact .refl s | exact reacts_event _ ⟨rfl, rfl, rfl, rfl⟩ rfl

theorem reactScanning_reacts {s : SM} (hs : s.currentState = .scanning) (r : WordRole) :
    s.Reacts (detectTrigger r) (s.reactScanning r) := by
  have hd := detectIncomingCall_reacts s r
  -- a call leaves `SCANNING`, so the dwell is frozen only when nothing was detected
  have hleft : detectTrigger r ≠ .none → (s.detectIncomingCall r).currentState ≠ .scanning := by
    intro hr hst
    have hc : (s.detectIncomingCall r).currentState =
        (s.control.fire s.moreSweep (detectTrigger r)).state := congrArg Control.state hd.control
    have hs' : s.control.state = .scanning := hs
    cases r <;> first | exact hr rfl | skip
    all_goals
      rw [hst] at hc
      simp only [detectTrigger, Control.fire, Control.event, hs', Control.goTo_state] at hc
      exact absurd hc (by decide)
  unfold reactScanning
  dsimp only
  by_cases h : (s.detectIncomingCall r).currentState = .scanning
  · rw [if_neg (not_not.mpr h)]
    have hr : detectTrigger r = .none := not_not.mp fun hr => hleft hr h
    rw [hr] at hd ⊢
    exact Notes.trans hd ⟨rfl, rfl, rfl, rfl⟩
  · rw [if_pos h]
    exact hd

theorem reactListening_reacts (s : SM) (r : WordRole) :
    s.Reacts (match r with
      | .twasWord _ => .event .linkTimeout
      | _ => .none) (s.reactListening r) := by
  unfold reactListening
  cases r <;> dsimp only
  case twasWord => exact reacts_event _ ⟨rfl, rfl, signals_operator s _, rfl⟩ rfl
  all_goals
    first | exact .refl s | exact ⟨rfl, rfl, rfl, rfl⟩ | (split <;> exact ⟨rfl, rfl, rfl, rfl⟩)

theorem reactCalling_reacts (s : SM) (r : WordRole) :
    s.Reacts (match r with
      | .twasWord _ => raiseIf (s.calling.callingPhase = .listening) .linkTimeout
      | _ => .none) (s.reactCalling r) := by
  unfold reactCalling
  have hl := reactListening_reacts s r
  by_cases h : s.calling.callingPhase = .listening
  · rw [if_neg (not_not.mpr h)]
    cases r <;> first | exact hl | (rw [raiseIf_pos h]; exact hl)
  · rw [if_pos h]
    cases r <;> first | exact .refl s | (rw [raiseIf_neg h]; exact .refl s)

theorem reactWaitCycleEnd_notes (s : SM) (r : WordRole) (w : ALEWord) :
    s.Notes (s.reactWaitCycleEnd r w) := by
  unfold reactWaitCycleEnd
  cases r <;> dsimp only <;>
    first | exact .refl s | exact ⟨rfl, rfl, rfl, rfl⟩ | (split <;> exact ⟨rfl, rfl, rfl, rfl⟩)

theorem reactWaitAck_reacts (s : SM) (r : WordRole) :
    s.Reacts (match r with
      | .twasWord _ => .event .amdDeclinedLink
      | _ => .none) (s.reactWaitAck r) := by
  unfold reactWaitAck
  cases r <;> dsimp only
  case twasWord => exact reacts_event _ ⟨rfl, rfl, signals_operator s _, rfl⟩ rfl
  all_goals
    first | exact .refl s | exact ⟨rfl, rfl, rfl, rfl⟩ | (split <;> exact ⟨rfl, rfl, rfl, rfl⟩)

theorem reactHandshake_reacts (s : SM) (r : WordRole) (w : ALEWord) :
    s.Reacts (match r with
      | .channelBusy => .event .linkTimeout
      | .twasWord _ => raiseIf (s.hs.handshakePhase = .waitAck) .amdDeclinedLink
      | _ => .none) (s.reactHandshake r w) := by
  unfold reactHandshake
  by_cases hb : r = .channelBusy
  · subst hb
    exact reacts_event _ ⟨rfl, rfl, rfl, rfl⟩ rfl
  rw [if_neg hb]
  have ha := reactWaitAck_reacts s r
  have hc := reactWaitCycleEnd_notes s r w
  cases s.hs.handshakePhase <;> cases r <;>
    first
      | exact absurd rfl hb
      | exact ha
      | exact hc
      | exact .refl s

theorem reactLinkedAmdConfirm_notes (s : SM) (r : WordRole) : s.Notes (s.reactLinkedAmdConfirm r) := by
  unfold reactLinkedAmdConfirm
  split <;>
    first | exact .refl s | exact ⟨rfl, rfl, rfl, rfl⟩ | (split <;> exact ⟨rfl, rfl, rfl, rfl⟩)

theorem reactLinked_notes (s : SM) (r : WordRole) : s.Notes (s.reactLinked r) := by
  unfold reactLinked
  cases r with
  | twasWord a => dsimp only; split <;> exact ⟨rfl, rfl, rfl, rfl⟩
  | dataExtension a =>
    dsimp only
    split
    · split <;> exact ⟨rfl, rfl, rfl, rfl⟩
    · exact reactLinkedAmdConfirm_notes s _
  | _ => exact reactLinkedAmdConfirm_notes s _

theorem reactSounding_reacts (s : SM) (r : WordRole) :
    s.Reacts (match r with
      | .channelBusy => .event .soundingComplete
      | r => if s.snd.soundingPhase = .listening then detectTrigger r else .none)
      (s.reactSounding r) := by
  unfold reactSounding
  cases r with
  | channelBusy => exact reacts_event _ ⟨rfl, rfl, rfl, rfl⟩ rfl
  | _ =>
    dsimp only
    split
    · exact detectIncomingCall_reacts s _
    · exact ⟨rfl, rfl, rfl, rfl⟩

theorem react_reacts (s : SM) (r : WordRole) (w : ALEWord) :
    s.Reacts (s.reactTrigger r) (s.react r w) := by
  unfold react reactTrigger
  cases hs : s.currentState with
  | idle => exact detectIncomingCall_reacts s r
  | scanning => exact reactScanning_reacts hs r
  | calling => exact reactCalling_reacts s r
  | handshake => exact reactHandshake_reacts s r w
  | linked => exact reactLinked_notes s r
  | sounding => exact reactSounding_reacts s r
  | error => exact .refl s

/-- Filing a sample only fires the callback. -/
theorem updateLqa_eq (s : SM) (lq : LinkQuality) : ∃ o, s.updateLqa lq = { s with out := o } := by
  unfold updateLqa
  split
  · exact ⟨_, rfl⟩
  · exact ⟨s.out, rfl⟩

theorem updateLqa_signals (s : SM) (lq : LinkQuality) :
    signals (s.updateLqa lq).out = signals s.out := by
  unfold updateLqa
  split
  · show signals (s.out ++ [_]) = _
    rw [signals_append]
    exact List.append_nil _
  · rfl

theorem processReceivedWord_reacts (s : SM) (w : ALEWord) :
    s.Reacts (if ¬ w.valid then s.invalidTrigger else s.reactTrigger (s.classify w))
      (s.processReceivedWord w) := by
  unfold processReceivedWord
  split
  · exact onInvalidWord_reacts s
  · dsimp only
    obtain ⟨o, ho⟩ := updateLqa_eq
      { s with hs := { s.hs with contiguousErrors := 0 }, lastWordTimeMs := s.currentTimeMs }
      (wordQuality { s with
        hs := { s.hs with contiguousErrors := 0 }, lastWordTimeMs := s.currentTimeMs } w)
    rw [ho]
    have hout : signals o = signals s.out := by
      have hs := updateLqa_signals { s with
        hs := { s.hs with contiguousErrors := 0 }, lastWordTimeMs := s.currentTimeMs }
        (wordQuality { s with
          hs := { s.hs with contiguousErrors := 0 }, lastWordTimeMs := s.currentTimeMs } w)
      rwa [ho] at hs
    have hn : s.Notes { s with
        hs := { s.hs with contiguousErrors := 0 }, lastWordTimeMs := s.currentTimeMs, out := o } :=
      ⟨rfl, rfl, hout, rfl⟩
    exact hn.reacts rfl (react_reacts _ _ w)

/-! ## Calls and soundings -/

theorem available_iff (s : SM) :
    s.available = true ↔ s.currentState = .idle ∨ s.currentState = .scanning := by
  unfold available
  rw [Bool.or_eq_true, beq_iff_eq, beq_iff_eq]

theorem callRequest_reacts {s p : SM} (h : s.Notes p) (hm : p.moreSweep = s.moreSweep) :
    s.Reacts (.event .callRequest) p.callRequest.1 :=
  reacts_event _ h hm

theorem initiateCall_reacts (s : SM) (target : Str) :
    s.Reacts (raiseIf s.available .callRequest) (s.initiateCall target).1 := by
  unfold initiateCall
  by_cases h : s.available = true
  · rw [if_neg (not_not.mpr h), raiseIf_pos h]
    exact callRequest_reacts ⟨rfl, rfl, rfl, rfl⟩ rfl
  · rw [if_pos h, raiseIf_neg h]
    exact .refl s

theorem initiateNetCall_reacts (s : SM) (a : Str) :
    s.Reacts (raiseIf s.available .callRequest) (s.initiateNetCall a).1 := by
  unfold initiateNetCall
  by_cases h : s.available = true
  · rw [if_neg (not_not.mpr h), raiseIf_pos h]
    exact callRequest_reacts ⟨rfl, rfl, rfl, rfl⟩ rfl
  · rw [if_pos h, raiseIf_neg h]
    exact .refl s

theorem initiateGroupCall_reacts (s : SM) (ms : List Str) :
    s.Reacts (raiseIf (s.available ∧ ms ≠ []) .callRequest) (s.initiateGroupCall ms).1 := by
  unfold initiateGroupCall
  by_cases h : s.available = true
  · rw [if_neg (not_not.mpr h)]
    by_cases hm : ms = []
    · rw [if_pos hm, raiseIf_neg (fun hh => hh.2 hm)]
      exact .refl s
    · rw [if_neg hm, raiseIf_pos ⟨h, hm⟩]
      exact callRequest_reacts ⟨rfl, rfl, rfl, rfl⟩ rfl
  · rw [if_pos h, raiseIf_neg (fun hh => h hh.1)]
    exact .refl s

theorem respondToCall_reacts (s : SM) :
    s.Reacts (raiseIf (s.currentState = .handshake ∧ s.hs.handshakePhase = .waitAck ∧
      s.hs.callerAddress ≠ []) .handshakeComplete) s.respondToCall.1 := by
  unfold respondToCall
  by_cases h1 : s.currentState = .handshake
  · rw [if_neg (not_not.mpr h1)]
    by_cases h2 : s.hs.handshakePhase = .waitAck
    · rw [if_neg (not_not.mpr h2)]
      by_cases h3 : s.hs.callerAddress = []
      · rw [if_pos h3, raiseIf_neg (fun hh => hh.2.2 h3)]
        exact .refl s
      · rw [if_neg h3, raiseIf_pos ⟨h1, h2, h3⟩]
        exact reacts_event _ ⟨rfl, rfl, rfl, rfl⟩ rfl
    · rw [if_pos h2, raiseIf_neg (fun hh => h2 hh.2.1)]
      exact .refl s
  · rw [if_pos h1, raiseIf_neg (fun hh => h1 hh.1)]
    exact .refl s

theorem sendSounding_reacts (s : SM) :
    s.Reacts (raiseIf s.available .soundingRequest) s.sendSounding.1 := by
  unfold sendSounding
  by_cases h : s.available = true
  · rw [if_neg (not_not.mpr h), raiseIf_pos h]
    exact reacts_event _ ⟨rfl, rfl, rfl, rfl⟩ rfl
  · rw [if_pos h, raiseIf_neg h]
    exact .refl s

theorem sendSoundingSweep_reacts (s : SM) (chs : List Channel) :
    s.Reacts (raiseIf (s.available ∧ ¬ s.allcallBroadcasting ∧ chs ≠ []) .soundingRequest)
      (s.sendSoundingSweep chs).1 := by
  unfold sendSoundingSweep
  by_cases h : s.available = true
  · rw [if_neg (not_not.mpr h)]
    by_cases ha : s.allcallBroadcasting = true
    · rw [if_pos ha, raiseIf_neg (fun hh => hh.2.1 ha)]
      exact .refl s
    · rw [if_neg ha]
      cases chs with
      | nil =>
        rw [raiseIf_neg (fun hh => hh.2.2 rfl)]
        exact .refl s
      | cons ch chs =>
        rw [raiseIf_pos ⟨h, ha, List.cons_ne_nil _ _⟩]
        exact ⟨s.armSweep (ch :: chs) ch, ⟨rfl, rfl, signals_hop s _, rfl⟩,
          fun h => ALEEvent.noConfusion h, rfl⟩
  · rw [if_pos h, raiseIf_neg (fun hh => h hh.1)]
    exact .refl s

end SM

end OpenALE
