import OpenALE.Control.Trigger

/-!
# Where the machine goes back to

`pre_link_state_` and, in `SOUNDING`, `previous_state` name the state the machine returns to. They
are meant to be `IDLE` or `SCANNING`, so that `LINKED` is only ever entered by a completed
handshake and `SOUNDING` only by a request.

Results:
* `returns_iff`: that is so along a run exactly when no step of it takes a return call, that is a
  `CALL_DETECTED` in `SOUNDING`.
* `returns_fail`: a return call makes `SOUNDING` the return state; when the link ends the sounding
  is re-entered, and its end puts the machine back into `LINKED`.
-/

namespace OpenALE

/-! ## On the diagram -/

/-- `IDLE` or `SCANNING`. -/
def ALEState.Available (t : ALEState) : Prop := t = .idle ∨ t = .scanning

instance (t : ALEState) : Decidable t.Available := by unfold ALEState.Available; infer_instance

namespace Control

/-- Both return states are available states. -/
structure Returns (c : Control) : Prop where
  preLink : c.preLink.Available
  sounding : c.state = .sounding → c.previous.Available

/-- A trigger that is not a return call. -/
def NoReturnCall (c : Control) (g : Trigger) : Prop :=
  ¬ (c.state = .sounding ∧ g = .event .callDetected)

variable {c : Control} {sweep : Bool} {g : Trigger}

/-- One event or emergency keeps the return states, unless it is a return call. -/
theorem Returns.fire (h : c.Returns) (hg : c.NoReturnCall g) : (c.fire sweep g).Returns := by
  obtain ⟨hp, hs⟩ := h
  obtain ⟨state, previous, preLink⟩ := c
  simp only at hp hs
  have goTo_returns : ∀ t : ALEState, (t ≠ .sounding ∨ state.Available) →
      ((t = .calling ∨ t = .handshake) → state.Available) →
      (Control.goTo ⟨state, previous, preLink⟩ t).Returns := by
    intro t ht hc
    by_cases he : state = t
    · rw [goTo_self he]
      exact ⟨hp, hs⟩
    · rw [goTo_of_ne he]
      refine ⟨?_, fun hst => ht.resolve_left (not_not.mpr hst)⟩
      dsimp only
      split
      · rename_i hcall
        exact hc hcall
      · exact hp
  have hpre : preLink ≠ .sounding ∧ preLink ≠ .calling ∧ preLink ≠ .handshake := by
    rcases hp with h | h <;> rw [h] <;> decide
  have back : (Control.goTo ⟨state, previous, preLink⟩ preLink).Returns :=
    goTo_returns _ (Or.inl hpre.1) (fun h => absurd h (by simp [hpre.2.1, hpre.2.2]))
  cases g with
  | none => exact ⟨hp, hs⟩
  | emergency => exact goTo_returns _ (Or.inl (by decide)) (fun h => absurd h (by decide))
  | event e =>
    unfold Control.fire Control.event
    cases state <;> cases e
    case sounding.callDetected => exact absurd ⟨rfl, rfl⟩ hg
    case sounding.soundingComplete =>
      have hprev := hs rfl
      dsimp only
      split
      · exact ⟨hp, hs⟩
      · refine goTo_returns _ (Or.inl ?_) (fun h => ?_)
        · rcases hprev with h | h <;> rw [h] <;> decide
        · exfalso; rcases hprev with h' | h' <;> rw [h'] at h <;> revert h <;> decide
    all_goals
      first
        | exact ⟨hp, hs⟩
        | exact back
        | exact goTo_returns _ (Or.inr (Or.inl rfl)) (fun _ => Or.inl rfl)
        | exact goTo_returns _ (Or.inr (Or.inr rfl)) (fun _ => Or.inr rfl)
        | exact goTo_returns _ (Or.inl (by decide)) (fun h => absurd h (by decide))

/-- A return call leaves `SOUNDING` as the state to return to. -/
theorem preLink_fire_returnCall (hs : c.state = .sounding) (hg : g = .event .callDetected) :
    (c.fire sweep g).preLink = .sounding := by
  have hne : c.state ≠ .handshake := by rw [hs]; decide
  have he : c.fire sweep g = c.goTo .handshake := by
    subst hg
    unfold Control.fire Control.event
    rw [hs]
  rw [he, goTo_of_ne hne]
  exact hs

/-- `LINKED` is entered by a completed handshake only. -/
theorem enters_linked (h : c.Returns) (hs : c.state ≠ .linked)
    (ht : (c.fire sweep g).state = .linked) :
    (c.state = .calling ∨ c.state = .handshake) ∧ g = .event .handshakeComplete := by
  obtain ⟨hp, hprev⟩ := h
  obtain ⟨state, previous, preLink⟩ := c
  simp only at hp hs hprev ht ⊢
  have hpre : preLink ≠ .linked := by rcases hp with h | h <;> rw [h] <;> decide
  cases g with
  | none => exact absurd ht hs
  | emergency => rw [Control.fire, goTo_state] at ht; exact absurd ht (by decide)
  | event e =>
    cases state <;> cases e <;> simp [Control.fire, Control.event, hpre] at ht hs ⊢
    -- the sounding's own end, back to an available state
    split at ht
    · cases ht
    · rw [goTo_state] at ht
      rcases hprev rfl with h | h <;> rw [h] at ht <;> exact absurd ht (by decide)

/-- `SOUNDING` is entered by a request only. -/
theorem enters_sounding (h : c.Returns) (hs : c.state ≠ .sounding)
    (ht : (c.fire sweep g).state = .sounding) :
    c.state.Available ∧ g = .event .soundingRequest := by
  obtain ⟨hp, -⟩ := h
  obtain ⟨state, previous, preLink⟩ := c
  simp only at hp hs ht ⊢
  have hpre : preLink ≠ .sounding := by rcases hp with h | h <;> rw [h] <;> decide
  cases g with
  | none => exact absurd ht hs
  | emergency => rw [Control.fire, goTo_state] at ht; exact absurd ht (by decide)
  | event e =>
    unfold ALEState.Available
    cases state <;> cases e <;> simp [Control.fire, Control.event, hpre] at ht hs ⊢

end Control

/-! ## Along a run -/

namespace SM

/-- The return states of a machine are available states. -/
def Returns (s : SM) : Prop := s.control.Returns

/-- The step enters `LINKED` only by a `HANDSHAKE_COMPLETE` taken in `CALLING` or `HANDSHAKE`, and
`SOUNDING` only by a `SOUNDING_REQUEST` taken in `IDLE` or `SCANNING`. -/
def EntersByEvent (s : SM) (op : Op) : Prop :=
  (s.currentState ≠ .linked → (s.step op).currentState = .linked →
    (s.currentState = .calling ∨ s.currentState = .handshake) ∧
      ∃ p : SM, p.control = s.control ∧ s.step op = (p.processEvent .handshakeComplete).1) ∧
  (s.currentState ≠ .sounding → (s.step op).currentState = .sounding →
    s.currentState.Available ∧
      ∃ p : SM, p.control = s.control ∧ s.step op = (p.processEvent .soundingRequest).1)

/-- The word's role is a call to this station, or to all. -/
def isCall : WordRole → Bool
  | .toSelf _ => true
  | .allcall _ => true
  | _ => false

/-- The step takes a call in `SOUNDING`: the event itself, or a valid word that is a call to this
station in the return-call window. -/
def returnCall (s : SM) (op : Op) : Bool :=
  s.currentState == .sounding &&
    match op with
    | .processEvent e => e == .callDetected
    | .processReceivedWord w =>
      w.valid && s.snd.soundingPhase == .listening && isCall (s.classify w)
    | _ => false

/-- The clock detects no call. -/
theorem tickTrigger_ne (s : SM) (env : Env) : s.tickTrigger env ≠ .event .callDetected := by
  unfold tickTrigger handleTrigger
  repeat' split
  all_goals
    first
      | exact callingTrigger_ne s env (by decide)
      | exact handshakeTrigger_ne s env (by decide) (by decide)
      | exact linkedTrigger_ne s (by decide) (by decide)
      | exact soundingTrigger_ne s env (by decide)
      | exact event_ne (by decide)
      | exact none_ne _

theorem detectTrigger_eq (r : WordRole) :
    detectTrigger r = if isCall r then .event .callDetected else .none := by
  cases r <;> rfl

/-- A word is a return call in the open window of a sounding only. -/
theorem reactTrigger_returnCall {s : SM} (hs : s.currentState = .sounding) (r : WordRole) :
    s.reactTrigger r = .event .callDetected ↔
      s.snd.soundingPhase = .listening ∧ isCall r = true := by
  unfold reactTrigger
  rw [hs]
  cases r <;> simp [detectTrigger, isCall]

/-- `returnCall` is the return call of the diagram. -/
theorem returnCall_iff (s : SM) (op : Op) :
    s.returnCall op = true ↔ ¬ s.control.NoReturnCall (s.trigger op) := by
  unfold Control.NoReturnCall returnCall
  rw [not_not, Bool.and_eq_true, beq_iff_eq]
  refine and_congr_right fun hs => ?_
  cases op with
  | processEvent e =>
    show (e == .callDetected) = true ↔ Trigger.event e = _
    rw [beq_iff_eq, Trigger.event.injEq]
  | processReceivedWord w =>
    show _ ↔ (if ¬ w.valid then s.invalidTrigger else s.reactTrigger (s.classify w)) = _
    by_cases hv : w.valid = true
    · rw [if_neg (not_not.mpr hv), reactTrigger_returnCall hs]
      simp [hv]
    · have hi : s.invalidTrigger ≠ .event .callDetected := by
        unfold invalidTrigger
        rw [hs]
        exact raiseIf_ne (by decide)
      rw [if_pos hv]
      simp [hv, hi]
  | update now env =>
    show false = true ↔ (if _ then Trigger.none else tickTrigger _ env) = _
    split <;> simp [tickTrigger_ne]
  | onWordComplete =>
    have hc : s.completeTrigger ≠ .event .callDetected := by
      unfold completeTrigger
      repeat' split
      all_goals first | exact raiseIf_ne (by decide) | exact none_ne _
    simp [trigger, hc]
  | initiateCall _ | initiateNetCall _ | initiateGroupCall _ | respondToCall | sendSounding
  | sendSoundingSweep _ => simp [trigger, raiseIf_ne]
  | _ => simp [trigger]

theorem returns_step {s : SM} (h : s.Returns) {op : Op} (ho : s.returnCall op = false) :
    (s.step op).Returns := by
  unfold Returns
  rw [step_control]
  refine h.fire (Classical.byContradiction fun hn => ?_)
  rw [← returnCall_iff, ho] at hn
  exact Bool.noConfusion hn

/-- A return call shows at once: the machine is set to return to `SOUNDING`. -/
theorem not_returns_step {s : SM} {op : Op} (ho : s.returnCall op = true) :
    ¬ (s.step op).Returns := by
  intro h
  have hc := (returnCall_iff s op).mp ho
  have hp : (s.step op).control.preLink = .sounding := by
    rw [step_control]
    exact Control.preLink_fire_returnCall (not_not.mp hc).1 (not_not.mp hc).2
  have := h.preLink
  rw [hp] at this
  exact absurd this (by decide)

theorem step_fires (s : SM) (op : Op) : s.clearOut.Fires (s.trigger op) (s.step op) := by
  have h : s.clearOut.trigger op = s.trigger op := by cases op <;> rfl
  have := exec_fires s.clearOut op
  rwa [h] at this

theorem entersByEvent_of_returns {s : SM} (h : s.Returns) (op : Op) : s.EntersByEvent op := by
  have hf := step_fires s op
  constructor
  · intro hs ht
    have ht' : (s.control.fire s.moreSweep (s.trigger op)).state = .linked := by
      rw [← step_control]
      exact ht
    obtain ⟨hfrom, hg⟩ := Control.enters_linked h hs ht'
    rw [hg] at hf
    obtain ⟨p, hp, -, -, he⟩ := hf
    exact ⟨hfrom, p, hp, he⟩
  · intro hs ht
    have ht' : (s.control.fire s.moreSweep (s.trigger op)).state = .sounding := by
      rw [← step_control]
      exact ht
    obtain ⟨hfrom, hg⟩ := Control.enters_sounding h hs ht'
    rw [hg] at hf
    obtain ⟨p, hp, -, -, he⟩ := hf
    exact ⟨hfrom, p, hp, he⟩

theorem returns_init : init.Returns := ⟨Or.inl rfl, fun h => ALEState.noConfusion h⟩

/-- **The return states are available states, and `LINKED` and `SOUNDING` are entered as they
should be, in exactly the runs that take no return call.** -/
theorem returns_iff (as : List Op) :
    (Machine.AllStates step Returns init as ∧ Machine.AllSteps step EntersByEvent init as) ↔
      Machine.AllSteps step (fun s op => s.returnCall op = false) init as := by
  have key : Machine.AllStates step Returns init as ↔
      Machine.AllSteps step (fun s op => s.returnCall op = false) init as :=
    Machine.allStates_iff_allSteps (fun s op h ho => returns_step h ho) (fun s h => h)
      (fun s op _ ho => not_returns_step (by simpa using ho)) returns_init
  refine ⟨fun h => key.mp h.1, fun h => ⟨key.mpr h, ?_⟩⟩
  exact (key.mpr h).allSteps fun s op hs => entersByEvent_of_returns hs op

/-- A sounding answered by a call, whose link comes up and ends. -/
def returnCallRun : List Op :=
  let self : Str := ['A', 'B', 'C']
  [.set (.selfAddress self), .sendSounding, .update 784 {},
    .onWordComplete, .onWordComplete, .onWordComplete, .processReceivedWord (encodeFirst self .to),
    .processEvent .handshakeComplete, .processEvent .linkTerminated,
    .processEvent .soundingComplete]

/-- **A return call breaks it**: the end of a sounding puts the machine back into `LINKED`. -/
theorem returns_fail :
    ¬ ∀ as : List Op, Machine.AllStates step Returns init as ∧
      Machine.AllSteps step EntersByEvent init as := by
  intro h
  have hp := (h returnCallRun).1.last
  have hc : (Machine.run step init returnCallRun).control =
      { state := .linked, previous := .sounding, preLink := .sounding } := by decide
  have := hp.preLink
  rw [hc] at this
  exact absurd this (by decide)

end SM

end OpenALE
