import OpenALE.Control.Linked
import OpenALE.Control.Radio

/-!
# How an operation retunes

Every operation does one of six things to the channel manager and to the channel the radio is on.

Results:
* `step_retunes`: which of them an operation does.
* `homing_step`: where the machine goes back to, which the transitions rely on.
-/

namespace OpenALE

/-- Calls are placed from an available state, and a sounding does not return to one. -/
structure Control.Homing (c : Control) : Prop extends c.Outside where
  calling : c.state = .calling → c.preLink = .idle ∨ c.preLink = .scanning
  fromSounding : c.state = .sounding → c.previous ≠ .calling

namespace SM

theorem homing_fire {c : Control} (h : c.Homing) (sweep : Bool) (g : Trigger) :
    (c.fire sweep g).Homing := by
  obtain ⟨state, previous, preLink⟩ := c
  have goTo_homing : ∀ t : ALEState, (t = .calling → state = .idle ∨ state = .scanning) →
      (t = .sounding → state ≠ .calling) →
      ((Control.goTo ⟨state, previous, preLink⟩ t).state = .calling →
        (Control.goTo ⟨state, previous, preLink⟩ t).preLink = .idle ∨
        (Control.goTo ⟨state, previous, preLink⟩ t).preLink = .scanning) ∧
      ((Control.goTo ⟨state, previous, preLink⟩ t).state = .sounding →
        (Control.goTo ⟨state, previous, preLink⟩ t).previous ≠ .calling) := by
    intro t h1 h2
    by_cases he : state = t
    · rw [Control.goTo_self he]
      exact ⟨h.calling, h.fromSounding⟩
    · rw [Control.goTo_of_ne he]
      refine ⟨?_, h2⟩
      rintro rfl
      exact h1 rfl
  have hpre : preLink = .idle ∨ preLink = .scanning ∨ preLink = .sounding := h.preLink
  have back := goTo_homing preLink
    (fun hb => by rcases hpre with h | h | h <;> rw [h] at hb <;> exact ALEState.noConfusion hb)
    (fun hb hs => by
      have hc : preLink = .idle ∨ preLink = .scanning := h.calling hs
      rcases hc with h | h <;> rw [h] at hb <;> exact ALEState.noConfusion hb)
  suffices hg : ((Control.fire ⟨state, previous, preLink⟩ sweep g).state = .calling →
        (Control.fire ⟨state, previous, preLink⟩ sweep g).preLink = .idle ∨
        (Control.fire ⟨state, previous, preLink⟩ sweep g).preLink = .scanning) ∧
      ((Control.fire ⟨state, previous, preLink⟩ sweep g).state = .sounding →
        (Control.fire ⟨state, previous, preLink⟩ sweep g).previous ≠ .calling) from
    ⟨outside_fire h.toOutside sweep g, hg.1, hg.2⟩
  have hstay := And.intro h.calling h.fromSounding
  cases g with
  | none => exact hstay
  | emergency => exact goTo_homing _ (fun hb => ALEState.noConfusion hb) (fun hb => ALEState.noConfusion hb)
  | event e =>
    unfold Control.fire Control.event
    cases state <;> cases e <;> dsimp only
    case sounding.soundingComplete =>
      split
      · exact hstay
      · exact goTo_homing _ (fun hb => absurd hb (h.fromSounding rfl)) (fun _ => by decide)
    all_goals
      first
        | exact hstay
        | exact back
        | exact goTo_homing _ (fun hb => ALEState.noConfusion hb) (fun hb => ALEState.noConfusion hb)
        | exact goTo_homing _ (fun _ => Or.inl rfl) (fun hb => ALEState.noConfusion hb)
        | exact goTo_homing _ (fun _ => Or.inr rfl) (fun hb => ALEState.noConfusion hb)
        | exact goTo_homing _ (fun hb => ALEState.noConfusion hb) (fun _ => by decide)

theorem homing_step {s : SM} (h : s.control.Homing) (op : Op) : (s.step op).control.Homing := by
  rw [step_control]
  exact homing_fire h _ _

theorem homing_init : init.control.Homing where
  toOutside := outside_init
  calling := fun h => ALEState.noConfusion h
  fromSounding := fun h => ALEState.noConfusion h

/-- An operation that gives the machine another scan list. -/
def reconfigures : Op → Bool
  | .set (.configureScan _) | .set (.addScanChannel _) => true
  | _ => false

/-- What an operation does to the channel manager and the radio; `s` has fired nothing yet. -/
inductive Retunes (s : SM) (op : Op) (s' : SM) : Prop where
  | stays (hc : s'.currentState = s.currentState) (hm : s'.channelManager = s.channelManager)
      (hh : hops s'.out = [])
  | moves (t : ALEState) (now : UInt32) (hop : Option Channel) (hc : s'.currentState = t)
      (hcall : t = .calling → (s.currentState = .idle ∨ s.currentState = .scanning) ∧
        s'.calling.callingPhase = .lbt)
      (hr : (s'.channelManager, hops s'.out) = arrive s.channelManager t now hop)
  | pins (ch : Channel) (hc : s'.currentState = .sounding)
      (hr : (s'.channelManager, hops s'.out) = s.channelManager.setOverride ch)
  | scans (now : UInt32) (hs : s.currentState = .scanning) (hc : s'.currentState = .scanning)
      (hr : (s'.channelManager, hops s'.out) = (s.channelManager, []) ∨
        (s'.channelManager, hops s'.out) = (s.channelManager.anchorDwell now, []) ∨
        (s'.channelManager, hops s'.out) = s.channelManager.hopNext now ∨
        (s'.channelManager, hops s'.out) = (s.channelManager.anchorDwell now).hopNext now)
  | retries (ch : Channel) (hs : s.currentState = .calling) (hc : s'.currentState = .calling)
      (hm : s'.channelManager = s.channelManager) (hh : hops s'.out = [ch])
      (hp : s'.calling.callingPhase = .lbt)
  | configures (hop : reconfigures op = true) (hc : s'.currentState = s.currentState)
      (hh : hops s'.out = [])
      (ho : s'.channelManager.overrideActive = s.channelManager.overrideActive)

section Retunes

variable {s p s' : SM} {op : Op}

/-- A transition after something the channel manager and the radio do not see. -/
theorem transitionTo_retunes (hm : p.channelManager = s.channelManager) (hh : hops p.out = [])
    {t : ALEState} (hne : p.currentState ≠ t)
    (hcall : t = .calling → s.currentState = .idle ∨ s.currentState = .scanning) :
    s.Retunes op (p.transitionTo t).1 := by
  obtain ⟨hr, ho⟩ := transitionTo_radio hne
  have hm' : (p.transitionTo t).1.channelManager =
      (arrive p.channelManager t p.currentTimeMs p.callingChannel).1 := congrArg Radio.manager hr
  rw [hh, List.nil_append] at ho
  refine .moves t p.currentTimeMs p.callingChannel (transitionTo_state p t) ?_ ?_
  · rintro rfl
    refine ⟨hcall rfl, ?_⟩
    rw [transitionTo_of_ne hne]
    rfl
  · rw [hm', ho, hm]

theorem Still.retunes (h : s.Still s') (hn : OpenALE.hops s.out = []) : s.Retunes op s' :=
  .stays (congrArg Control.state h.control) (congrArg Radio.manager h.radio) (h.hops.trans hn)

/-- The end of a cycle of a sounding. -/
theorem soundingComplete_retunes (hc : p.control = s.control) (hm : p.channelManager = s.channelManager)
    (hh : hops p.out = []) (hs : s.control.Homing) (hst : p.currentState = .sounding) :
    s.Retunes op p.soundingComplete.1 := by
  have hprev : p.control.previous ≠ .sounding ∧ p.control.previous ≠ .calling := by
    rw [hc]
    have hst' : s.control.state = .sounding := by
      rw [← hc]
      exact hst
    exact ⟨hs.sounding hst', hs.fromSounding hst'⟩
  unfold soundingComplete
  split
  · split
    · rename_i ch _
      refine .pins ch hst ?_
      have ho : hops (p.advanceSweep ch).out = [ch] := by
        show hops (p.out ++ [.channelChange ch] ++ [.rxEnabled true]) = _
        rw [hops_append, hops_append, hh]
        rfl
      show ((p.channelManager.setOverride ch).1, hops (p.advanceSweep ch).out) = _
      rw [ho, hm]
      rfl
    · refine transitionTo_retunes (p := p.dropSweep) hm hh ?_ (fun h => absurd h hprev.2)
      show p.currentState ≠ _
      rw [hst]
      exact Ne.symm hprev.1
  · refine transitionTo_retunes hm hh ?_ (fun h => absurd h hprev.2)
    rw [hst]
    exact Ne.symm hprev.1

/-- An event after a note. -/
theorem Still.event_retunes (h : s.Still p) (hn : OpenALE.hops s.out = []) (hs : s.control.Homing)
    (e : ALEEvent) : s.Retunes op (p.processEvent e).1 := by
  have hm : p.channelManager = s.channelManager := congrArg Radio.manager h.radio
  have hh := h.hops.trans hn
  have hst : p.currentState = s.currentState := congrArg Control.state h.control
  have hpl : p.preLinkState = s.preLinkState := congrArg Control.preLink h.control
  have hgo : ∀ t, p.currentState ≠ t →
      (t = .calling → s.currentState = .idle ∨ s.currentState = .scanning) →
      s.Retunes op (p.transitionTo t).1 := fun t => transitionTo_retunes hm hh
  have hpre : s.preLinkState = .idle ∨ s.preLinkState = .scanning ∨ s.preLinkState = .sounding :=
    hs.preLink
  have hback : p.currentState ≠ p.preLinkState → s.Retunes op (p.transitionTo p.preLinkState).1 := by
    intro hne
    refine hgo _ hne (fun hc => ?_)
    rw [hpl] at hc
    rcases hpre with h | h | h <;> rw [h] at hc <;> exact ALEState.noConfusion hc
  have hne : p.currentState = .calling ∨ p.currentState = .handshake ∨ p.currentState = .linked →
      p.currentState ≠ p.preLinkState := by
    intro h heq
    rw [← hpl, ← heq] at hpre
    rcases h with h | h | h <;> rw [h] at hpre <;>
      exact absurd hpre (by decide)
  have hstay : s.Retunes op p := h.retunes hn
  have hsnd : p.currentState = .sounding → s.Retunes op p.soundingComplete.1 :=
    soundingComplete_retunes h.control hm hh hs
  have hdrop : p.currentState = .sounding → s.Retunes op (p.dropSweep.transitionTo .handshake).1 := by
    intro hc
    refine transitionTo_retunes (p := p.dropSweep) hm hh ?_ (fun h => ALEState.noConfusion h)
    show p.currentState ≠ _
    rw [hc]
    exact fun h => ALEState.noConfusion h
  unfold processEvent
  cases hc : p.currentState <;> rw [hc] at hst hne <;> cases e <;>
    first
      | exact hstay
      | exact hback (by rw [hc]; exact hne (by simp))
      | exact hsnd hc
      | exact hdrop hc
      | exact hgo _ (by rw [hc]; exact fun h => ALEState.noConfusion h)
          (fun h => ALEState.noConfusion h)
      | exact hgo _ (by rw [hc]; exact fun h => ALEState.noConfusion h)
          (fun _ => by rw [← hst]; simp)

theorem Tunes.retunes (h : s.Tunes s') (hn : OpenALE.hops s.out = []) (hs : s.control.Homing) :
    s.Retunes op s' := by
  rcases h with h | ⟨p, e, hp, -, rfl⟩
  · exact h.retunes hn
  · exact hp.event_retunes hn hs e

theorem sendSoundingSweep_retunes (hn : hops s.out = []) (chs : List Channel) :
    s.Retunes op (s.sendSoundingSweep chs).1 := by
  have hstay : s.Retunes op s := (Still.refl s).retunes hn
  unfold sendSoundingSweep
  by_cases hav : s.available = true
  · rw [if_neg (not_not.mpr hav)]
    split
    · exact hstay
    cases chs with
    | nil => exact hstay
    | cons ch chs =>
      have hst : s.currentState = .idle ∨ s.currentState = .scanning := (available_iff s).mp hav
      have hne : (s.armSweep (ch :: chs) ch).currentState ≠ .sounding := by
        show s.currentState ≠ .sounding
        rcases hst with h | h <;> rw [h] <;> exact fun h => ALEState.noConfusion h
      have he : ((s.armSweep (ch :: chs) ch).processEvent .soundingRequest).1 =
          ((s.armSweep (ch :: chs) ch).transitionTo .sounding).1 := by
        have hst' : (s.armSweep (ch :: chs) ch).currentState = s.currentState := rfl
        unfold processEvent
        rw [hst']
        rcases hst with h | h <;> rw [h]
      obtain ⟨hr, ho⟩ := transitionTo_radio hne
      dsimp only
      rw [he]
      refine .pins ch (transitionTo_state _ _) (Prod.ext (congrArg Radio.manager hr) ?_)
      refine ho.trans ?_
      show hops (s.out ++ [.channelChange ch]) ++ [] = [ch]
      rw [hops_append, hn]
      rfl
  · rw [if_pos hav]
    exact hstay

theorem emergencyManualControl_retunes (hn : hops s.out = []) :
    s.Retunes op s.emergencyManualControl := by
  have hs : s.Still { s with emergencyActive := true } := ⟨rfl, rfl, rfl⟩
  have h := hs.operator .emergencyActive
  have hidle : ∀ p : SM, s.Still p → s.Retunes op (p.transitionTo .idle).1 := by
    intro p hp
    by_cases hc : p.currentState = .idle
    · rw [transitionTo_self hc]
      exact hp.retunes hn
    · exact transitionTo_retunes (congrArg Radio.manager hp.radio) (hp.hops.trans hn) hc
        (fun h => ALEState.noConfusion h)
  unfold emergencyManualControl
  dsimp only
  split
  · have hq : s.Still { SM.operator { s with emergencyActive := true } .emergencyActive with
        link := { s.link with linkedTerminating := true } } := h.trans ⟨rfl, rfl, rfl⟩
    exact hidle _ (hq.transmitWords _)
  · exact hidle _ h

/-- **Each operation does one of six things to the radio.** -/
theorem step_retunes (hs : s.control.Homing) (op : Op) : s.clearOut.Retunes op (s.step op) := by
  have hn : OpenALE.hops s.clearOut.out = [] := rfl
  cases hr : retunes op with
  | false => exact (exec_tunes s.clearOut hr).retunes hn hs
  | true =>
    cases op with
    | processEvent e => exact (Still.refl s.clearOut).event_retunes hn hs e
    | update now env =>
      cases update_tunes s.clearOut now env with
      | tunes h => exact h.retunes hn hs
      | retries hc ch h =>
        exact .retries ch hc ((congrArg Control.state h.control).trans hc)
          (congrArg Radio.manager h.radio) h.hops h.phase
      | scans hc hctl t r hrad hh hm =>
        have he : ((s.step (.update now env)).channelManager,
            OpenALE.hops (s.step (.update now env)).out) = r :=
          Prod.ext (congrArg Radio.manager hrad) hh
        refine .scans t hc ((congrArg Control.state hctl).trans hc) ?_
        rw [he]
        exact hm
    | sendSoundingSweep chs => exact sendSoundingSweep_retunes hn chs
    | emergencyManualControl => exact emergencyManualControl_retunes hn
    | set x =>
      cases x with
      | configureScan c => exact .configures rfl rfl rfl rfl
      | addScanChannel ch => exact .configures rfl rfl rfl rfl
      | _ => exact absurd hr Bool.false_ne_true
    | _ => exact absurd hr Bool.false_ne_true

end Retunes

end SM

end OpenALE
