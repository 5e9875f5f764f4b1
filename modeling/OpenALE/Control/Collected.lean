import OpenALE.Control.Linked

/-!
# `LINKED`: the `TWAS` conclusion being collected

A link remembers the last `TWAS` word that may be its peer's and the address that the words after it
spell. A tick that finds it silent for `Tdrw` ends the link or discards it.

Results:
* `processReceivedWord_collected`: what a valid word does to the address.
* `update_collected`, `trigger_update_iff`: what a tick does to it, and when a tick ends the link.
* `exec_collected`: nothing else touches it.
-/

namespace OpenALE

namespace SM

/-! ## The address collected -/

/-- The conclusion `linked_twas_addr_` collects and the time of its last word. -/
structure Collected where
  addr : Str
  last : UInt32

/-- The conclusion the machine collects. -/
def collected (s : SM) : Collected := ⟨s.link.linkedTwasAddr, s.link.linkedTwasLastMs⟩

/-- A valid word heard on a link to `peer` at time `now`. -/
def Collected.hear (c : Collected) (peer : Str) (now : UInt32) (w : ALEWord) : Collected :=
  let a := trimAleAddress w.address
  if w.type = .twas then
    if a ≠ [] ∧ a.isPrefixOf peer then ⟨a, now⟩ else ⟨[], c.last⟩
  else if w.type.isExt ∧ c.addr ≠ [] ∧ now - c.last ≤ 2 * trwMs then ⟨c.addr ++ a, now⟩
  else c

/-- The tick to `now` looks at the conclusion collected: the clock moves, the link has not timed
out, no termination of the station's own is running and no expired drain deadline takes the tick. -/
structure Examines (s : SM) (now : UInt32) : Prop where
  moves : ¬ 0x80000000 ≤ now - s.currentTimeMs
  alive : (s.clocked now).checkLinkTimeout = false
  own : s.link.linkedTerminating = false
  drain : ((s.allcallBroadcasting || s.ow.orderwireTransmitting) &&
    (s.clocked now).drainExpired) = false

instance (s : SM) (now : UInt32) : Decidable (s.Examines now) :=
  decidable_of_iff (¬ 0x80000000 ≤ now - s.currentTimeMs ∧
      (s.clocked now).checkLinkTimeout = false ∧ s.link.linkedTerminating = false ∧
      ((s.allcallBroadcasting || s.ow.orderwireTransmitting) &&
        (s.clocked now).drainExpired) = false)
    ⟨fun h => ⟨h.1, h.2.1, h.2.2.1, h.2.2.2⟩, fun h => ⟨h.moves, h.alive, h.own, h.drain⟩⟩

/-- The conclusion collected has been silent for `Tdrw` at time `now`. -/
def Collected.settled (c : Collected) (now : UInt32) : Prop := c.addr ≠ [] ∧ tdrwMs ≤ now - c.last

instance (c : Collected) (now : UInt32) : Decidable (c.settled now) := by
  unfold Collected.settled
  infer_instance

/-- The valid word an operation brings. -/
def hears : Op → Option ALEWord
  | .processReceivedWord w => if w.valid then some w else none
  | _ => none

theorem hears_eq_some {op : Op} {w : ALEWord} (h : hears op = some w) :
    op = .processReceivedWord w ∧ w.valid = true := by
  unfold hears at h
  split at h
  · split at h
    · rename_i hv
      obtain rfl := Option.some.inj h
      exact ⟨rfl, hv⟩
    · exact absurd h (by simp)
  · exact absurd h (by simp)

theorem isUpdate_eq_true {op : Op} (h : isUpdate op = true) : ∃ now env, op = .update now env := by
  unfold isUpdate at h
  split at h
  · exact ⟨_, _, rfl⟩
  · exact Bool.noConfusion h

section Collected

variable {s : SM}

theorem twasSettled_iff (s : SM) (now : UInt32) :
    (s.clocked now).twasSettled = true ↔ s.collected.settled now := by
  have haddr : (s.clocked now).link.linkedTwasAddr = s.collected.addr := rfl
  have hlast : (s.clocked now).currentTimeMs - (s.clocked now).link.linkedTwasLastMs =
      now - s.collected.last := rfl
  unfold twasSettled Collected.settled
  rw [haddr, hlast, Bool.and_eq_true, decide_eq_true_iff]
  simp

theorem examines_of {now : UInt32} (h0 : ¬ 0x80000000 ≤ now - s.currentTimeMs)
    (h1 : ¬ (s.clocked now).checkLinkTimeout = true)
    (h2 : ¬ ((s.clocked now).allcallBroadcasting && (s.clocked now).drainExpired) = true)
    (h3 : ¬ (((s.clocked now).link.linkedTerminating || (s.clocked now).ow.orderwireTransmitting) &&
      (s.clocked now).drainExpired) = true)
    (h4 : ¬ (s.clocked now).link.linkedTerminating = true) : s.Examines now := by
  have h2' : (s.allcallBroadcasting && (s.clocked now).drainExpired) = false := Bool.eq_false_iff.mpr h2
  have h4' : s.link.linkedTerminating = false := Bool.eq_false_iff.mpr h4
  have h3' : ((s.link.linkedTerminating || s.ow.orderwireTransmitting) &&
      (s.clocked now).drainExpired) = false := Bool.eq_false_iff.mpr h3
  rw [h4', Bool.false_or] at h3'
  refine ⟨h0, by simpa using h1, h4', ?_⟩
  rw [Bool.and_or_distrib_right, h2', h3', Bool.or_false]

theorem reactLinkedAmdConfirm_collected (s : SM) (r : WordRole) :
    (s.reactLinkedAmdConfirm r).collected = s.collected := by
  unfold reactLinkedAmdConfirm
  split <;> (try split) <;> rfl

/-- The role of a `TWAS` word on a link. -/
theorem classify_twas (hc : s.currentState = .linked) {w : ALEWord} (ht : w.type = .twas) :
    s.classify w = .twasWord (trimAleAddress w.address) := by
  unfold classify lbtActive
  simp [hc, ht, PreambleType.isExt]

/-- The role of an extension word on a link. -/
theorem classify_ext (hc : s.currentState = .linked) {w : ALEWord} (he : w.type.isExt = true) :
    s.classify w =
      if s.link.linkedTwasAddr ≠ [] then .dataExtension (trimAleAddress w.address) else .none := by
  have ht : w.type = .data ∨ w.type = .rep := by simpa [PreambleType.isExt] using he
  unfold classify lbtActive collecting
  by_cases ha : s.link.linkedTwasAddr = []
  · rcases ht with ht | ht <;> simp [hc, ht, ha]
  · rcases ht with ht | ht <;> simp [hc, ht, ha, PreambleType.isExt]

/-- The role of any other word on a link. -/
theorem classify_other (hc : s.currentState = .linked) {w : ALEWord} (ht : w.type ≠ .twas)
    (he : w.type.isExt = false) : (∀ a, s.classify w ≠ .twasWord a) ∧
      ∀ a, s.classify w ≠ .dataExtension a := by
  unfold classify lbtActive
  rw [hc, he]
  constructor <;> intro a
  · simp only [Bool.and_false, Bool.false_eq_true, if_false]
    repeat' split
    all_goals first | exact WordRole.noConfusion | simp_all
  · simp only [Bool.and_false, Bool.false_eq_true, if_false]
    repeat' split
    all_goals exact WordRole.noConfusion

theorem processReceivedWord_collected (hc : s.currentState = .linked) {w : ALEWord}
    (hv : w.valid = true) : (s.processReceivedWord w).collected =
      s.collected.hear s.link.activeCallTo s.currentTimeMs w := by
  unfold processReceivedWord
  rw [if_neg (not_not.mpr hv)]
  dsimp only
  obtain ⟨o, ho⟩ := updateLqa_eq { s with
    hs := { s.hs with contiguousErrors := 0 }, lastWordTimeMs := s.currentTimeMs }
    (wordQuality { s with
      hs := { s.hs with contiguousErrors := 0 }, lastWordTimeMs := s.currentTimeMs } w)
  rw [ho]
  generalize hp : ({ s with
    hs := { s.hs with contiguousErrors := 0 }, lastWordTimeMs := s.currentTimeMs, out := o } : SM) = p
  have hpc : p.currentState = .linked := by rw [← hp]; exact hc
  have hcol : p.collected = s.collected := by rw [← hp]; rfl
  have hto : p.link.activeCallTo = s.link.activeCallTo := by rw [← hp]
  have hnow : p.currentTimeMs = s.currentTimeMs := by rw [← hp]
  rw [← hcol, ← hto, ← hnow]
  unfold react
  rw [hpc]
  dsimp only
  unfold reactLinked Collected.hear
  dsimp only
  by_cases ht : w.type = .twas
  · rw [classify_twas hpc ht, if_pos ht]
    dsimp only
    split <;> rfl
  rw [if_neg ht]
  cases he : w.type.isExt with
  | false =>
    obtain ⟨hn, hn'⟩ := classify_other hpc ht he
    rw [if_neg (by simp)]
    split
    · rename_i a ha
      exact absurd ha (hn a)
    · rename_i a ha
      exact absurd ha (hn' a)
    · exact reactLinkedAmdConfirm_collected _ _
  | true =>
    rw [classify_ext hpc he]
    by_cases ha : p.link.linkedTwasAddr = []
    · rw [if_neg (not_not.mpr ha), if_neg (fun h => h.2.1 ha)]
      exact reactLinkedAmdConfirm_collected _ _
    · rw [if_pos ha]
      dsimp only
      rw [if_pos ha]
      by_cases hg : p.currentTimeMs - p.link.linkedTwasLastMs ≤ 2 * trwMs
      · rw [if_pos hg, if_pos ⟨rfl, ha, hg⟩]
        rfl
      · rw [if_neg hg, if_neg (fun h => hg h.2.2)]

theorem onWordComplete_collected (hc : s.currentState = .linked)
    (hpre : s.preLinkState ≠ .linked) (h : s.onWordComplete.currentState = .linked) :
    s.onWordComplete.collected = s.collected := by
  unfold onWordComplete at h ⊢
  by_cases h1 : s.currentState = .linked ∧ s.link.linkedTerminating = true
  · rw [if_pos h1] at h ⊢
    unfold completeTermination at h ⊢
    dsimp only at h ⊢
    split at h
    · exact absurd h (linkTerminated_leaves (by exact hc) (by exact hpre))
    · rw [if_neg (by assumption)]
      rfl
  rw [if_neg h1]
  split
  · unfold completeOrderwire amdHandOff
    dsimp only
    repeat' split
    all_goals rfl
  rw [if_neg (by rw [hc]; decide)]
  split
  · unfold completeAllcall
    dsimp only
    split <;> rfl
  · rw [if_neg (by rw [hc]; decide), if_neg (fun hh => absurd (hc.symm.trans hh.1) (by decide))]

theorem handleLinkedActive_collected (hc : s.currentState = .linked)
    (hpre : s.preLinkState ≠ .linked) (h : s.handleLinkedActive.currentState = .linked) :
    s.handleLinkedActive.collected = s.collected := by
  unfold handleLinkedActive at h ⊢
  split
  · rfl
  rw [if_neg (by assumption)] at h
  split
  · unfold startOrderwire armDrain
    dsimp only
    rw [transmitWords_eq]
    split <;> rfl
  rw [if_neg (by assumption)] at h
  split
  · unfold handleLinkedAmdRetry
    split <;> rfl
  rw [if_neg (by assumption)] at h
  have hfail : s.linkedAmdRetryOrFail.collected = s.collected := by
    unfold linkedAmdRetryOrFail
    split <;> rfl
  split
  · unfold handleLinkedAmdListening
    repeat' split
    all_goals first | exact hfail | rfl
  rw [if_neg (by assumption)] at h
  split
  · unfold handleLinkedAmdWaitAck
    repeat' split
    all_goals rfl
  rw [if_neg (by assumption)] at h
  obtain ⟨b, t, o, hw⟩ := idleWarning_eq s
  rw [hw] at h ⊢
  unfold twaTimeout at h ⊢
  split at h
  · exfalso
    dsimp only at h
    split at h
    · rw [transmitWords_eq] at h
      exact linkTimeout_leaves (by exact hc) (by exact hpre) h
    · exact linkTimeout_leaves (by exact hc) (by exact hpre) h
  · rw [if_neg (by assumption)]
    rfl

/-- **A tick that keeps the link** discards a settled conclusion. -/
theorem update_collected {now : UInt32} {env : Env} (hc : s.currentState = .linked)
    (hpre : s.preLinkState ≠ .linked) (h : (s.update now env).currentState = .linked) :
    (s.update now env).collected =
      if s.Examines now ∧ s.collected.settled now then ⟨[], s.link.linkedTwasLastMs⟩
      else s.collected := by
  unfold update at h ⊢
  by_cases hf : 0x80000000 ≤ now - s.currentTimeMs
  · rw [if_pos hf, if_neg (fun hh => hh.1.moves hf)]
  rw [if_neg hf] at h ⊢
  change (tick (s.clocked now) env).currentState = .linked at h
  show (tick (s.clocked now) env).collected = _
  unfold tick at h ⊢
  by_cases h1 : (s.clocked now).checkLinkTimeout = true
  · rw [if_pos h1] at h
    exact absurd h (linkTimeout_leaves (by exact hc) (by exact hpre))
  rw [if_neg h1] at h ⊢
  by_cases h2 : ((s.clocked now).allcallBroadcasting && (s.clocked now).drainExpired) = true
  · have hno : ¬ s.Examines now := by
      intro he
      have hd := he.drain
      have h2' : (s.allcallBroadcasting && (s.clocked now).drainExpired) = true := h2
      rw [Bool.and_or_distrib_right, h2', Bool.true_or] at hd
      exact Bool.noConfusion hd
    rw [if_pos h2, if_neg (fun hh => hno hh.1)]
    rfl
  rw [if_neg h2] at h ⊢
  have hh : (s.clocked now).handle env = (s.clocked now).handleLinked := by
    unfold handle
    rw [show (s.clocked now).currentState = .linked from hc]
  rw [hh] at h ⊢
  unfold handleLinked at h ⊢
  by_cases h3 : (((s.clocked now).link.linkedTerminating || (s.clocked now).ow.orderwireTransmitting)
      && (s.clocked now).drainExpired) = true
  · have hno : ¬ s.Examines now := by
      intro he
      have hd := he.drain
      have h3' : ((s.link.linkedTerminating || s.ow.orderwireTransmitting) &&
        (s.clocked now).drainExpired) = true := h3
      rw [he.own, Bool.false_or] at h3'
      rw [Bool.and_or_distrib_right, h3', Bool.or_true] at hd
      exact Bool.noConfusion hd
    rw [if_pos h3, if_neg (fun hh => hno hh.1)]
    rw [if_pos h3] at h
    unfold linkedDrainTimeout at h ⊢
    split at h
    · exact absurd h (linkTerminated_leaves (by exact hc) (by exact hpre))
    · rw [if_neg (by assumption)]
      rfl
  rw [if_neg h3] at h ⊢
  by_cases h4 : (s.clocked now).link.linkedTerminating = true
  · have hno : ¬ s.Examines now := by
      intro he
      have h4' : s.link.linkedTerminating = true := h4
      rw [he.own] at h4'
      exact Bool.noConfusion h4'
    rw [if_pos h4, if_neg (fun hh => hno hh.1)]
    rfl
  rw [if_neg h4] at h ⊢
  have hex : s.Examines now := examines_of hf h1 h2 h3 h4
  by_cases h5 : (s.clocked now).twasSettled = true
  · have hset : s.Examines now ∧ s.collected.settled now := ⟨hex, (twasSettled_iff s now).mp h5⟩
    rw [if_pos h5] at h ⊢
    dsimp only at h ⊢
    split at h
    · exact absurd h (linkTerminated_leaves (by exact hc) (by exact hpre))
    · rw [if_neg (by assumption), handleLinkedActive_collected (by exact hc) (by exact hpre) h,
        if_pos hset]
      rfl
  · have hset : ¬ (s.Examines now ∧ s.collected.settled now) :=
      fun hh => h5 ((twasSettled_iff s now).mpr hh.2)
    rw [if_neg h5] at h ⊢
    rw [handleLinkedActive_collected (by exact hc) (by exact hpre) h, if_neg hset]
    rfl

/-- Every operation but a tick and a valid word leaves the conclusion alone. -/
theorem exec_collected (hc : s.currentState = .linked) (hpre : s.preLinkState ≠ .linked) {op : Op}
    (hu : isUpdate op = false)
    (hw : hears op = none) (h : (s.exec op).currentState = .linked) :
    (s.exec op).collected = s.collected := by
  have hav : ¬ s.available = true := by rw [available_iff, hc]; decide
  cases op with
  | update now env => exact Bool.noConfusion hu
  | processReceivedWord w =>
    have hv : ¬ w.valid = true := by
      intro hv
      rw [hears, if_pos hv] at hw
      exact absurd hw (by simp)
    show (s.processReceivedWord w).collected = _
    unfold processReceivedWord onInvalidWord
    rw [if_pos hv, hc]
  | onWordComplete =>
    show s.onWordComplete.collected = _
    exact onWordComplete_collected hc hpre h
  | terminateLink =>
    show s.terminateLink.collected = _
    rw [terminateLink_eq hc]
    rfl
  | processEvent e =>
    show (s.processEvent e).1.collected = _
    rw [processEvent_stays hc h]
  | initiateCall t =>
    show (s.initiateCall t).1.collected = _
    unfold initiateCall
    rw [if_pos hav]
  | initiateNetCall a =>
    show (s.initiateNetCall a).1.collected = _
    unfold initiateNetCall
    rw [if_pos hav]
  | initiateGroupCall ms =>
    show (s.initiateGroupCall ms).1.collected = _
    unfold initiateGroupCall
    rw [if_pos hav]
  | respondToCall =>
    show s.respondToCall.1.collected = _
    unfold respondToCall
    rw [if_pos (by rw [hc]; decide)]
  | sendSounding =>
    show s.sendSounding.1.collected = _
    unfold sendSounding
    rw [if_pos hav]
  | sendSoundingSweep chs =>
    show (s.sendSoundingSweep chs).1.collected = _
    unfold sendSoundingSweep
    rw [if_pos hav]
  | sendAllcallBroadcast a t l =>
    show (s.sendAllcallBroadcast a t l).1.collected = _
    unfold sendAllcallBroadcast
    rw [if_pos hav]
  | emergencyManualControl =>
    have hf := (emergencyManualControl_fires s).control
    have hi : s.emergencyManualControl.currentState = .idle :=
      (congrArg Control.state hf).trans (Control.goTo_state _ _)
    exact absurd (hi.symm.trans h) (by decide)
  | triggerLinkedOrderwire ws d =>
    show (s.triggerLinkedOrderwire ws d).collected = _
    unfold triggerLinkedOrderwire
    split <;> rfl
  | sendLinkedAmd ws p n =>
    show (s.sendLinkedAmd ws p n).collected = _
    unfold sendLinkedAmd
    split <;> rfl
  | respondToLinkedAmd a ws =>
    show (s.respondToLinkedAmd a ws).collected = _
    unfold respondToLinkedAmd
    repeat' split
    all_goals rfl
  | onLinkActivity =>
    show s.onLinkActivity.collected = _
    unfold onLinkActivity
    split <;> rfl
  | resetLinkIdleTimer =>
    show s.resetLinkIdleTimer.collected = _
    unfold resetLinkIdleTimer
    split <;> rfl
  | updateLinkQuality lq =>
    obtain ⟨o, ho⟩ := updateLqa_eq s lq
    show (s.updateLqa lq).collected = _
    rw [ho]
    rfl
  | beginScanPause t =>
    show (s.beginScanPause t).collected = _
    unfold beginScanPause
    split <;> rfl
  | extendPeerWaitWindow d => rfl
  | set x =>
    show (s.set x).collected = _
    cases x <;> first | rfl | (unfold set setSelfAddress; dsimp only; split <;> rfl)

/-- A link starts with nothing collected. -/
theorem exec_collected_fresh {op : Op} (hn : s.currentState ≠ .linked)
    (ht : (s.exec op).currentState = .linked) : (s.exec op).collected = ⟨[], 0⟩ := by
  obtain ⟨q, hc, -, hq⟩ := (exec_fires s op).transition (by rw [ht]; exact Ne.symm hn)
  rw [ht] at hq
  rw [hq, transitionTo_of_ne (by rw [hc]; exact hn)]
  rfl

/-- **The tick that ends the link for a `TWAS`.** -/
theorem trigger_update_iff {now : UInt32} {env : Env} (hc : s.currentState = .linked)
    (ht : s.link.linkedTerminating = false) :
    s.trigger (.update now env) = .event .linkTerminated ↔
      s.Examines now ∧ s.collected.settled now ∧ s.link.linkedTwasAddr = s.link.activeCallTo := by
  unfold trigger
  dsimp only
  by_cases hf : 0x80000000 ≤ now - s.currentTimeMs
  · rw [if_pos hf]
    exact iff_of_false (none_ne _) (fun hh => hh.1.moves hf)
  rw [if_neg hf]
  change tickTrigger (s.clocked now) env = _ ↔ _
  unfold tickTrigger
  by_cases h1 : (s.clocked now).checkLinkTimeout = true
  · rw [if_pos h1]
    refine iff_of_false (event_ne (by decide)) (fun hh => ?_)
    rw [hh.1.alive] at h1
    exact Bool.noConfusion h1
  rw [if_neg h1]
  by_cases h2 : ((s.clocked now).allcallBroadcasting && (s.clocked now).drainExpired) = true
  · rw [if_pos h2]
    refine iff_of_false (none_ne _) (fun hh => ?_)
    have hd := hh.1.drain
    have h2' : (s.allcallBroadcasting && (s.clocked now).drainExpired) = true := h2
    rw [Bool.and_or_distrib_right, h2', Bool.true_or] at hd
    exact Bool.noConfusion hd
  rw [if_neg h2]
  unfold handleTrigger
  rw [show (s.clocked now).currentState = .linked from hc]
  dsimp only
  unfold linkedTrigger
  by_cases h3 : (((s.clocked now).link.linkedTerminating || (s.clocked now).ow.orderwireTransmitting)
      && (s.clocked now).drainExpired) = true
  · rw [if_pos h3, raiseIf_neg (by show ¬ s.link.linkedTerminating = true; rw [ht]; decide)]
    refine iff_of_false (none_ne _) (fun hh => ?_)
    have hd := hh.1.drain
    have h3' : ((s.link.linkedTerminating || s.ow.orderwireTransmitting) &&
      (s.clocked now).drainExpired) = true := h3
    rw [ht, Bool.false_or] at h3'
    rw [Bool.and_or_distrib_right, h3', Bool.or_true] at hd
    exact Bool.noConfusion hd
  rw [if_neg h3]
  have h4 : ¬ (s.clocked now).link.linkedTerminating = true := by
    show ¬ s.link.linkedTerminating = true
    rw [ht]
    decide
  rw [if_neg h4]
  have hex : s.Examines now := examines_of hf h1 h2 h3 h4
  by_cases h5 : (s.clocked now).twasSettled = true ∧
      (s.clocked now).link.linkedTwasAddr = (s.clocked now).link.activeCallTo
  · rw [if_pos h5]
    exact iff_of_true rfl ⟨hex, (twasSettled_iff s now).mp h5.1, h5.2⟩
  · rw [if_neg h5]
    exact iff_of_false (raiseIf_ne (by decide))
      (fun hh => h5 ⟨(twasSettled_iff s now).mpr hh.2.1, hh.2.2⟩)

/-- `LINK_TERMINATED` ends the link. -/
theorem linkTerminated_ends {op : Op} (hc : s.currentState = .linked)
    (hpre : s.preLinkState ≠ .linked) (h : s.trigger op = .event .linkTerminated) :
    (s.exec op).currentState ≠ .linked := by
  have hst := congrArg Control.state (exec_control s op)
  rw [h] at hst
  unfold Control.fire Control.event at hst
  rw [show s.control.state = .linked from hc] at hst
  dsimp only at hst
  rw [Control.goTo_state] at hst
  exact fun hl => hpre (hst.symm.trans hl)

end Collected

end SM

end OpenALE
