import OpenALE.Properties.Scanner

/-!
# The scanner over an episode

When the scanner hops, where it goes, and how long it may stay where it is.

Results:
* `waits_step`: how long the scanner has stayed, by its phase.
* `scanner_disciplined`: the discipline of a whole episode.
-/

namespace OpenALE

namespace SM

open ChannelManager

variable {s p : SM} {op last : Op} {ops mid : List Op} {m : ChannelManager}

/-! ## The start of the dwell -/

theorem hopNext_ne_nil (hne : m.scan.scanList ≠ []) (now : UInt32) : (m.hopNext now).2 ≠ [] := by
  intro hnil
  have hspec := (hopNext_spec hne now).2.2.2
  rw [hnil] at hspec
  cases hspec

/-- Whoever enters `SCANNING` starts the dwell. -/
theorem enterScanning_anchors (s : SM) :
    s.enterScanning.channelManager.lastHopMs = s.currentTimeMs := by
  change (s.channelManager.clearOverride.start s.currentTimeMs).1.lastHopMs = s.currentTimeMs
  generalize s.channelManager.clearOverride = m
  unfold start
  split_ifs with hnil hstarted
  · rfl
  · unfold apply
    split <;> rfl
  · exact (hopNext_spec hnil _).2.1

/-- The time since the dwell started, after one more operation; and a dwell that ends with a hop is
over. -/
theorem anchor_step {ago : Nat} (h : p.Scans op (p.step op))
    (hago : (p.currentTimeMs - p.channelManager.lastHopMs).toNat ≤ ago) :
    ((p.step op).currentTimeMs - (p.step op).channelManager.lastHopMs).toNat ≤ ago + p.elapsed op ∧
      (p.scan.scanningPhase = .hopping → hops (p.step op).out ≠ [] →
        p.channelManager.scan.dwellTimeMs.toNat ≤ ago + p.elapsed op ∧ p.answer op = some true) := by
  have hgoes : ∀ {t : UInt32}, (p.currentTimeMs - t).toNat ≤ ago →
      ((p.step op).currentTimeMs - t).toNat ≤ ago + p.elapsed op := by
    intro t ht
    exact (since_le t p.currentTimeMs _).trans (Nat.add_le_add_right ht _)
  have hkept : (p.step op).channelManager = p.channelManager → hops (p.step op).out = [] →
      ((p.step op).currentTimeMs - (p.step op).channelManager.lastHopMs).toNat ≤
          ago + p.elapsed op ∧
        (p.scan.scanningPhase = .hopping → hops (p.step op).out ≠ [] →
          p.channelManager.scan.dwellTimeMs.toNat ≤ ago + p.elapsed op ∧
            p.answer op = some true) := by
    intro hm hh
    rw [hm]
    exact ⟨hgoes hago, fun _ hhop => absurd hh hhop⟩
  cases h with
  | hears hop hscan hm hh ht => exact hkept hm hh
  | pauses t hop htick hphase hscan hm hh => exact hkept hm hh
  | stays hop htick hon => exact hkept hon.manager hon.hops
  | polls now env htick hs =>
    have hpoll := handleScanning_polled (p.clearOut.clocked now) env
    rw [← hs] at hpoll
    have hclock : (p.step op).currentTimeMs = now := hpoll.clock
    -- a hop starts the dwell anew
    have hhopped : ∀ m : ChannelManager, ((p.step op).currentTimeMs - m.lastHopMs).toNat ≤
          ago + p.elapsed op →
        ((p.step op).currentTimeMs - (m.hopNext now).1.lastHopMs).toNat ≤ ago + p.elapsed op := by
      intro m hm
      rcases lastHop_hopNext m now with hl | hl
      · rw [hl, hclock, since_self]
        exact Nat.zero_le _
      · rw [hl]
        exact hm
    cases hphase : p.scan.scanningPhase with
    | scanPause =>
      refine ⟨?_, fun h => by cases h⟩
      rcases hpoll.paused hphase with ⟨-, hm, -⟩ | ⟨-, -, hm, -⟩
      · rw [hm]
        exact hgoes hago
      · rw [hm]
        exact hhopped _ (hgoes hago)
    | hopping =>
      have hcase := (hpoll.hopping _ rfl hphase).2
      generalize hmdef : anchored (p.clearOut.clocked now).channelManager
        (env.hopReady && !(p.clearOut.clocked now).scan.prevHopReady)
        (p.clearOut.clocked now).currentTimeMs = m at hcase
      have hm : ((p.step op).currentTimeMs - m.lastHopMs).toNat ≤ ago + p.elapsed op := by
        rw [← hmdef]
        unfold anchored
        split_ifs
        · rw [hclock]
          exact (since_self now).le.trans (Nat.zero_le _)
        · exact hgoes hago
      have hdwell : m.scan.dwellTimeMs = p.channelManager.scan.dwellTimeMs := by
        rw [← hmdef]
        unfold anchored
        split_ifs <;> rfl
      rcases hcase with ⟨hm', hh⟩ | ⟨hready, hdue, hm', hh⟩
      · rw [hm']
        exact ⟨hm, fun _ hhop => absurd hh hhop⟩
      · rw [hm']
        refine ⟨hhopped m hm, fun _ _ => ⟨?_, ?_⟩⟩
        · rw [checkDwellTimeout, decide_eq_true_eq] at hdue
          have hd := UInt32.le_iff_toNat_le.mp hdue
          rw [hdwell] at hd
          rw [hclock] at hm
          exact hd.trans hm
        · rw [answer, if_pos hphase, htick, hready]
          rfl

/-- The time since the dwell started, after a run. -/
theorem anchor_run {ago : Nat} (h : p.Episode mid)
    (hago : (p.currentTimeMs - p.channelManager.lastHopMs).toNat ≤ ago) :
    ((Machine.run step p mid).currentTimeMs -
      (Machine.run step p mid).channelManager.lastHopMs).toNat ≤ ago + p.duration mid := by
  induction mid generalizing p ago with
  | nil => exact hago
  | cons op mid ih =>
    obtain ⟨hstep, hrest⟩ := h.step
    have hrun := ih hrest (anchor_step hstep hago).1
    rwa [Nat.add_assoc] at hrun

theorem sameList_run (h : p.Episode mid) :
    SameList p.channelManager (Machine.run step p mid).channelManager := by
  induction mid generalizing p with
  | nil => exact SameList.refl _
  | cons op mid ih =>
    obtain ⟨hstep, hrest⟩ := h.step
    exact (scans_sameList hstep).trans (ih hrest)

/-! ## How long the scanner stays -/

/-- A poll that does not hop has to wait. -/
theorem handleScanning_waits (env : Env) (hne : p.channelManager.scan.scanList ≠ [])
    (hno : hops (p.handleScanning env).out = hops p.out) :
    (p.scan.scanningPhase = .scanPause →
      p.currentTimeMs - p.scan.scanPauseSettleMs < tdrwMs) ∧
    (p.scan.scanningPhase = .hopping → env.hopReady = true →
      p.currentTimeMs - (anchored p.channelManager (env.hopReady && !p.scan.prevHopReady)
        p.currentTimeMs).lastHopMs < p.channelManager.scan.dwellTimeMs) := by
  have hmoves : ∀ m : ChannelManager, m.scan.scanList ≠ [] → ∀ out : List Output,
      hops (out ++ (m.hopNext p.currentTimeMs).2.map .channelChange) ≠ hops out := by
    intro m hm out heq
    rw [hops_append, hops_channels] at heq
    exact hopNext_ne_nil hm _ (List.append_right_eq_self.mp heq)
  unfold handleScanning at hno
  dsimp only at hno
  by_cases hphase : p.scan.scanningPhase = .scanPause
  · rw [if_pos hphase] at hno
    refine ⟨fun _ => ?_, fun h => absurd (hphase.symm.trans h) (by decide)⟩
    by_contra hdue
    rw [if_pos (UInt32.not_lt.mp hdue)] at hno
    exact hmoves _ hne _ hno
  · rw [if_neg hphase] at hno
    refine ⟨fun h => absurd h hphase, fun _ hready => ?_⟩
    by_contra hdue
    have hdue := UInt32.not_lt.mp hdue
    generalize hmdef : anchored p.channelManager (env.hopReady && !p.scan.prevHopReady)
      p.currentTimeMs = m at hdue
    have hm : (if env.hopReady = true ∧ ¬ p.scan.prevHopReady = true then
        p.setManager (p.channelManager.anchorDwell p.currentTimeMs) else p) = p.setManager m := by
      rw [← hmdef]
      unfold anchored
      by_cases hedge : env.hopReady = true ∧ ¬ p.scan.prevHopReady = true
      · rw [if_pos hedge, if_pos (by simpa using hedge)]
      · rw [if_neg hedge, if_neg (by simpa using hedge)]
        rfl
    have hmne : m.scan.scanList ≠ [] := by
      rw [← hmdef]
      unfold anchored
      split_ifs <;> exact hne
    have hmdwell : m.scan.dwellTimeMs = p.channelManager.scan.dwellTimeMs := by
      rw [← hmdef]
      unfold anchored
      split_ifs <;> rfl
    rw [hm] at hno
    have hgo : m.checkDwellTimeout p.currentTimeMs = true ∧ env.hopReady = true := by
      refine ⟨decide_eq_true ?_, hready⟩
      rw [hmdwell]
      exact hdue
    change hops (if m.checkDwellTimeout p.currentTimeMs = true ∧ env.hopReady = true then _
      else _ : SM).out = _ at hno
    rw [if_pos hgo] at hno
    exact hmoves _ hmne _ hno

/-- A stretch in which the radio is settled whenever it is asked, no valid word is heard, and the
scanner is polled at least every `gap` milliseconds; `wait` is the time since the last poll. -/
def Settled (gap : Nat) : Nat → SM → List Op → Prop
  | _, _, [] => True
  | wait, s, op :: ops =>
    isHeard op = false ∧ s.answer op ≠ some false ∧ wait + s.elapsed op ≤ gap ∧
      Settled gap (if (s.scanTick op).isSome then 0 else wait + s.elapsed op) (s.step op) ops

/-- How long the scanner has stayed on its channel `total` milliseconds into a settled stretch and
`wait` milliseconds after its last poll. -/
structure Waits (gap total wait : Nat) (s : SM) : Prop where
  wait_le : wait ≤ gap
  hopping : s.scan.scanningPhase = .hopping → total = wait ∨
    s.scan.prevHopReady = true ∧ ∃ d < s.channelManager.scan.dwellTimeMs.toNat,
      (s.currentTimeMs - s.channelManager.lastHopMs).toNat = d + wait ∧ total ≤ gap + d + wait
  paused : s.scan.scanningPhase = .scanPause →
    total ≤ gap + s.channelManager.scan.dwellTimeMs.toNat + wait ∨
    ∃ d < tdrwMs.toNat, (s.currentTimeMs - s.scan.scanPauseSettleMs).toNat = d + wait ∧
      total ≤ 2 * gap + s.channelManager.scan.dwellTimeMs.toNat + d + wait

/-- Time that adds up without a wrap. -/
theorem since_exact {a b t : UInt32} (h : (a - t).toNat + (b - a).toNat < 2 ^ 32) :
    (b - t).toNat = (a - t).toNat + (b - a).toNat := by
  have hsum : b - t = (a - t) + (b - a) := by grind
  rw [hsum, UInt32.toNat_add, Nat.mod_eq_of_lt h]

/-- **One more operation of a settled stretch** that does not hop. -/
theorem waits_step {gap total wait : Nat} (hw : s.Waits gap total wait)
    (h : s.Scans op (s.step op)) (hne : s.channelManager.scan.scanList ≠ [])
    (hdwell : s.channelManager.scan.dwellTimeMs.toNat + gap ≤ 2 ^ 32)
    (hsilence : tdrwMs.toNat + gap ≤ 2 ^ 32) (hheard : isHeard op = false)
    (hanswer : s.answer op ≠ some false) (hpace : wait + s.elapsed op ≤ gap)
    (hno : hops (s.step op).out = []) :
    (s.step op).Waits gap (total + s.elapsed op)
      (if (s.scanTick op).isSome then 0 else wait + s.elapsed op) := by
  cases h with
  | hears hop => cases hop.symm.trans hheard
  | pauses t hop htick hphase hscan hm hh =>
    rw [htick]
    refine ⟨hpace, ?_, fun _ => Or.inl ?_⟩
    · intro hphase'
      rw [hscan] at hphase'
      cases hphase'
    · rw [hm]
      rcases hw.hopping hphase with htotal | ⟨-, d, hd, -, htotal⟩
      · change _ ≤ _ + (wait + s.elapsed op)
        omega
      · change _ ≤ _ + (wait + s.elapsed op)
        omega
  | stays hop htick hon =>
    have hscan : (s.step op).scan = s.scan := hon.scan
    have hm : (s.step op).channelManager = s.channelManager := hon.manager
    rw [htick]
    refine ⟨hpace, ?_, ?_⟩
    · rw [hscan, hm]
      intro hphase
      refine (hw.hopping hphase).imp (fun htotal => by rw [htotal]; rfl) ?_
      rintro ⟨hprev, d, hd, hsince, htotal⟩
      refine ⟨hprev, d, hd, ?_, ?_⟩
      · rw [since_exact (a := s.currentTimeMs), hsince, Nat.add_assoc]
        · rfl
        · rw [hsince]
          change d + wait + s.elapsed op < _
          omega
      · change _ ≤ _ + (wait + s.elapsed op)
        omega
    · rw [hscan, hm]
      intro hphase
      rcases hw.paused hphase with htotal | ⟨d, hd, hsince, htotal⟩
      · left
        change _ ≤ _ + (wait + s.elapsed op)
        omega
      · refine Or.inr ⟨d, hd, ?_, ?_⟩
        · rw [since_exact (a := s.currentTimeMs), hsince, Nat.add_assoc]
          · rfl
          · rw [hsince]
            change d + wait + s.elapsed op < _
            omega
        · change _ ≤ _ + (wait + s.elapsed op)
          omega
  | polls now env htick hs =>
    have hpoll := handleScanning_polled (s.clearOut.clocked now) env
    have hwaits := handleScanning_waits (p := s.clearOut.clocked now) env hne
      (by rw [← hs, hno]; rfl)
    rw [← hs] at hpoll
    have hclock : (s.step op).currentTimeMs = now := hpoll.clock
    have helapsed : s.elapsed op = (now - s.currentTimeMs).toNat := by rw [elapsed, hclock]
    rw [htick]
    cases hphase : s.scan.scanningPhase with
    | scanPause =>
      have hlt := UInt32.lt_iff_toNat_lt.mp (hwaits.1 hphase)
      change (now - s.scan.scanPauseSettleMs).toNat < tdrwMs.toNat at hlt
      rcases hpoll.paused hphase with ⟨hscan, hm, -⟩ | ⟨-, -, hm, hh⟩
      · refine ⟨Nat.zero_le _, ?_, fun _ => Or.inr ?_⟩
        · intro hphase'
          rw [hscan] at hphase'
          cases hphase.symm.trans hphase'
        · rw [hscan, hm, hclock]
          refine ⟨(now - s.scan.scanPauseSettleMs).toNat, hlt, rfl, ?_⟩
          change _ ≤ 2 * gap + s.channelManager.scan.dwellTimeMs.toNat +
            (now - s.scan.scanPauseSettleMs).toNat + 0
          rcases hw.paused hphase with htotal | ⟨d, hd, hsince, htotal⟩
          · omega
          · rw [since_exact (a := s.currentTimeMs) (by rw [hsince]; omega), hsince]
            omega
      · rw [hno] at hh
        exact absurd hh.symm (hopNext_ne_nil hne _)
    | hopping =>
      have hready : env.hopReady = true := by
        rw [answer, if_pos hphase, htick] at hanswer
        simpa using hanswer
      have hlt := UInt32.lt_iff_toNat_lt.mp (hwaits.2 hphase hready)
      obtain ⟨hscan, hcase⟩ := hpoll.hopping _ rfl hphase
      generalize hmdef : anchored (s.clearOut.clocked now).channelManager
        (env.hopReady && !(s.clearOut.clocked now).scan.prevHopReady)
        (s.clearOut.clocked now).currentTimeMs = m at hcase hlt
      have hmne : m.scan.scanList ≠ [] := by
        rw [← hmdef]
        unfold anchored
        split_ifs <;> exact hne
      have hmdwell : m.scan.dwellTimeMs = s.channelManager.scan.dwellTimeMs := by
        rw [← hmdef]
        unfold anchored
        split_ifs <;> rfl
      change (now - m.lastHopMs).toNat < s.channelManager.scan.dwellTimeMs.toNat at hlt
      rcases hcase with ⟨hm, -⟩ | ⟨-, -, -, hh⟩
      · refine ⟨Nat.zero_le _, fun _ => Or.inr ⟨?_, ?_⟩, ?_⟩
        · rw [hscan]
          exact hready
        · rw [hm, hclock, hmdwell]
          refine ⟨(now - m.lastHopMs).toNat, hlt, rfl, ?_⟩
          change _ ≤ gap + (now - m.lastHopMs).toNat + 0
          rcases hw.hopping hphase with htotal | ⟨hprev, d, hd, hsince, htotal⟩
          · omega
          · have hkept : m.lastHopMs = s.channelManager.lastHopMs := by
              have hedge : (env.hopReady && !(s.clearOut.clocked now).scan.prevHopReady) = false := by
                rw [show (s.clearOut.clocked now).scan.prevHopReady = true from hprev, hready]
                rfl
              rw [← hmdef, hedge]
              rfl
            rw [hkept, since_exact (a := s.currentTimeMs) (by rw [hsince]; omega), hsince]
            omega
        · intro hphase'
          rw [hscan] at hphase'
          cases hphase.symm.trans hphase'
      · rw [hno] at hh
        exact absurd hh.symm (hopNext_ne_nil hmne _)

/-- **A settled stretch without a hop** is short. -/
theorem waits_run {gap total wait : Nat} (hw : s.Waits gap total wait) (h : s.Episode mid)
    (hsettled : Settled gap wait s mid) (hne : s.channelManager.scan.scanList ≠ [])
    (hdwell : s.channelManager.scan.dwellTimeMs.toNat + gap ≤ 2 ^ 32)
    (hsilence : tdrwMs.toNat + gap ≤ 2 ^ 32) (hno : s.visited mid = []) :
    total + s.duration mid ≤
      s.channelManager.scan.dwellTimeMs.toNat + tdrwMs.toNat + 3 * gap := by
  induction mid generalizing s total wait with
  | nil =>
    have hwait := hw.wait_le
    change total ≤ _
    cases hphase : s.scan.scanningPhase with
    | hopping =>
      rcases hw.hopping hphase with htotal | ⟨-, d, hd, -, htotal⟩ <;> omega
    | scanPause =>
      rcases hw.paused hphase with htotal | ⟨d, hd, -, htotal⟩ <;> omega
  | cons op mid ih =>
    obtain ⟨hstep, hrest⟩ := h.step
    obtain ⟨hheard, hanswer, hpace, hsettled⟩ := hsettled
    obtain ⟨hhere, hthere⟩ := List.append_eq_nil_iff.mp hno
    have hlist := scans_sameList hstep
    have hne' : (s.step op).channelManager.scan.scanList ≠ [] := by
      intro hnil
      have hlen := hlist.length
      rw [hnil] at hlen
      exact hne (List.length_eq_zero_iff.mp hlen.symm)
    have hrun := ih (waits_step hw hstep hne hdwell hsilence hheard hanswer hpace hhere) hrest
      hsettled hne' (by rw [hlist.dwell]; exact hdwell) hthere
    rw [hlist.dwell] at hrun
    rw [duration, ← Nat.add_assoc]
    exact hrun

/-! ## The channels visited -/

/-- Every place comes up in a round. -/
theorem exists_place {a len j : Nat} (hj : j < len) : ∃ i < len, (a + i) % len = j := by
  have hr : a % len < len := Nat.mod_lt _ (by omega)
  refine ⟨(j + (len - a % len)) % len, Nat.mod_lt _ (by omega), ?_⟩
  have hsum : a + (j + (len - a % len)) = j + len * (a / len + 1) := by
    have hdiv := Nat.div_add_mod a len
    rw [Nat.mul_succ]
    omega
  rw [Nat.add_mod_mod, hsum, Nat.add_mul_mod_self_left, Nat.mod_eq_of_lt hj]

/-- A full round visits every channel. -/
theorem visits_all (h : s.Episode ops)
    (hlen : s.channelManager.scan.scanList.length ≤ (s.visited ops).length) {ch : Channel}
    (hch : ch ∈ s.channelManager.scan.scanList) :
    ∃ v ∈ s.visited ops, v.unstamped = ch.unstamped := by
  obtain ⟨j, hj, hget⟩ := List.mem_iff_getElem.mp hch
  obtain ⟨i, hi, hplace⟩ := exists_place (a := s.channelManager.scan.channelIndex + 1) hj
  have hround := round_robin s ops h
  have hmem : some ch.unstamped ∈ (List.range (s.visited ops).length).map fun i =>
      (s.channelManager.scan.scanList.map Channel.unstamped)[s.channelManager.placeAfter i]? := by
    refine List.mem_map.mpr ⟨i, List.mem_range.mpr (hi.trans_le hlen), ?_⟩
    rw [placeAfter, hplace, List.getElem?_map, List.getElem?_eq_getElem hj, hget]
    rfl
  rw [← hround] at hmem
  obtain ⟨v, hv, heq⟩ := List.mem_map.mp hmem
  exact ⟨v, hv, Option.some.inj heq⟩

/-! ## The discipline -/

/-- What the scanner keeps to in an episode. -/
structure OrderlyScan (s : SM) (ops : List Op) : Prop where
  /-- A hop that ends no pause finds the radio ready and the dwell over, from its start on. -/
  listens : ∀ pre last post, ops = pre ++ last :: post →
    (Machine.run step s pre).scan.scanningPhase = .hopping →
    hops ((Machine.run step s pre).step last).out ≠ [] →
      s.channelManager.scan.dwellTimeMs.toNat ≤
          (s.currentTimeMs - s.channelManager.lastHopMs).toNat + s.duration (pre ++ [last]) ∧
        (Machine.run step s pre).answer last = some true
  /-- What is less than the dwell time back was no hop and found no unready radio; what is less than
  `Tdrw` back in a pause was no valid word. -/
  due : ∀ pre op mid last post, ops = pre ++ op :: (mid ++ last :: post) →
    hops ((Machine.run step (Machine.run step s pre) (op :: mid)).step last).out ≠ [] →
      (Machine.run step (Machine.run step s pre) (op :: mid)).Due last (Machine.run step s pre) op
        (((Machine.run step s pre).step op).duration (mid ++ [last]))
  /-- The hops go round the list. -/
  rounds : (s.visited ops).map (fun ch => some ch.unstamped) =
    (List.range (s.visited ops).length).map fun i =>
      (s.channelManager.scan.scanList.map Channel.unstamped)[s.channelManager.placeAfter i]?
  /-- As many hops as there are channels visit every one. -/
  visits : s.channelManager.scan.scanList.length ≤ (s.visited ops).length →
    ∀ ch ∈ s.channelManager.scan.scanList, ∃ v ∈ s.visited ops, v.unstamped = ch.unstamped
  /-- A stretch with a settled radio and no valid word is short, or it hops. -/
  moves : ∀ gap pre mid post, ops = pre ++ (mid ++ post) →
    s.channelManager.scan.scanList ≠ [] →
    s.channelManager.scan.dwellTimeMs.toNat + gap ≤ 2 ^ 32 → tdrwMs.toNat + gap ≤ 2 ^ 32 →
    Settled gap 0 (Machine.run step s pre) mid → (Machine.run step s pre).visited mid = [] →
      (Machine.run step s pre).duration mid ≤
        s.channelManager.scan.dwellTimeMs.toNat + tdrwMs.toNat + 3 * gap

/-- **The discipline of the scanner**, in every episode. -/
theorem scanner_disciplined (s : SM) (ops : List Op) (h : s.Episode ops) : s.OrderlyScan ops where
  listens := by
    rintro pre last post rfl hphase hhop
    obtain ⟨hpre, hpost⟩ := h.append
    have hdwell := ((anchor_step hpost.step.1 (anchor_run hpre le_rfl)).2 hphase hhop)
    rw [(sameList_run hpre).dwell, Nat.add_assoc] at hdwell
    rw [duration_append]
    exact hdwell
  due := by
    rintro pre op mid last post rfl hhop
    obtain ⟨-, hrest⟩ := h.append
    have hsplit : op :: (mid ++ last :: post) = op :: (mid ++ [last]) ++ post := by simp
    rw [hsplit] at hrest
    exact hop_due _ op mid last hrest.append.1 hhop
  rounds := round_robin s ops h
  visits := fun hlen _ hch => visits_all h hlen hch
  moves := by
    rintro gap pre mid post rfl hne hdwell hsilence hsettled hno
    obtain ⟨hpre, hrest⟩ := h.append
    have hlist := sameList_run hpre
    have hne' : (Machine.run step s pre).channelManager.scan.scanList ≠ [] := by
      intro hnil
      have hlen := hlist.length
      rw [hnil] at hlen
      exact hne (List.length_eq_zero_iff.mp hlen.symm)
    have hstart : (Machine.run step s pre).Waits gap 0 0 :=
      ⟨Nat.zero_le _, fun _ => Or.inl rfl, fun _ => Or.inl (Nat.zero_le _)⟩
    have hshort := waits_run hstart hrest.append.1 hsettled hne'
      (by rw [hlist.dwell]; exact hdwell) hsilence hno
    rw [hlist.dwell, Nat.zero_add] at hshort
    exact hshort

/-- A scanner on three channels. -/
def onThree : SM :=
  Machine.run step init [
    .set (.configureScan { scanList :=
      [{ rxFrequencyHz := 3500000 }, { rxFrequencyHz := 7100000 }, { rxFrequencyHz := 14100000 }] }),
    .processEvent .startScan]

/-- The radio is slow to settle on the second channel, and a word is heard on the third. -/
def aRound : List Op :=
  [.update 200 {}, .update 250 { hopReady := false }, .update 300 {}, .update 450 {}, .update 500 {},
    .processReceivedWord { type := .data, valid := true }, .update 900 {}, .update 1300 {}]

/-- The round of three hops. -/
theorem scanner_disciplined_three :
    (onThree.visited aRound).map Channel.rxFrequencyHz = [7100000, 14100000, 3500000] ∧
    onThree.OrderlyScan aRound :=
  ⟨by decide +kernel, scanner_disciplined onThree aRound (by decide +kernel)⟩

/-! ## What the scanner does not keep to -/

/-- A word of another station's message. -/
def foreignWord : ALEWord := { type := .data, valid := true }

/-- A word every half second, and a poll after it. -/
def chatter (t : UInt32) : Nat → List Op
  | 0 => []
  | n + 1 => .processReceivedWord foreignWord :: .update (t + 500) {} :: chatter (t + 500) n

/-- A foreign word starts or extends a pause. -/
theorem foreignWord_pauses (hs : s.currentState = .scanning) :
    (s.step (.processReceivedWord foreignWord)).currentState = .scanning ∧
      (s.step (.processReceivedWord foreignWord)).currentTimeMs = s.currentTimeMs ∧
      (s.step (.processReceivedWord foreignWord)).allcallBroadcasting = s.allcallBroadcasting ∧
      (s.step (.processReceivedWord foreignWord)).scan.scanningPhase = .scanPause ∧
      (s.step (.processReceivedWord foreignWord)).scan.scanPauseSettleMs = s.currentTimeMs ∧
      hops (s.step (.processReceivedWord foreignWord)).out = [] := by
  have hlqa : ∀ (q : SM) (lq : LinkQuality), q.currentState = .scanning → q.updateLqa lq = q := by
    intro q lq hq
    unfold updateLqa
    rw [if_neg]
    rintro ⟨-, h | h⟩ <;> cases hq.symm.trans h
  have hrole : ∀ q : SM, q.currentState = .scanning → q.classify foreignWord = .none := by
    intro q hq
    simp [classify, lbtActive, collecting, hq, foreignWord]
  have hreact : ∀ q : SM, q.currentState = .scanning → q.react .none foreignWord =
      { q with scan := { q.scan with
        scanningPhase := .scanPause, scanPauseSettleMs := q.currentTimeMs } } := by
    intro q hq
    have hscanning : q.react .none foreignWord = q.reactScanning .none := by
      unfold react
      rw [hq]
    rw [hscanning]
    unfold reactScanning
    dsimp only [detectIncomingCall]
    rw [if_neg (not_not.mpr hq)]
  have hword : s.step (.processReceivedWord foreignWord) =
      { s.clearOut with
        hs := { s.clearOut.hs with contiguousErrors := 0 }
        lastWordTimeMs := s.currentTimeMs
        scan := { s.scan with
          scanningPhase := .scanPause, scanPauseSettleMs := s.currentTimeMs } } := by
    change s.clearOut.processReceivedWord foreignWord = _
    unfold processReceivedWord
    rw [if_neg (by decide)]
    dsimp only
    rw [hlqa, hrole, hreact]
    · rfl
    · exact hs
    · exact hs
    · exact hs
  rw [hword]
  exact ⟨hs, rfl, rfl, rfl, rfl, rfl⟩

/-- Half a second into a pause nothing happens. -/
theorem pause_goes_on {t : UInt32} (hs : s.currentState = .scanning)
    (hb : s.allcallBroadcasting = false) (hphase : s.scan.scanningPhase = .scanPause)
    (hsettle : t - s.scan.scanPauseSettleMs = 500) (ht : t - s.currentTimeMs = 500) :
    s.step (.update t {}) = s.clearOut.clocked t := by
  have hs' : (s.clearOut.clocked t).currentState = .scanning := hs
  have hb' : (s.clearOut.clocked t).allcallBroadcasting = false := hb
  have hphase' : (s.clearOut.clocked t).scan.scanningPhase = .scanPause := hphase
  have hlink : (s.clearOut.clocked t).checkLinkTimeout = false := by
    unfold checkLinkTimeout
    rw [hs']
  have hforward : ¬ 0x80000000 ≤ t - s.clearOut.currentTimeMs := by
    change ¬ 0x80000000 ≤ t - s.currentTimeMs
    rw [ht]
    decide
  have hwaits : ¬ tdrwMs ≤ t - s.scan.scanPauseSettleMs := by
    rw [hsettle]
    decide
  change s.clearOut.update t {} = _
  unfold update
  rw [if_neg hforward]
  change tick (s.clearOut.clocked t) {} = _
  unfold tick
  rw [hlink, if_neg Bool.false_ne_true, hb', Bool.false_and, if_neg Bool.false_ne_true]
  unfold handle
  rw [hs']
  change (s.clearOut.clocked t).handleScanning {} = _
  unfold handleScanning
  rw [if_pos hphase']
  exact if_neg hwaits

/-- While a word comes every half second, the scanner stays. -/
theorem chatter_stays (hs : s.currentState = .scanning) (hb : s.allcallBroadcasting = false)
    (n : Nat) :
    s.Episode (chatter s.currentTimeMs n) ∧ s.visited (chatter s.currentTimeMs n) = [] ∧
      s.duration (chatter s.currentTimeMs n) = 500 * n := by
  induction n generalizing s with
  | zero => exact ⟨⟨hs, fun _ ho => absurd ho List.not_mem_nil⟩, rfl, rfl⟩
  | succ n ih =>
    obtain ⟨hs', ht, hb', hphase, hsettle, hhops⟩ := foreignWord_pauses hs
    rw [chatter]
    generalize hq : s.step (.processReceivedWord foreignWord) = q at hs' ht hb' hphase hsettle hhops
    have hhalf : s.currentTimeMs + 500 - s.currentTimeMs = 500 := by grind
    generalize s.currentTimeMs + 500 = t at hhalf ⊢
    have hpoll := pause_goes_on (t := t) hs' (hb'.trans hb) hphase (by rw [hsettle, hhalf])
      (by rw [ht, hhalf])
    obtain ⟨hepisode, hvisited, hduration⟩ := ih (s := q.clearOut.clocked t) hs' (hb'.trans hb)
    change Episode _ (chatter t n) at hepisode
    change visited _ (chatter t n) = [] at hvisited
    change duration _ (chatter t n) = _ at hduration
    refine ⟨⟨⟨hs, ?_⟩, ?_⟩, ?_, ?_⟩
    · rw [hq]
      refine ⟨hs', ?_⟩
      rw [hpoll]
      exact hepisode.scanning
    · intro o ho
      rcases List.mem_cons.mp ho with rfl | ho
      · rfl
      · rcases List.mem_cons.mp ho with rfl | ho
        · rfl
        · exact hepisode.keeps o ho
    · rw [visited, visited, hq, hpoll, hhops, hvisited]
      rfl
    · have hpolled : (q.clearOut.clocked t).currentTimeMs - q.currentTimeMs = 500 := by
        rw [ht]
        exact hhalf
      have hmillis : (500 : UInt32).toNat = 500 := rfl
      rw [duration, duration, elapsed, elapsed, hq, hpoll, hduration, hpolled, ht, since_self,
        hmillis]
      omega

/-- A word is heard before the radio has settled on the second channel. -/
def unsettledPause : List Op :=
  [.update 200 {}, .update 250 { hopReady := false }, .processReceivedWord foreignWord]

/-- **A pause ends with a hop that asks no radio**, and words that keep coming keep the scanner. -/
theorem scanner_hops_unready :
    (onThree.Episode (unsettledPause ++ [.update 1100 { hopReady := false }]) ∧
      hops ((Machine.run step onThree unsettledPause).step
        (.update 1100 { hopReady := false })).out ≠ []) ∧
    ∀ n, onThree.Episode (chatter onThree.currentTimeMs n) ∧
      onThree.visited (chatter onThree.currentTimeMs n) = [] ∧
      onThree.duration (chatter onThree.currentTimeMs n) = 500 * n :=
  ⟨⟨by decide +kernel, by decide +kernel⟩,
    fun n => chatter_stays (by decide +kernel) (by decide +kernel) n⟩

end SM

end OpenALE
