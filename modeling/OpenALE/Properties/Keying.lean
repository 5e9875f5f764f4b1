import OpenALE.App.Keying

/-!
# The keying over whole runs

The callbacks of the state machine, the operator and the clock come in any order. `Slips` lists the
ways in which they leave the radio keyed with nobody to release it, or listening to itself, or not
keyed while the state machine transmits.

Results:
* `Ruled.step`: what every other step keeps.
* `keying_iff`: the exact runs on which the keying is in order.
-/

namespace OpenALE

namespace Keying

variable {k : Keying}

/-- The state machine transmits and was not refused. -/
def Transmits (k : Keying) : Prop := k.smRxEnabled = false ∧ k.refused = false

/-- The keying is in order. -/
structure InOrder (k : Keying) : Prop where
  /-- Whoever keys the radio is there to release it. -/
  held : k.ptt = true → k.manualPtt = true ∨ k.Transmits ∨ 0 < k.pttTailDeadlineMs
  /-- The demodulator does not listen to the transmitter. -/
  halfDuplex : k.demodulator = true → k.ptt = false
  /-- No word is sent into a radio that receives. -/
  keyed : k.Transmits → k.ptt = true

/-- A step that leaves the keying out of order. -/
def Slips (k : Keying) : KeyOp → Prop
  -- The deadline of the tail wraps to the value that says there is none.
  | .rxEnabled rxOn _ _ => rxOn = true ∧ k.smRxEnabled = false ∧ k.manualPtt = false ∧
      k.ptt = true ∧ 0 < k.effectiveTailMs ∧ k.nowMs + k.effectiveTailMs = 0
  -- Manual PTT is given up, and the radio with it only if the state machine receives.
  | .setManualPtt on inhibited => k.manualPtt = true ∧ ¬ k.Transmits ∧
      if on then inhibited = true else k.smRxEnabled = false
  -- The state machine goes on transmitting.
  | .flush => k.Transmits
  -- The demodulator is switched on whatever the radio does.
  | .startAvailable => k.ptt = true
  | _ => False

/-- What keeps the keying in order. -/
structure Ruled (k : Keying) : Prop extends InOrder k where
  manual : k.manualPtt = true → k.ptt = true
  tail : k.manualPtt = true ∨ k.Transmits → k.pttTailDeadlineMs = 0
  refusal : k.refused = true → k.smRxEnabled = false

theorem Ruled.congr {k' : Keying} (h : Ruled k) (hptt : k'.ptt = k.ptt)
    (hmanual : k'.manualPtt = k.manualPtt) (hrx : k'.smRxEnabled = k.smRxEnabled)
    (hrefused : k'.refused = k.refused) (htail : k'.pttTailDeadlineMs = k.pttTailDeadlineMs)
    (hdemodulator : k'.demodulator = k.demodulator) : Ruled k' := by
  have htransmits : k'.Transmits ↔ k.Transmits := by unfold Transmits; rw [hrx, hrefused]
  refine ⟨⟨?_, ?_, ?_⟩, ?_, ?_, ?_⟩
  · rw [hptt, hmanual, htransmits, htail]
    exact h.held
  · rw [hdemodulator, hptt]
    exact h.halfDuplex
  · rw [htransmits, hptt]
    exact h.keyed
  · rw [hmanual, hptt]
    exact h.manual
  · rw [hmanual, htransmits, htail]
    exact h.tail
  · rw [hrefused, hrx]
    exact h.refusal

/-! ## What the operations do to the way of the words -/

theorem path_tick (k : Keying) (now : UInt32) :
    (k.toTxPath.tickPttTiming now).manualPtt = k.manualPtt ∧
      (k.toTxPath.tickPttTiming now).smRxEnabled = k.smRxEnabled := by
  unfold TxPath.tickPttTiming
  dsimp only
  split_ifs <;> exact ⟨rfl, rfl⟩

theorem path_transmit (k : Keying) (w : ALEWord) :
    (k.toTxPath.transmit w).manualPtt = k.manualPtt ∧
      (k.toTxPath.transmit w).smRxEnabled = k.smRxEnabled := by
  unfold TxPath.transmit
  split_ifs <;> exact ⟨rfl, rfl⟩

theorem path_rxEnabled (k : Keying) {rxOn : Bool} (h : rxOn ≠ k.smRxEnabled) (inhibited : Bool) :
    (k.toTxPath.rxEnabled rxOn inhibited).manualPtt = k.manualPtt ∧
      (k.toTxPath.rxEnabled rxOn inhibited).smRxEnabled = rxOn := by
  rw [TxPath.rxEnabled, if_neg h]
  dsimp only
  split_ifs <;> exact ⟨rfl, rfl⟩

theorem path_setManualPtt (k : Keying) (on inhibited : Bool) :
    (k.toTxPath.setManualPtt on inhibited).manualPtt = (on && !inhibited) ∧
      (k.toTxPath.setManualPtt on inhibited).smRxEnabled = k.smRxEnabled := by
  unfold TxPath.setManualPtt
  cases on <;> cases inhibited <;> exact ⟨rfl, rfl⟩

/-! ## One step -/

/-- Somebody keys the radio. -/
theorem Ruled.of_keyed (hptt : k.ptt = true) (hholder : k.manualPtt = true ∨ k.Transmits)
    (htail : k.pttTailDeadlineMs = 0) (hdemodulator : k.demodulator = false)
    (hrefusal : k.refused = true → k.smRxEnabled = false) : Ruled k where
  held _ := hholder.imp_right .inl
  halfDuplex h := Bool.noConfusion (hdemodulator.symm.trans h)
  keyed _ := hptt
  manual _ := hptt
  tail _ := htail
  refusal := hrefusal

/-- Nobody keys the radio any more, unless the tail still runs. -/
theorem Ruled.of_released (hptt : k.ptt = true → 0 < k.pttTailDeadlineMs)
    (hmanual : k.manualPtt = false) (hsilent : ¬ k.Transmits)
    (hdemodulator : k.demodulator = true → k.ptt = false)
    (hrefusal : k.refused = true → k.smRxEnabled = false) : Ruled k where
  held h := .inr (.inr (hptt h))
  halfDuplex := hdemodulator
  keyed h := absurd h hsilent
  manual h := Bool.noConfusion (hmanual.symm.trans h)
  tail h := by
    rcases h with h | h
    · exact Bool.noConfusion (hmanual.symm.trans h)
    · exact absurd h hsilent
  refusal := hrefusal

theorem not_transmits_of_rx (h : k.smRxEnabled = true) : ¬ k.Transmits :=
  fun htransmits => Bool.noConfusion (h.symm.trans htransmits.1)

/-- While the operator or the state machine keys it, the radio is keyed and the demodulator off. -/
theorem Ruled.demodulator_of_ptt (h : Ruled k) (hptt : k.ptt = true) : k.demodulator = false :=
  Bool.eq_false_iff.mpr fun hon => Bool.noConfusion (hptt.symm.trans (h.halfDuplex hon))

/-- The state machine switches its receiver. -/
theorem Ruled.rxEnabled (h : Ruled k) {rxOn inhibited deaf : Bool}
    (hslip : ¬ k.Slips (.rxEnabled rxOn inhibited deaf)) : Ruled (k.rxEnabled rxOn inhibited deaf) := by
  unfold Keying.rxEnabled
  dsimp only
  by_cases hsame : rxOn = k.smRxEnabled
  · rwa [if_pos hsame]
  rw [if_neg hsame]
  obtain ⟨hpathManual, hpathRx⟩ := path_rxEnabled k hsame inhibited
  by_cases hm : k.manualPtt = true
  · rw [if_pos hm]
    have hptt := h.manual hm
    refine .of_keyed hptt (.inl (hpathManual.trans hm)) (h.tail (.inl hm)) ?_ nofun
    dsimp only
    rw [h.demodulator_of_ptt hptt, ite_self]
  rw [if_neg hm]
  have hmanual : k.manualPtt = false := Bool.eq_false_iff.mpr hm
  cases rxOn with
  | true =>
    have hrx : k.smRxEnabled = false := Bool.eq_false_iff.mpr (Ne.symm hsame)
    rw [if_pos rfl]
    by_cases htail : 0 < k.effectiveTailMs
    · rw [if_pos htail]
      -- the tail holds the key, unless its deadline wraps to zero
      have hptt : k.ptt = true → 0 < k.nowMs + k.effectiveTailMs := fun hptt =>
        UInt32.pos_iff_ne_zero.mpr fun hwrap => hslip ⟨rfl, hrx, hmanual, hptt, htail, hwrap⟩
      exact .of_released hptt (hpathManual.trans hmanual) (not_transmits_of_rx hpathRx)
        h.halfDuplex nofun
    · rw [if_neg htail]
      exact .of_released nofun (hpathManual.trans hmanual) (not_transmits_of_rx hpathRx)
        (fun _ => rfl) nofun
  | false =>
    have hrx : k.smRxEnabled = true := Bool.eq_true_of_not_eq_false (Ne.symm hsame)
    rw [if_neg Bool.false_ne_true]
    split_ifs
    · -- refused: only a tail that still runs holds the key
      refine .of_released ?_ (hpathManual.trans hmanual) (fun ht => Bool.noConfusion ht.2)
        h.halfDuplex fun _ => hpathRx
      intro hptt
      rcases h.held hptt with hold | hold | hold
      · exact absurd hold hm
      · exact absurd hold (not_transmits_of_rx hrx)
      · exact hold
    · exact .of_keyed rfl (.inr ⟨hpathRx, rfl⟩) rfl rfl nofun

/-- The tail comes to its end. -/
theorem Ruled.releaseTail (h : Ruled k) (deaf : Bool) : Ruled (k.releaseTail deaf) := by
  unfold Keying.releaseTail
  by_cases hdue : 0 < k.pttTailDeadlineMs ∧ ¬ k.manualPtt ∧ k.pttTailDeadlineMs ≤ k.nowMs
  · rw [if_pos hdue]
    obtain ⟨htail, hmanual, -⟩ := hdue
    have hsilent : ¬ k.Transmits := by
      intro ht
      rw [h.tail (.inr ht)] at htail
      exact absurd htail (by decide)
    exact .of_released nofun (Bool.eq_false_iff.mpr hmanual) hsilent (fun _ => rfl) h.refusal
  · rwa [if_neg hdue]

/-- The clock. -/
theorem Ruled.tick (h : Ruled k) (now : UInt32) (deaf : Bool) : Ruled (k.tick now deaf) := by
  obtain ⟨hpathManual, hpathRx⟩ := path_tick k now
  have hpath : Ruled { k with toTxPath := k.toTxPath.tickPttTiming now } :=
    h.congr rfl hpathManual hpathRx rfl rfl rfl
  exact (hpath.releaseTail deaf).congr rfl rfl rfl rfl rfl rfl

/-- The operator's PTT. -/
theorem Ruled.setManualPtt (h : Ruled k) {on inhibited : Bool}
    (hslip : ¬ k.Slips (.setManualPtt on inhibited)) : Ruled (k.setManualPtt on inhibited) := by
  obtain ⟨hpathManual, hpathRx⟩ := path_setManualPtt k on inhibited
  -- PTT is given up, and the radio left as it is
  have hgives : (on && !inhibited) = false →
      (k.manualPtt = true → k.Transmits) →
      Ruled { k with toTxPath := k.toTxPath.setManualPtt on inhibited } := by
    intro hoff hheld
    by_cases hm : k.manualPtt = true
    · obtain ⟨hrx, hadmitted⟩ := hheld hm
      have hptt := h.manual hm
      exact .of_keyed hptt (.inr ⟨hpathRx.trans hrx, hadmitted⟩) (h.tail (.inl hm))
        (h.demodulator_of_ptt hptt) fun hrefused => Bool.noConfusion (hadmitted.symm.trans hrefused)
    · refine h.congr rfl ?_ hpathRx rfl rfl rfl
      exact (hpathManual.trans hoff).trans (Bool.eq_false_iff.mpr hm).symm
  unfold Keying.setManualPtt
  dsimp only
  split_ifs with hno hon hrx
  · obtain ⟨rfl, rfl⟩ := hno
    refine hgives rfl fun hm => ?_
    by_contra hsilent
    exact hslip ⟨hm, hsilent, rfl⟩
  · subst hon
    have hfree : inhibited = false := Bool.eq_false_iff.mpr fun h => hno ⟨rfl, h⟩
    subst hfree
    exact .of_keyed rfl (.inl hpathManual) rfl rfl fun hr => hpathRx.trans (h.refusal hr)
  · have hoff : on = false := Bool.eq_false_iff.mpr hon
    subst hoff
    refine .of_released nofun hpathManual (not_transmits_of_rx (hpathRx.trans hrx)) (fun _ => rfl) ?_
    exact fun hr => Bool.noConfusion (hrx.symm.trans (h.refusal hr))
  · have hoff : on = false := Bool.eq_false_iff.mpr hon
    subst hoff
    refine hgives rfl fun hm => ?_
    by_contra hsilent
    exact hslip ⟨hm, hsilent, Bool.eq_false_iff.mpr hrx⟩

/-- **What a step keeps.** -/
theorem Ruled.step (h : Ruled k) (op : KeyOp) (hslip : ¬ k.Slips op) : Ruled (k.step op) := by
  cases op with
  | rxEnabled rxOn inhibited deaf => exact h.rxEnabled hslip
  | transmit w =>
    obtain ⟨hpathManual, hpathRx⟩ := path_transmit k w
    exact h.congr rfl hpathManual hpathRx rfl rfl rfl
  | tick now deaf => exact h.tick now deaf
  | setManualPtt on inhibited => exact h.setManualPtt hslip
  | flush => exact .of_released nofun rfl hslip (fun _ => rfl) h.refusal
  | startAvailable =>
    have hptt : k.ptt = false := Bool.eq_false_iff.mpr hslip
    have hmanual : k.manualPtt = false :=
      Bool.eq_false_iff.mpr fun hm => Bool.noConfusion (hptt.symm.trans (h.manual hm))
    have hsilent : ¬ k.Transmits := fun ht => Bool.noConfusion (hptt.symm.trans (h.keyed ht))
    exact .of_released (fun hon => absurd hon hslip) hmanual hsilent (fun _ => hptt) h.refusal
  | pull => exact h.congr rfl rfl rfl rfl rfl rfl
  | setPttLeadMs ms => exact h.congr rfl rfl rfl rfl rfl rfl
  | setPttTailMs ms => exact h.congr rfl rfl rfl rfl rfl rfl
  | setAudioDevice latencyMs => exact h.congr rfl rfl rfl rfl rfl rfl

/-- Keyed, and nobody to release it. -/
theorem not_inOrder_of_abandoned (hptt : k.ptt = true) (hmanual : k.manualPtt = false)
    (hsilent : ¬ k.Transmits) (htail : k.pttTailDeadlineMs = 0) : ¬ InOrder k := by
  intro h
  rcases h.held hptt with hold | hold | hold
  · exact Bool.noConfusion (hmanual.symm.trans hold)
  · exact hsilent hold
  · rw [htail] at hold
    exact absurd hold (by decide)

/-- A slip shows at once. -/
theorem not_inOrder_of_slips (h : Ruled k) {op : KeyOp} (hslip : k.Slips op) :
    ¬ InOrder (k.step op) := by
  cases op with
  | rxEnabled rxOn inhibited deaf =>
    obtain ⟨rfl, hrx, hmanual, hptt, htail, hwrap⟩ := hslip
    have hsame : true ≠ k.smRxEnabled := fun he => Bool.noConfusion (he.trans hrx)
    obtain ⟨hpathManual, hpathRx⟩ := path_rxEnabled k hsame inhibited
    change ¬ InOrder (k.rxEnabled true inhibited deaf)
    rw [Keying.rxEnabled, if_neg hsame, if_neg (Bool.eq_false_iff.mp hmanual), if_pos rfl,
      if_pos htail]
    exact not_inOrder_of_abandoned hptt (hpathManual.trans hmanual) (not_transmits_of_rx hpathRx)
      hwrap
  | setManualPtt on inhibited =>
    obtain ⟨hm, hsilent, hgiven⟩ := hslip
    obtain ⟨hpathManual, hpathRx⟩ := path_setManualPtt k on inhibited
    have hleft : k.setManualPtt on inhibited =
        { k with toTxPath := k.toTxPath.setManualPtt on inhibited } ∧ (on && !inhibited) = false := by
      unfold Keying.setManualPtt
      cases on with
      | true =>
        have hno : inhibited = true := hgiven
        subst hno
        exact ⟨rfl, rfl⟩
      | false =>
        have hrx : k.smRxEnabled = false := hgiven
        rw [hrx]
        exact ⟨rfl, rfl⟩
    change ¬ InOrder (k.setManualPtt on inhibited)
    rw [hleft.1]
    refine not_inOrder_of_abandoned (h.manual hm) (hpathManual.trans hleft.2) ?_ (h.tail (.inl hm))
    exact fun ht => hsilent ⟨hpathRx.symm.trans ht.1, ht.2⟩
  | flush => exact fun hnext => Bool.noConfusion (hnext.keyed hslip)
  | startAvailable => exact fun hnext => Bool.noConfusion (hslip.symm.trans (hnext.halfDuplex rfl))
  | _ => exact hslip.elim

/-- **The keying of the radio.** Along a run of callbacks, clock ticks and operator requests, the
radio is keyed only for the operator, for a state machine that transmits or for a running tail,
always for a state machine that transmits and was not refused, and never while the demodulator is
on, if and only if no step of it slips. -/
theorem keying_iff (ops : List KeyOp) :
    Machine.AllStates step InOrder {} ops ↔ Machine.AllSteps step (fun k op => ¬ k.Slips op) {} ops := by
  have hstart : Ruled {} :=
    .of_released nofun rfl (not_transmits_of_rx rfl) (fun _ => rfl) nofun
  have hbad : ∀ k op, Ruled k → ¬ ¬ Slips k op → ¬ InOrder (k.step op) :=
    fun _ _ h hslip => not_inOrder_of_slips h (not_not.mp hslip)
  exact Machine.allStates_iff_allSteps (fun _ op h => h.step op) (fun _ h => h.toInOrder) hbad hstart

end Keying

end OpenALE
