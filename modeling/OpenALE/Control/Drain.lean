import OpenALE.Control.Burst

/-!
# Bursts: completed words and requests

What a completed word and every other operation do to the machine as its transmitter sees it, and
what they signal to the antenna.

Results:
* `done_moves`: a completed word is one `SM.DoneMove`.
* `exec_others`: any operation that is neither a tick nor a completed word is one `SM.OtherMove`.
-/

namespace OpenALE

/-- The phase of the calling frame after this one. -/
def CallingPhase.next : CallingPhase → CallingPhase
  | .leadingCall => .conclusion
  | _ => .leadingCall

/-- A burst of a mode that ends on the last word counted. -/
def Mode.counted : Mode → Bool
  | .ack | .response | .orderwire | .termination | .sounding | .broadcast => true
  | _ => false

namespace SM

/-- The words `on_word_complete` counts in a phase of the calling frame. -/
def slots (s : SM) : CallingPhase → Nat
  | .scanningCall => (s.targetScanChannels * 2).toNat
  | .groupScanningCall => s.seqs.groupScanSeq.length
  | .leadingCall => s.tlcSlots
  | _ => s.seqs.conclusionSeq.length

/-- A completed word. -/
inductive DoneMove (s : SM) : TxView → List Signal → Prop where
  | idle (n c : Nat) (hn : n ≤ s.tx.wordsPending)
      (hm : s.mode = .listen ∨ s.mode = .tuning ∨ s.tx.wordsPending = 0) :
      DoneMove s { s.txView with wordsPending := n, cycles := c } []
  | stray (hb : s.mode ≠ .broadcast) (hs : s.mode ≠ .sounding) (hl : s.mode ≠ .orderwire)
      (ht : s.mode ≠ .termination) (ha : s.allcallBroadcasting = true) :
      DoneMove s { s.txView with
        wordsPending := s.tx.wordsPending - 1, allcall := decide (s.tx.wordsPending - 1 ≠ 0) }
        (if s.tx.wordsPending - 1 = 0 then [.rx true] else [])
  | word (c : Nat) (hm : s.mode.counted = true) (hw : 1 < s.tx.wordsPending) :
      DoneMove s { s.txView with wordsPending := s.tx.wordsPending - 1, cycles := c } []
  | slot (p : CallingPhase) (hm : s.mode = .call p) (hw : 0 < s.tx.wordsPending)
      (hs : s.calling.callCyclesInPhase + 1 < s.slots p) :
      DoneMove s { s.txView with
        wordsPending := s.tx.wordsPending - 1, cycles := s.calling.callCyclesInPhase + 1 } []
  | advance (p : CallingPhase) (hm : s.mode = .call p) (hp : p ≠ .conclusion)
      (hw : 0 < s.tx.wordsPending) (hs : s.slots p ≤ s.calling.callCyclesInPhase + 1) :
      DoneMove s { s.txView with
        mode := .call p.next, wordsPending := s.tx.wordsPending - 1, cycles := 0, awaits := false } []
  | listens (hm : s.mode = .call .conclusion) (hw : 0 < s.tx.wordsPending)
      (hs : s.seqs.conclusionSeq.length ≤ s.calling.callCyclesInPhase + 1) :
      DoneMove s { s.txView with
        mode := .listen, wordsPending := s.tx.wordsPending - 1, cycles := 0, awaits := true }
        [.rx true]
  | transition (t : ALEState) (c : Nat) (ht : t ≠ s.currentState) (hw : s.tx.wordsPending ≤ 1)
      (hm : s.mode = .termination ∨ (s.mode = .ack ∨ s.mode = .response) ∧ s.tx.wordsPending = 1) :
      DoneMove s (TxView.go { s.txView with cycles := c } t) [.rx true]
  | orderwireDone (hm : s.mode = .orderwire) (hw : s.tx.wordsPending ≤ 1) :
      DoneMove s { s.txView with mode := .listen, transmitting := false, wordsPending := 0 }
        [.rx true]
  | opens (hm : s.mode = .sounding ∨ s.mode = .response) (hw : s.tx.wordsPending ≤ 1) :
      DoneMove s { s.txView with mode := .listen, wordsPending := 0, awaits := true } [.rx true]
  | broadcastDone (hm : s.mode = .broadcast) (hw : s.tx.wordsPending ≤ 1) :
      DoneMove s { s.txView with mode := .listen, allcall := false, wordsPending := 0 } [.rx true]

/-- `s'` is `s` with a word completed, to the transmitter. -/
def Completes (s s' : SM) : Prop := ∃ v sig, s.Yields s' v sig ∧ s.DoneMove v sig

/-- A completed word hands nothing over. -/
theorem DoneMove.quiet {s : SM} {v : TxView} {sig : List Signal} (hm : s.DoneMove v sig) :
    sends sig = 0 := by
  cases hm with
  | stray => split <;> rfl
  | _ => rfl

section Done

variable {s : SM}

theorem completeTermination_done (ho : s.control.Outside) (hc : s.currentState = .linked)
    (ht : s.link.linkedTerminating = true) : s.Completes s.completeTermination := by
  have hm : s.mode = .termination := by
    rw [mode_linked hc, ht]
    rfl
  unfold completeTermination
  dsimp only
  split
  · rename_i hw
    have hw' : s.tx.wordsPending - 1 = 0 := hw
    obtain ⟨hne, hy⟩ := giveUp_yields (e := .linkTerminated) (p := { s.popWord with
      link := { s.link with linkedTerminating := false }
      tx := { s.popWord.tx with txDrainStartMs := 0 } }) ho (Or.inr ⟨hc, Or.inr rfl⟩)
    exact ⟨_, _, ⟨hy.view, hy.out⟩, .transition s.preLinkState s.calling.callCyclesInPhase hne (by omega) (Or.inl hm)⟩
  · rename_i hw
    have hw' : s.tx.wordsPending - 1 ≠ 0 := hw
    refine ⟨_, _, ⟨?_, (List.append_nil _).symm⟩, .word s.calling.callCyclesInPhase
      (by rw [hm]; rfl) (by omega)⟩
    unfold txView
    rw [mode_linked (by exact hc), mode_linked hc]
    rfl

theorem amdHandOff_notes (s : SM) : s.amdHandOff.txView = s.txView ∧
    signals s.amdHandOff.out = signals s.out := by
  unfold amdHandOff
  split
  · exact ⟨rfl, rfl⟩
  · exact ⟨rfl, rfl⟩
  · exact ⟨rfl, signals_operator _ _⟩
  · exact ⟨rfl, rfl⟩

theorem completeOrderwire_done (hc : s.currentState = .linked)
    (ht : s.link.linkedTerminating = false) (hx : s.ow.orderwireTransmitting = true) :
    s.Completes s.completeOrderwire := by
  have hm : s.mode = .orderwire := by
    rw [mode_linked hc, ht, hx]
    rfl
  unfold completeOrderwire
  dsimp only
  split
  · rename_i hw
    have hw' : s.tx.wordsPending - 1 = 0 := hw
    obtain ⟨hv, hout⟩ := amdHandOff_notes (rxEnabled { s.popWord with
      ow := { s.ow with orderwireTransmitting := false }
      tx := { s.popWord.tx with txDrainStartMs := 0 } } true)
    refine ⟨_, _, ⟨hv.trans ?_, hout.trans (signals_append _ _)⟩, .orderwireDone hm (by omega)⟩
    unfold txView
    rw [mode_linked (by exact hc), awaits_linked (by exact hc), awaits_linked hc]
    show TxView.mk (if s.link.linkedTerminating then _ else if false then _ else _) _
      (s.tx.wordsPending - 1) _ _ _ _ = _
    rw [ht, hw']
    rfl
  · rename_i hw
    have hw' : s.tx.wordsPending - 1 ≠ 0 := hw
    refine ⟨_, _, ⟨?_, (List.append_nil _).symm⟩, .word s.calling.callCyclesInPhase
      (by rw [hm]; rfl) (by omega)⟩
    unfold txView
    rw [mode_linked (by exact hc), mode_linked hc]
    rfl

theorem popWord_txView (s : SM) :
    s.popWord.txView = { s.txView with wordsPending := s.tx.wordsPending - 1 } := rfl

theorem completeSounding_done (hc : s.currentState = .sounding) :
    s.Completes s.completeSounding := by
  have hpop := popWord_txView s
  unfold completeSounding
  dsimp only
  by_cases hp : s.snd.soundingPhase = .transmitting
  · have hm : s.mode = .sounding := by
      rw [mode_sounding hc, hp]
      rfl
    split
    · rename_i hw
      have hw' : s.tx.wordsPending - 1 = 0 := hw.1
      refine ⟨_, _, ⟨?_, signals_append _ _⟩, .opens (Or.inl hm) (by omega)⟩
      unfold openSoundingWindow txView
      rw [mode_sounding (by exact hc), awaits_sounding (by exact hc)]
      show TxView.mk _ _ (s.tx.wordsPending - 1) _ _ _ _ = _
      rw [hw']
      rfl
    · rename_i hw
      have hw' : s.tx.wordsPending - 1 ≠ 0 := fun h => hw ⟨h, hp⟩
      exact ⟨_, _, ⟨hpop, (List.append_nil _).symm⟩, .word _ (by rw [hm]; rfl) (by omega)⟩
  · have hm : s.mode = .listen := by
      rw [mode_sounding hc, if_neg hp]
    rw [if_neg (fun h => hp h.2)]
    exact ⟨_, _, ⟨hpop, (List.append_nil _).symm⟩, .idle _ _ (Nat.sub_le _ _) (Or.inl hm)⟩

theorem completeAllcall_done (ha : s.allcallBroadcasting = true)
    (ht : ¬ (s.currentState = .linked ∧ s.link.linkedTerminating = true))
    (hx : ¬ (s.currentState = .linked ∧ s.ow.orderwireTransmitting = true))
    (hs : s.currentState ≠ .sounding) : s.Completes s.completeAllcall := by
  have hmode : s.mode ≠ .sounding ∧ s.mode ≠ .orderwire ∧ s.mode ≠ .termination := by
    unfold mode
    cases hc : s.currentState with
    | idle | scanning => simp [ha]
    | calling => cases s.calling.callingPhase <;> simp
    | handshake => by_cases hp : s.hs.handshakePhase = .sendingResponse <;> simp [hp]
    | linked =>
      dsimp only
      rw [if_neg fun h => ht ⟨hc, h⟩, if_neg fun h => hx ⟨hc, h⟩]
      simp
    | sounding => exact absurd hc hs
    | error => simp
  obtain ⟨hsnd, how, hterm⟩ := hmode
  unfold completeAllcall
  dsimp only
  by_cases hw : s.tx.wordsPending - 1 = 0
  · rw [if_pos (by exact hw)]
    have hv : SM.txView (rxEnabled { s.popWord with
        allcallBroadcasting := false, tx := { s.popWord.tx with txDrainStartMs := 0 } } true) =
        { s.txView with
          mode := if s.mode = .broadcast then .listen else s.mode
          wordsPending := s.tx.wordsPending - 1, allcall := false } := by
      unfold txView
      exact congrArg (fun m => TxView.mk m _ _ _ _ _ _) (mode_allcallOff ha _ _)
    by_cases hm : s.mode = .broadcast
    · refine ⟨_, _, ⟨hv.trans ?_, signals_append _ _⟩, .broadcastDone hm (by omega)⟩
      rw [if_pos hm, hw]
    · refine ⟨_, _, ⟨hv.trans ?_, ?_⟩, .stray hm hsnd how hterm ha⟩
      · rw [if_neg hm, hw]
        rfl
      · rw [if_pos hw]
        exact signals_append _ _
  · rw [if_neg (by exact hw)]
    by_cases hm : s.mode = .broadcast
    · exact ⟨_, _, ⟨popWord_txView s, (List.append_nil _).symm⟩,
        .word _ (by rw [hm]; rfl) (by omega)⟩
    · refine ⟨_, _, ⟨(popWord_txView s).trans ?_, ?_⟩, .stray hm hsnd how hterm ha⟩
      · rw [decide_eq_true hw, ← ha]
        rfl
      · rw [if_neg hw]
        exact (List.append_nil _).symm

theorem countCycle_txView (hc : s.currentState = .calling) :
    s.popWord.countCycle.txView = { s.txView with
      wordsPending := s.tx.wordsPending - 1, cycles := s.calling.callCyclesInPhase + 1 } := by
  unfold txView
  rw [mode_calling (by exact hc), mode_calling hc, awaits_calling (by exact hc), awaits_calling hc]
  rfl

theorem advanceAfter_done {p q : CallingPhase} {n : Nat} (hc : s.currentState = .calling)
    (hw : 0 < s.tx.wordsPending) (hm : s.mode = .call p) (hp : p ≠ .conclusion)
    (hn : s.slots p = n) (hq : q = p.next) (hcall : q = .leadingCall ∨ q = .conclusion) :
    s.Completes (s.popWord.countCycle.advanceAfter n q) := by
  have hv := countCycle_txView hc
  unfold advanceAfter
  split
  · rename_i hs
    have hs' : n ≤ s.calling.callCyclesInPhase + 1 := hs
    refine ⟨_, _, ⟨?_, (List.append_nil _).symm⟩, .advance p hm hp hw (by omega)⟩
    unfold txView
    rw [mode_calling (by exact hc), awaits_calling (by exact hc), ← hq]
    rcases hcall with rfl | rfl <;> rfl
  · rename_i hs
    have hs' : ¬ n ≤ s.calling.callCyclesInPhase + 1 := hs
    exact ⟨_, _, ⟨hv, (List.append_nil _).symm⟩, .slot p hm hw (by omega)⟩

theorem completeConclusion_done (hc : s.currentState = .calling) (hw : 0 < s.tx.wordsPending)
    (hm : s.mode = .call .conclusion) : s.Completes s.popWord.countCycle.completeConclusion := by
  have hv := countCycle_txView hc
  unfold completeConclusion
  dsimp only
  split
  · rename_i hs
    have hs' : s.seqs.conclusionSeq.length ≤ s.calling.callCyclesInPhase + 1 := hs
    refine ⟨_, _, ⟨?_, signals_append _ _⟩, .listens hm hw hs'⟩
    unfold txView
    rw [mode_calling (by exact hc), awaits_calling (by exact hc)]
    rfl
  · rename_i hs
    have hs' : ¬ s.seqs.conclusionSeq.length ≤ s.calling.callCyclesInPhase + 1 := hs
    refine ⟨_, _, ⟨hv, (List.append_nil _).symm⟩, .slot .conclusion hm hw ?_⟩
    show _ < s.seqs.conclusionSeq.length
    omega

theorem completeAck_done (ho : s.control.Outside) (hc : s.currentState = .calling)
    (hw : 0 < s.tx.wordsPending) (hm : s.mode = .ack) :
    s.Completes s.popWord.countCycle.completeAck := by
  have hv := countCycle_txView hc
  unfold completeAck
  split
  · rename_i hw0
    have hw' : s.tx.wordsPending - 1 = 0 := hw0
    split
    · obtain ⟨hne, hy⟩ := giveUp_yields (e := .amdDeclinedLink)
        (p := s.popWord.countCycle.operator .amdSentNoLink) ho (Or.inl ⟨Or.inl hc, Or.inr rfl⟩)
      refine ⟨_, _, ⟨hy.view, hy.out.trans ?_⟩, .transition s.preLinkState
        (s.calling.callCyclesInPhase + 1) hne (by omega) (Or.inr ⟨Or.inl hm, by omega⟩)⟩
      rw [signals_operator]
      rfl
    · have hy := handshakeComplete_yields (p := s.popWord.countCycle.operator .linkEstablished)
        (Or.inl hc)
      refine ⟨_, _, ⟨hy.view, hy.out.trans ?_⟩, .transition .linked
        (s.calling.callCyclesInPhase + 1) (by rw [hc]; decide) (by omega)
        (Or.inr ⟨Or.inl hm, by omega⟩)⟩
      rw [signals_operator]
      rfl
  · rename_i hw0
    have hw' : s.tx.wordsPending - 1 ≠ 0 := hw0
    exact ⟨_, _, ⟨hv, (List.append_nil _).symm⟩, .word _ (by rw [hm]; rfl) (by omega)⟩

theorem completeCalling_done (ho : s.control.Outside) (hc : s.currentState = .calling) :
    s.Completes s.completeCalling := by
  unfold completeCalling
  by_cases hw : s.tx.wordsPending = 0
  · rw [if_pos hw]
    exact ⟨_, _, .refl s, .idle _ _ (Nat.le_refl _) (Or.inr (Or.inr hw))⟩
  rw [if_neg hw]
  have hw' : 0 < s.tx.wordsPending := Nat.pos_of_ne_zero hw
  have hm := mode_calling hc
  have hidle : s.mode = .listen ∨ s.mode = .tuning → s.Completes s.popWord.countCycle := fun h =>
    ⟨_, _, ⟨countCycle_txView hc, (List.append_nil _).symm⟩,
      .idle _ _ (Nat.sub_le _ _) (h.imp_right Or.inl)⟩
  unfold completeCallingPhase
  rw [show s.popWord.countCycle.calling.callingPhase = s.calling.callingPhase from rfl]
  cases hp : s.calling.callingPhase <;> rw [hp] at hm <;> dsimp only at hm ⊢
  case lbt | listening => exact hidle (Or.inl hm)
  case tuning => exact hidle (Or.inr hm)
  case scanningCall => exact advanceAfter_done hc hw' hm (by decide) rfl rfl (Or.inl rfl)
  case groupScanningCall => exact advanceAfter_done hc hw' hm (by decide) rfl rfl (Or.inl rfl)
  case leadingCall => exact advanceAfter_done hc hw' hm (by decide) rfl rfl (Or.inr rfl)
  case conclusion => exact completeConclusion_done hc hw' hm
  case sendingAck => exact completeAck_done ho hc hw' hm

theorem completeResponse_done (ho : s.control.Outside) (hc : s.currentState = .handshake)
    (hp : s.hs.handshakePhase = .sendingResponse) : s.Completes s.completeResponse := by
  have hm : s.mode = .response := by
    rw [mode_handshake hc, if_pos hp]
  have hv : s.popWord.countHsWord.txView =
      { s.txView with wordsPending := s.tx.wordsPending - 1 } := rfl
  unfold completeResponse
  by_cases hw : s.tx.wordsPending = 0
  · rw [if_pos hw]
    exact ⟨_, _, .refl s, .idle _ _ (Nat.le_refl _) (Or.inr (Or.inr hw))⟩
  rw [if_neg hw]
  dsimp only
  split
  · rename_i hw0
    have hw' : s.tx.wordsPending - 1 = 0 := hw0
    unfold responseDone
    dsimp only
    split
    · obtain ⟨hne, hy⟩ := giveUp_yields (e := .linkTimeout) (p := { s.popWord.countHsWord with
        hs := { s.popWord.countHsWord.hs with pendingReject := false } }) ho
        (Or.inl ⟨Or.inr hc, Or.inl rfl⟩)
      exact ⟨_, _, ⟨hy.view, hy.out⟩, .transition s.preLinkState s.calling.callCyclesInPhase hne
        (by omega) (Or.inr ⟨Or.inr hm, by omega⟩)⟩
    · refine ⟨_, _, ⟨?_, signals_append _ _⟩, .opens (Or.inr hm) (by omega)⟩
      unfold txView
      rw [mode_handshake (by exact hc), awaits_handshake (by exact hc)]
      show TxView.mk _ _ (s.tx.wordsPending - 1) _ _ _ _ = _
      rw [hw']
      rfl
  · rename_i hw0
    have hw' : s.tx.wordsPending - 1 ≠ 0 := hw0
    exact ⟨_, _, ⟨hv, (List.append_nil _).symm⟩, .word _ (by rw [hm]; rfl) (by omega)⟩

/-- **A completed word is one of the moves `DoneMove`.** -/
theorem done_moves (ho : s.control.Outside) : s.Completes s.onWordComplete := by
  unfold onWordComplete
  by_cases h1 : s.currentState = .linked ∧ s.link.linkedTerminating = true
  · rw [if_pos h1]
    exact completeTermination_done ho h1.1 h1.2
  rw [if_neg h1]
  by_cases h2 : s.currentState = .linked ∧ s.ow.orderwireTransmitting = true
  · rw [if_pos h2]
    have ht : s.link.linkedTerminating = false := by
      cases h : s.link.linkedTerminating with
      | false => rfl
      | true => exact absurd ⟨h2.1, h⟩ h1
    exact completeOrderwire_done h2.1 ht h2.2
  rw [if_neg h2]
  by_cases h3 : s.currentState = .sounding
  · rw [if_pos h3]
    exact completeSounding_done h3
  rw [if_neg h3]
  by_cases h4 : s.allcallBroadcasting = true
  · rw [if_pos h4]
    exact completeAllcall_done h4 h1 h2 h3
  rw [if_neg h4]
  by_cases h5 : s.currentState = .calling
  · rw [if_pos h5]
    exact completeCalling_done ho h5
  rw [if_neg h5]
  by_cases h6 : s.currentState = .handshake ∧ s.hs.handshakePhase = .sendingResponse
  · rw [if_pos h6]
    exact completeResponse_done ho h6.1 h6.2
  rw [if_neg h6]
  refine ⟨_, _, .refl s, .idle _ _ (Nat.le_refl _) (Or.inl ?_)⟩
  unfold mode
  cases hc : s.currentState with
  | idle | scanning => simp [h4]
  | calling => exact absurd hc h5
  | handshake => exact if_neg fun hp => h6 ⟨hc, hp⟩
  | linked =>
    dsimp only
    rw [if_neg fun ht => h1 ⟨hc, ht⟩, if_neg fun hx => h2 ⟨hc, hx⟩]
  | sounding => exact absurd hc h3
  | error => rfl

end Done

/-! ## Requests and received words -/

/-- `emergency_manual_control` sends a termination frame before it leaves the link. -/
def emergencySends (s : SM) : Prop :=
  s.currentState = .linked ∧ ¬ s.link.linkedTerminating ∧ s.link.activeCallTo ≠ [] ∧
    s.selfAddress ≠ []

instance (s : SM) : Decidable s.emergencySends := by unfold emergencySends; infer_instance

/-- An operation other than a tick or a completed word. -/
inductive OtherMove (s : SM) (op : Op) : TxView → List Signal → Prop where
  | stay : OtherMove s op s.txView []
  | transition (t : ALEState) (n : Nat) (ht : t ≠ s.currentState)
      (hn : n ≠ 0 → op = .emergencyManualControl ∧ s.emergencySends) :
      OtherMove s op (s.txView.go t) (List.replicate n .send ++ [.rx true])
  | sweep (hc : s.currentState = .sounding) (he : s.trigger op = .event .soundingComplete)
      (hs : s.moreSweep = true) :
      OtherMove s op { s.txView with mode := .listen, awaits := false } [.rx true]
  | broadcast (n : Nat) (hn : 0 < n) (ha : s.allcallBroadcasting = false) (hm : s.mode = .listen)
      (hc : s.currentState = .idle ∨ s.currentState = .scanning) :
      OtherMove s op { s.txView with
        mode := .broadcast, allcall := true, wordsPending := s.tx.wordsPending + n }
        (.rx false :: List.replicate n .send)
  | terminate (n : Nat) (hn : 0 < n) (hop : op = .terminateLink) (hc : s.currentState = .linked) :
      OtherMove s op { s.txView with mode := .termination, wordsPending := s.tx.wordsPending + n }
        (List.replicate n .send ++ [.rx false])

/-- `s'` is `s` after the operation `op`, to the transmitter. -/
def Others (s : SM) (op : Op) (s' : SM) : Prop := ∃ v sig, s.Yields s' v sig ∧ s.OtherMove op v sig

section Other

variable {s : SM} {op : Op}

theorem Others.stay {s' : SM} (hv : s'.txView = s.txView) (ho : signals s'.out = signals s.out) :
    s.Others op s' := ⟨_, _, .quiet hv ho, .stay⟩

/-- A reaction is a transition, a step of the sweep, or nothing to the transmitter. -/
theorem Reacts.others {s' : SM} (ho : s.control.Outside) (h : s.Reacts (s.trigger op) s') :
    s.Others op s' := by
  generalize hg : s.trigger op = g at h
  match g, h with
  | .none, h => exact .stay h.view h.out
  | .event e, ⟨p, hn, hm, hp⟩ =>
    have hst : p.currentState = s.currentState := congrArg Control.state hn.control
    rw [hp]
    rcases event_yields p (by rw [hn.control]; exact ho) e with hy | ⟨t, ht, hy⟩ | ⟨hc, he, hs, hy⟩
    · exact ⟨_, _, ⟨hy.view.trans hn.view, by rw [hy.out, hn.out]⟩, .stay⟩
    · rw [hst] at ht
      rw [hn.view] at hy
      exact ⟨_, _, ⟨hy.view, by rw [hy.out, hn.out]; rfl⟩,
        .transition t 0 ht (fun hn => absurd rfl hn)⟩
    · rw [hn.view] at hy
      rw [hst] at hc
      rw [he] at hg
      exact ⟨_, _, ⟨hy.view, by rw [hy.out, hn.out]⟩, .sweep hc hg ((hm he).symm.trans hs)⟩

theorem length_allcallWords_pos (s : SM) (a t : Str) (l : Bool) :
    0 < (s.allcallWords a t l).length := by
  have h := length_leadingCall_pos globalAllCallAddr
  unfold allcallWords
  simp only [List.length_append]
  omega

theorem sendAllcallBroadcast_others (s : SM) (a t : Str) (l : Bool) :
    s.Others op (s.sendAllcallBroadcast a t l).1 := by
  unfold sendAllcallBroadcast
  split
  · exact .stay rfl rfl
  split
  · exact .stay rfl rfl
  split
  · exact .stay rfl rfl
  split
  · exact .stay rfl rfl
  rename_i h1 h2 _ _
  have hc := (available_iff s).mp (not_not.mp h1)
  have ha : s.allcallBroadcasting = false := by simpa using h2
  have hm : s.mode = .listen := by
    unfold mode
    rcases hc with h | h <;> (rw [h, ha]; rfl)
  have hy := burst_yields (({ s with allcallBroadcasting := true } : SM).rxEnabled false)
    (s.allcallWords a t l)
  refine ⟨_, _, ⟨(hy _).view.trans ?_, (hy _).out.trans ?_⟩,
    .broadcast _ (length_allcallWords_pos s a t l) ha hm hc⟩
  · unfold txView mode awaits
    rw [show (({ s with allcallBroadcasting := true } : SM).rxEnabled false).currentState =
      s.currentState from rfl]
    rcases hc with h | h <;> (rw [h]; rfl)
  · show signals (s.out ++ [_]) ++ _ = _
    rw [signals_append, List.append_assoc]
    rfl

theorem terminateLink_others (s : SM) : s.Others .terminateLink s.terminateLink := by
  by_cases hc : s.currentState = .linked
  · rw [terminateLink_eq hc]
    refine ⟨_, _, ⟨?_, ?_⟩,
      .terminate _ (length_termination_pos s.link.activeCallTo s.selfAddress) rfl hc⟩
    · unfold txView
      rw [mode_linked (by exact hc)]
      rfl
    · show signals (s.out ++ _ ++ [_]) = _
      rw [signals_append, signals_append, signals_transmit, List.append_assoc]
      rfl
  · unfold terminateLink
    rw [if_pos hc]
    exact .stay rfl rfl

theorem emergencyManualControl_others (s : SM) :
    s.Others .emergencyManualControl s.emergencyManualControl := by
  have hgo : ∀ (p : SM) (n : Nat), p.currentState = s.currentState →
      (∀ t, p.txView.go t = s.txView.go t) → p.currentState ≠ .idle →
      signals p.out = signals s.out ++ List.replicate n .send →
      (n ≠ 0 → s.emergencySends) → s.Others .emergencyManualControl (p.transitionTo .idle).1 := by
    intro p n hst hv hne hout hn
    have hy := transitionTo_yields hne
    refine ⟨_, _, ⟨hy.view.trans (hv _), ?_⟩,
      .transition .idle n (by rw [← hst]; exact hne.symm) (fun h => ⟨rfl, hn h⟩)⟩
    rw [hy.out, hout, List.append_assoc]
  unfold emergencyManualControl
  dsimp only
  have hop : signals (s.out ++ [.operator .emergencyActive]) = signals s.out :=
    signals_operator s .emergencyActive
  by_cases hs : s.emergencySends
  · rw [if_pos (by exact hs), transmitWords_eq]
    refine hgo _ (termination s.link.activeCallTo s.selfAddress).length rfl (fun t => rfl) ?_ ?_
      (fun _ => hs)
    · show s.currentState ≠ .idle
      rw [hs.1]
      decide
    · show signals ((s.out ++ [_]) ++ _) = _
      rw [signals_append, hop, signals_transmit]
      rfl
  · rw [if_neg (by exact hs)]
    by_cases hi : s.currentState = .idle
    · rw [transitionTo_self (by exact hi)]
      exact .stay rfl hop
    · exact hgo _ 0 rfl (fun t => rfl) hi (by rw [List.replicate_zero, List.append_nil]; exact hop)
        (fun h => absurd rfl h)

/-- A tick or a completed word. -/
def timed : Op → Bool
  | .update _ _ | .onWordComplete => true
  | _ => false

theorem set_txView (s : SM) (x : Setting) :
    (s.set x).txView = s.txView ∧ signals (s.set x).out = signals s.out := by
  cases x <;> first | exact ⟨rfl, rfl⟩ | (unfold set setSelfAddress; dsimp only; split <;> exact ⟨rfl, rfl⟩)

/-- **Any other operation is one of the moves `OtherMove`.** -/
theorem exec_others (ho : s.control.Outside) (hop : timed op = false) : s.Others op (s.exec op) := by
  cases op with
  | update _ _ => exact absurd hop Bool.noConfusion
  | onWordComplete => exact absurd hop Bool.noConfusion
  | processEvent e => exact Reacts.others ho (reacts_event e (.refl s) rfl)
  | processReceivedWord w => exact Reacts.others ho (processReceivedWord_reacts s w)
  | initiateCall t => exact Reacts.others ho (initiateCall_reacts s t)
  | initiateNetCall a => exact Reacts.others ho (initiateNetCall_reacts s a)
  | initiateGroupCall ms => exact Reacts.others ho (initiateGroupCall_reacts s ms)
  | respondToCall => exact Reacts.others ho (respondToCall_reacts s)
  | sendSounding => exact Reacts.others ho (sendSounding_reacts s)
  | sendSoundingSweep chs => exact Reacts.others ho (sendSoundingSweep_reacts s chs)
  | sendAllcallBroadcast a t l => exact sendAllcallBroadcast_others s a t l
  | terminateLink => exact terminateLink_others s
  | emergencyManualControl => exact emergencyManualControl_others s
  | triggerLinkedOrderwire ws d =>
    show s.Others _ (s.triggerLinkedOrderwire ws d)
    unfold triggerLinkedOrderwire
    split <;> exact .stay rfl rfl
  | sendLinkedAmd ws p n =>
    show s.Others _ (s.sendLinkedAmd ws p n)
    unfold sendLinkedAmd
    split <;> exact .stay rfl rfl
  | respondToLinkedAmd a ws =>
    show s.Others _ (s.respondToLinkedAmd a ws)
    unfold respondToLinkedAmd
    split
    · exact .stay rfl rfl
    · split <;> exact .stay rfl rfl
  | onLinkActivity =>
    show s.Others _ s.onLinkActivity
    unfold onLinkActivity
    split <;> exact .stay rfl rfl
  | resetLinkIdleTimer =>
    show s.Others _ s.resetLinkIdleTimer
    unfold resetLinkIdleTimer
    split <;> exact .stay rfl rfl
  | updateLinkQuality lq =>
    obtain ⟨o, ho⟩ := updateLqa_eq s lq
    have hs := updateLqa_signals s lq
    refine .stay ?_ hs
    show (s.updateLqa lq).txView = _
    rw [ho]
    rfl
  | beginScanPause t =>
    show s.Others _ (s.beginScanPause t)
    unfold beginScanPause
    split <;> exact .stay rfl rfl
  | extendPeerWaitWindow d => exact .stay rfl rfl
  | set x => exact .stay (set_txView s x).1 (set_txView s x).2

end Other

end SM

end OpenALE
