import OpenALE.Properties.Senders
import OpenALE.Properties.TxQueue

/-!
# A station that overhears a call to another one

A `TO` word names a station by three characters, and a station in `IDLE`, `SCANNING` or the
listening window of a sounding takes it for a call of its own when its address begins with them.

Results:
* `bystander_step`: the words of a call to somebody else, and ticks, leave the station where it was.
* `overheard`: such a call is not answered.
-/

namespace OpenALE

/-! ## The calling frame -/

/-- The station takes a word for a call of its own, or for an AllCall. -/
def heeds (self : Str) (w : ALEWord) : Bool :=
  w.type == .to && (isAllcallAddress (trimAleAddress w.address) self ||
    (trimAleAddress w.address != [] && (trimAleAddress w.address).isPrefixOf self))

theorem heeds_of_bare {self : Str} {w v : ALEWord} (h : w.bare = v.bare) :
    heeds self w = heeds self v := by
  have htype : w.bare.type = v.bare.type := congrArg ALEWord.type h
  have haddr : w.bare.address = v.bare.address := congrArg ALEWord.address h
  change w.type = v.type at htype
  change w.address = v.address at haddr
  rw [heeds, heeds, htype, haddr]

/-- An individual calling frame without a message. -/
def callingFrame (dest caller : Str) (scanChannels : UInt32) (isReject : Bool) : List ALEWord :=
  scanningCall dest scanChannels ++ leadingCall dest ++ conclusion caller isReject

/-- The words of an address, the first one apart, are `DATA` and `REP`. -/
theorem not_to_of_mem_encode {addr : Str} (h : Basic38 addr) {t : PreambleType} (ht : t ≠ .unknown)
    {w : ALEWord} (hw : w ∈ encode addr t) : w = encodeFirst addr t ∨ w.type ≠ .to := by
  have htypes := FrameValidator.types_encode h ht
  rw [encode_cons] at hw htypes
  rcases List.mem_cons.mp hw with rfl | hw
  · exact Or.inl rfl
  · right
    have htail : types (extWords addr) = extTypes.take ((chunk addr).length - 1) :=
      (List.cons.inj htypes).2
    have hmem : w.type ∈ extTypes := by
      refine List.mem_of_mem_take (i := (chunk addr).length - 1) ?_
      rw [← htail]
      exact List.mem_map_of_mem hw
    intro hto
    rw [hto] at hmem
    revert hmem
    decide

/-- A conclusion calls nobody. -/
theorem not_to_of_mem_conclusion {addr : Str} (h : Basic38 addr) {isReject : Bool} {w : ALEWord}
    (hw : w ∈ conclusion addr isReject) : w.type ≠ .to := by
  have hkind : ∀ t : PreambleType, t = .tis ∨ t = .twas → w ∈ encode addr t → w.type ≠ .to := by
    intro t ht hw
    have hne : t ≠ .unknown := by rcases ht with rfl | rfl <;> decide
    rcases not_to_of_mem_encode h hne hw with rfl | hw
    · rw [FrameValidator.type_encodeFirst h hne]
      rcases ht with rfl | rfl <;> decide
    · exact hw
  unfold conclusion at hw
  split at hw
  · exact hkind _ (Or.inr rfl) hw
  · exact hkind _ (Or.inl rfl) hw

/-- The `TO` words of a calling frame are all the same one. -/
theorem to_of_mem_callingFrame {dest caller : Str} (hdest : Basic38 dest) (hcaller : Basic38 caller)
    {n : UInt32} {isReject : Bool} {w : ALEWord} (hw : w ∈ callingFrame dest caller n isReject) :
    w = encodeFirst dest .to ∨ w.type ≠ .to := by
  rw [callingFrame, CallOnAir.scanningCall_eq] at hw
  rcases List.mem_append.mp hw with hw | hw
  · rcases List.mem_append.mp hw with hw | hw
    · exact Or.inl (List.eq_of_mem_replicate hw)
    · rw [leadingCall, sentTwice, List.mem_append, or_self] at hw
      exact not_to_of_mem_encode hdest (by decide) hw
  · exact Or.inr (not_to_of_mem_conclusion hcaller hw)

namespace SM

variable {s p : SM} {op : Op} {ops : List Op}

/-! ## One operation -/

/-- A station that waits for a call or sounds, and goes back to waiting from there. -/
structure Bystander (s : SM) : Prop where
  place : s.currentState = .idle ∨ s.currentState = .scanning ∨ s.currentState = .sounding
  previous : s.currentState = .sounding → s.previousState = .idle ∨ s.previousState = .scanning

/-- A tick, or a word the station does not heed. -/
def overhears (self : Str) : Op → Bool
  | .update _ _ => true
  | .processReceivedWord w => !heeds self w
  | _ => false

/-- What is not heeded is not taken for a call. -/
theorem detect_classify {w : ALEWord} (h : heeds s.selfAddress w = false) :
    detectTrigger (s.classify w) = .none := by
  have hall : ¬ ((w.type == .to && isAllcallAddress (trimAleAddress w.address) s.selfAddress) =
      true) := by
    intro hto
    rw [Bool.and_eq_true] at hto
    rw [heeds, hto.1, hto.2] at h
    cases h
  have hself : ¬ ((w.type == .to && trimAleAddress w.address != [] &&
      (trimAleAddress w.address).isPrefixOf s.selfAddress) = true) := by
    intro hto
    rw [Bool.and_eq_true, Bool.and_eq_true] at hto
    rw [heeds, hto.1.1, hto.1.2, hto.2, Bool.and_self, Bool.or_true] at h
    cases h
  unfold classify
  dsimp only
  rw [if_neg hall, if_neg hself]
  repeat' split
  all_goals rfl

/-- A bystander ends its sounding at most. -/
theorem bystander_trigger (h : s.Bystander) (hop : overhears s.selfAddress op = true) :
    s.trigger op = .none ∨
      s.currentState = .sounding ∧ s.trigger op = .event .soundingComplete := by
  have hraise : ∀ c [Decidable c], raiseIf c .soundingComplete = .none ∨
      ALEState.sounding = .sounding ∧ raiseIf c .soundingComplete = .event .soundingComplete := by
    intro c _
    by_cases hc : c
    · exact Or.inr ⟨rfl, raiseIf_pos hc _⟩
    · exact Or.inl (raiseIf_neg hc _)
  cases op with
  | update now env =>
    unfold trigger
    dsimp only
    split
    · exact Or.inl rfl
    · unfold tickTrigger
      have hlink : checkLinkTimeout { s with currentTimeMs := now } = false := by
        unfold checkLinkTimeout
        dsimp only
        rcases h.place with hs | hs | hs <;> rw [hs]
      rw [hlink, if_neg Bool.false_ne_true]
      split
      · exact Or.inl rfl
      · unfold handleTrigger
        dsimp only
        rcases h.place with hs | hs | hs <;> rw [hs]
        · exact Or.inl rfl
        · exact Or.inl rfl
        · dsimp only
          unfold soundingTrigger
          split
          · split
            · exact Or.inr ⟨rfl, rfl⟩
            · exact hraise _
          · exact Or.inl rfl
          · exact hraise _
  | processReceivedWord w =>
    have hnot : heeds s.selfAddress w = false := by simpa [overhears] using hop
    unfold trigger
    dsimp only
    split
    · unfold invalidTrigger
      rcases h.place with hs | hs | hs <;> rw [hs]
      · exact Or.inl rfl
      · exact Or.inl rfl
      · exact hraise _
    · unfold reactTrigger
      rcases h.place with hs | hs | hs <;> rw [hs]
      · exact Or.inl (detect_classify hnot)
      · exact Or.inl (detect_classify hnot)
      · have hdetect := detect_classify hnot
        dsimp only
        split
        · exact Or.inr ⟨rfl, rfl⟩
        · split
          · exact Or.inl hdetect
          · exact Or.inl rfl
  | _ => cases hop

/-- **One operation** leaves a bystander one. -/
theorem bystander_step (h : s.Bystander) (hop : overhears s.selfAddress op = true) :
    (s.step op).Bystander := by
  have hcontrol := step_control s op
  have hstate : ∀ c : Control, (s.step op).control = c →
      (s.step op).currentState = c.state ∧ (s.step op).previousState = c.previous := by
    rintro _ rfl
    exact ⟨rfl, rfl⟩
  rcases bystander_trigger h hop with hnone | ⟨hs, hevent⟩
  · rw [hnone] at hcontrol
    obtain ⟨hc, hp⟩ := hstate _ hcontrol
    exact ⟨hc ▸ h.place, fun hs' => hp ▸ h.previous (hc.symm.trans hs')⟩
  · rw [hevent] at hcontrol
    have hback : s.control.fire s.moreSweep (.event .soundingComplete) =
        if s.moreSweep then s.control else s.control.goTo s.previousState := by
      change s.control.event s.moreSweep .soundingComplete = _
      unfold Control.event
      rw [show s.control.state = .sounding from hs]
      rfl
    rw [hback] at hcontrol
    cases hsweep : s.moreSweep with
    | true =>
      rw [hsweep, if_pos rfl] at hcontrol
      obtain ⟨hc, hp⟩ := hstate _ hcontrol
      exact ⟨hc ▸ h.place, fun hs' => hp ▸ h.previous (hc.symm.trans hs')⟩
    | false =>
      rw [hsweep, if_neg Bool.false_ne_true] at hcontrol
      obtain ⟨hc, -⟩ := hstate _ hcontrol
      rw [Control.goTo_state] at hc
      refine ⟨?_, ?_⟩
      · rw [hc]
        rcases h.previous hs with hp | hp
        · exact Or.inl hp
        · exact Or.inr (Or.inl hp)
      · intro hs'
        rw [hc] at hs'
        rcases h.previous hs with hp | hp <;> cases hp.symm.trans hs'

/-! ## What is handed over -/

/-- The words a run hands to the transmitter. -/
def handedOver (s : SM) : List Op → List ALEWord
  | [] => []
  | op :: ops => transmitted (s.step op).out ++ handedOver (s.step op) ops

/-- The words of a sounding name the station and call nobody. -/
theorem not_to_of_mem_soundingWords (h : Basic38 s.selfAddress) {w : ALEWord}
    (hw : w ∈ s.soundingWords) : w.type ≠ .to := by
  have hrepeated : ∀ n, w ∈ (List.replicate n
      (conclusion s.selfAddress s.snd.soundingUseTwas)).flatten → w.type ≠ .to := by
    intro n hw
    obtain ⟨ws, hws, hw⟩ := List.mem_flatten.mp hw
    rw [List.eq_of_mem_replicate hws] at hw
    exact not_to_of_mem_conclusion h hw
  unfold soundingWords at hw
  dsimp only at hw
  split at hw
  · rcases List.mem_append.mp hw with hw | hw
    · exact hrepeated _ hw
    · rw [List.mem_singleton.mp hw]
      exact fun hto => PreambleType.noConfusion hto
  · exact hrepeated _ hw

/-- A bystander hands over words of its sounding at most. -/
theorem handedOver_step (h : s.Bystander) (hself : Basic38 s.selfAddress)
    (hop : overhears s.selfAddress op = true) : ∀ w ∈ transmitted (s.step op).out, w.type ≠ .to := by
  cases op with
  | update now env =>
    have hburst : ∀ v ∈ (s.clearOut.clocked now).tickBurst env, v.type ≠ .to := by
      unfold tickBurst
      split
      · exact fun _ hv => absurd hv List.not_mem_nil
      split
      · exact fun _ hv => absurd hv List.not_mem_nil
      have hplace : (s.clearOut.clocked now).currentState = s.currentState := rfl
      rw [hplace]
      rcases h.place with hs | hs | hs <;> rw [hs]
      · exact fun _ hv => absurd hv List.not_mem_nil
      · exact fun _ hv => absurd hv List.not_mem_nil
      · dsimp only
        split
        · exact fun _ hv => not_to_of_mem_soundingWords (s := s.clearOut.clocked now) hself hv
        · exact fun _ hv => absurd hv List.not_mem_nil
    intro w hw
    change w ∈ transmitted (s.clearOut.update now env).out at hw
    unfold update at hw
    split at hw
    · exact absurd hw List.not_mem_nil
    · have hands : transmitted ((s.clearOut.clocked now).tick env).out =
          [] ++ ((s.clearOut.clocked now).tickBurst env).map
            (·.stamp (s.clearOut.clocked now).currentTimeMs) := tick_burst _ env
      change w ∈ transmitted ((s.clearOut.clocked now).tick env).out at hw
      rw [hands, List.nil_append] at hw
      obtain ⟨v, hv, rfl⟩ := List.mem_map.mp hw
      exact hburst v hv
  | processReceivedWord w =>
    have hcount := (processReceivedWord_reacts s.clearOut w).sends_eq
    rw [sends_signals, sends_signals] at hcount
    have hnone : transmitted (s.clearOut.processReceivedWord w).out = [] :=
      List.length_eq_zero_iff.mp hcount
    change ∀ v ∈ transmitted (s.clearOut.processReceivedWord w).out, _
    rw [hnone]
    exact fun _ hv => absurd hv List.not_mem_nil
  | _ => cases hop

theorem selfAddress_step (hop : overhears s.selfAddress op = true) :
    (s.step op).selfAddress = s.selfAddress := by
  have hprepares : prepares op = false := by
    cases op with
    | update now env => rfl
    | processReceivedWord w => rfl
    | _ => cases hop
  exact (exec_held s.clearOut hprepares).selfAddress

/-- **A run of ticks and words that are not heeded.** -/
theorem bystander_run (h : s.Bystander) (hself : Basic38 s.selfAddress)
    (hops : ∀ op ∈ ops, overhears s.selfAddress op = true) :
    Machine.AllStates step Bystander s ops ∧ ∀ w ∈ s.handedOver ops, w.type ≠ .to := by
  induction ops generalizing s with
  | nil => exact ⟨h, fun _ hw => absurd hw List.not_mem_nil⟩
  | cons op ops ih =>
    obtain ⟨hop, hrest⟩ := List.forall_mem_cons.mp hops
    have haddr := selfAddress_step hop
    obtain ⟨hstates, hwords⟩ := ih (bystander_step h hop) (haddr ▸ hself) (haddr ▸ hrest)
    refine ⟨⟨h, hstates⟩, fun w hw => ?_⟩
    rcases List.mem_append.mp hw with hw | hw
    · exact handedOver_step h hself hop w hw
    · exact hwords w hw

/-! ## A call to another station -/

/-- What is heard is a frame, word by word and with ticks in between. -/
structure HearsFrame (frame : List ALEWord) (ops : List Op) : Prop where
  only : ∀ op ∈ ops, (∃ now env, op = .update now env) ∨
    ∃ w, op = .processReceivedWord w ∧ w.valid = true
  heard : (ops.filterMap fun op => match op with
    | .processReceivedWord w => some w.bare
    | _ => none) = frame.map ALEWord.bare

/-- The station is not one whose name begins like the called one's, and a sounding it may be in was
begun by itself. -/
structure NotConcerned (s : SM) (dest : Str) : Prop where
  name : heeds s.selfAddress (encodeFirst dest .to) = false
  sounding : s.currentState = .sounding → s.previousState = .idle ∨ s.previousState = .scanning

/-- Nothing is answered. -/
structure KeepsOut (s : SM) (ops : List Op) : Prop where
  states : Machine.AllStates step
    (fun p => p.currentState ≠ .handshake ∧ p.currentState ≠ .linked) s ops
  words : ∀ w ∈ s.handedOver ops, w.type ≠ .to

/-- **A call to another station** is not answered. -/
theorem overheard (s : SM) (dest caller : Str) (n : UInt32) (isReject : Bool) (ops : List Op)
    (hself : StationAddress s.selfAddress) (hdest : StationAddress dest)
    (hcaller : StationAddress caller)
    (hplace : s.currentState = .idle ∨ s.currentState = .scanning ∨
      s.currentState = .sounding ∧ s.snd.soundingPhase = .listening)
    (hops : HearsFrame (callingFrame dest caller n isReject) ops) (h : s.NotConcerned dest) : s.KeepsOut ops := by
  have hbystander : s.Bystander := ⟨hplace.imp_right (Or.imp_right And.left), h.sounding⟩
  have hoverhears : ∀ op ∈ ops, overhears s.selfAddress op = true := by
    intro op hop
    rcases hops.only op hop with ⟨now, env, rfl⟩ | ⟨w, rfl, -⟩
    · rfl
    · have hmem : w.bare ∈ (callingFrame dest caller n isReject).map ALEWord.bare := by
        rw [← hops.heard]
        exact List.mem_filterMap.mpr ⟨_, hop, rfl⟩
      obtain ⟨v, hv, hvw⟩ := List.mem_map.mp hmem
      have hnot : heeds s.selfAddress v = false := by
        rcases to_of_mem_callingFrame hdest.basic38 hcaller.basic38 hv with rfl | hne
        · exact h.name
        · rw [heeds, beq_eq_false_iff_ne.mpr hne, Bool.false_and]
      rw [overhears, heeds_of_bare hvw.symm, hnot]
      rfl
  obtain ⟨hstates, hwords⟩ := bystander_run hbystander hself.basic38 hoverhears
  refine ⟨hstates.mono fun p hp => ?_, hwords⟩
  rcases hp.place with hs | hs | hs <;> rw [hs] <;> decide

/-- A station in `IDLE`. -/
def idleStation (address : Str) : SM := Machine.run step init [.set (.selfAddress address)]

/-- A frame at the pace of the air, and the ticks after it. -/
def paced (frame : List ALEWord) : List Op :=
  frame.zipIdx.flatMap (fun x =>
      [.update (392 * (UInt32.ofNat x.2 + 1)) {}, .processReceivedWord { x.1 with valid := true }]) ++
    (List.range 12).map fun i => .update (2000 + 400 * UInt32.ofNat i) {}

theorem hears_paced (frame : List ALEWord) : HearsFrame frame (paced frame) where
  only := by
    intro op hop
    rcases List.mem_append.mp hop with hop | hop
    · obtain ⟨x, -, hop⟩ := List.mem_flatMap.mp hop
      rcases List.mem_cons.mp hop with rfl | hop
      · exact Or.inl ⟨_, _, rfl⟩
      · rw [List.mem_singleton.mp hop]
        exact Or.inr ⟨_, rfl, rfl⟩
    · obtain ⟨i, -, rfl⟩ := List.mem_map.mp hop
      exact Or.inl ⟨_, _, rfl⟩
  heard := by
    have hticks : ∀ is : List Nat, (is.map fun i => Op.update (2000 + 400 * UInt32.ofNat i) {}).filterMap
        (fun op => match op with
          | .processReceivedWord w => some w.bare
          | _ => none) = [] := by
      intro is
      induction is with
      | nil => rfl
      | cons i is ih => exact ih
    have hwords : ∀ (ws : List ALEWord) (k : Nat), ((ws.zipIdx k).flatMap fun x =>
        [Op.update (392 * (UInt32.ofNat x.2 + 1)) {},
          .processReceivedWord { x.1 with valid := true }]).filterMap
        (fun op => match op with
          | .processReceivedWord w => some w.bare
          | _ => none) = ws.map ALEWord.bare := by
      intro ws
      induction ws with
      | nil => exact fun _ => rfl
      | cons w ws ih => exact fun k => congrArg (w.bare :: ·) (ih (k + 1))
    rw [paced, List.filterMap_append, hticks, List.append_nil]
    exact hwords _ 0

/-- A station of another name. -/
theorem overheard_other :
    (idleStation "XYZABC".toList).KeepsOut
      (paced (callingFrame "ABCDEF".toList "SAM".toList 0 false)) :=
  overheard (idleStation "XYZABC".toList) "ABCDEF".toList "SAM".toList 0 false
    (paced (callingFrame "ABCDEF".toList "SAM".toList 0 false))
    (by decide +kernel) (by decide +kernel) (by decide +kernel) (Or.inl (by decide +kernel))
    (hears_paced _) ⟨by decide +kernel, fun hs => absurd hs (by decide +kernel)⟩

/-- **A station with the same first three characters** answers a call that is not for it. -/
theorem namesake_answers :
    StationAddress (idleStation "ABCXYZ".toList).selfAddress ∧ StationAddress "ABCDEF".toList ∧
      StationAddress "SAM".toList ∧ (idleStation "ABCXYZ".toList).currentState = .idle ∧
      HearsFrame (callingFrame "ABCDEF".toList "SAM".toList 0 false)
        (paced (callingFrame "ABCDEF".toList "SAM".toList 0 false)) ∧
      ((idleStation "ABCXYZ".toList).handedOver
          (paced (callingFrame "ABCDEF".toList "SAM".toList 0 false))).map
          (fun w => (w.type, w.address)) =
        [(.to, "SAM".toList), (.to, "SAM".toList), (.tis, "ABC".toList), (.data, "XYZ".toList)] :=
  ⟨by decide +kernel, by decide +kernel, by decide +kernel, by decide +kernel,
    hears_paced _, by decide +kernel⟩

end SM

end OpenALE
