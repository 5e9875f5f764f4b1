import OpenALE.Properties.Bystander

/-!
# A group call and the members it reaches

The leading call writes the members of a group one behind the other, each under the preamble that
alternates with the word before it: a member behind a single word of `TO` is named by `REP`.

Results:
* `any_groupFrame`: what a station heeds of the frame of a group call.
* `entersHandshake_iff`: a station that waits is called by the first word it heeds.
* `group_call_reaches_iff`: the call reaches a station exactly when a member like it is named by
  `TO`.
-/

namespace OpenALE

/-! ## The members a group call names by `TO` -/

/-- The calling frame of a group call. -/
def groupFrame (members : List Str) (caller : Str) (scanChannels : UInt32) (isReject : Bool) :
    List ALEWord :=
  scanningCallGroup members scanChannels ++ leadingCallGroup members ++ conclusion caller isReject

/-- The members that the leading call names by `TO`: the first one, and those behind a member of
more than three characters. -/
def calledByTo : Bool → List Str → List Str
  | _, [] => []
  | anew, a :: as => (if anew then [a] else []) ++ calledByTo (decide (3 < a.length)) as

theorem PlainAddress.group {addr : Str} (h : PlainAddress addr) : GroupAddress addr := by
  refine ⟨?_, h.le_fifteen, h.basic38, h.no_filler⟩
  rintro rfl
  exact absurd h.three_le (by decide)

/-- The first three characters of an address are an address. -/
theorem PlainAddress.take_three {addr : Str} (h : PlainAddress addr) :
    (addr.take 3).length = 3 ∧ PlainAddress (addr.take 3) := by
  have hlen : (addr.take 3).length = 3 := by
    rw [List.length_take]
    have := h.three_le
    omega
  exact ⟨hlen, {
    three_le := hlen.ge
    le_fifteen := by omega
    basic38 := fun c hc => h.basic38 c (List.mem_of_mem_take hc)
    no_filler := fun hc => h.no_filler (List.mem_of_mem_take hc) }⟩

theorem isAllcallAddress_eq_false {addr self : Str} (h : '@' ∉ addr) :
    isAllcallAddress addr self = false := by
  unfold isAllcallAddress
  split
  · exact absurd List.mem_cons_self h
  · rfl

/-- A station heeds the anchor word of an address that begins like its own. -/
theorem heeds_encodeFirst {addr self : Str} (h : PlainAddress addr) :
    heeds self (encodeFirst addr .to) = (addr.take 3 == self.take 3) := by
  obtain ⟨htype, haddr⟩ := anchor_spec h.group (t := .to) (by decide)
  obtain ⟨hlen, hshort⟩ := h.take_three
  have hne : (addr.take 3 != []) = true := by
    rw [bne_iff_ne]
    intro hnil
    rw [hnil] at hlen
    cases hlen
  have hfirst : isAllcallAddress (addr.take 3) self = false :=
    isAllcallAddress_eq_false hshort.no_filler
  have hprefix : (addr.take 3).isPrefixOf self = (addr.take 3 == self.take 3) := by
    rw [Bool.eq_iff_iff, List.isPrefixOf_iff_prefix, beq_iff_eq, List.prefix_iff_eq_take, hlen]
  rw [heeds, htype, haddr, hfirst, hne, hprefix, Bool.false_or, Bool.true_and]
  rfl

/-- Of the words of an address at most the anchor is heeded. -/
theorem any_encode {addr self : Str} (h : PlainAddress addr)
    {t : PreambleType} (ht : t = .to ∨ t = .rep) :
    (encode addr t).any (heeds self) = (t == .to && addr.take 3 == self.take 3) := by
  have hunknown : t ≠ .unknown := by rcases ht with rfl | rfl <;> decide
  have hext : (encodeExt (chunk addr).tail).any (heeds self) = false := by
    rw [List.any_eq_false]
    intro w hw hheeds
    have hto : w.type = .to := by
      rw [heeds, Bool.and_eq_true] at hheeds
      exact beq_iff_eq.mp hheeds.1
    have htypes := FrameValidator.types_encode (a := addr) h.basic38 hunknown
    rw [encode_cons] at htypes
    have hmem : w.type ∈ extTypes := by
      refine List.mem_of_mem_take (i := (chunk addr).length - 1) ?_
      rw [← show types (encodeExt (chunk addr).tail) = _ from (List.cons.inj htypes).2]
      exact List.mem_map_of_mem hw
    rw [hto] at hmem
    revert hmem
    decide
  rw [encode_cons, List.any_cons, hext, Bool.or_false]
  rcases ht with rfl | rfl
  · rw [heeds_encodeFirst h]
    rfl
  · rw [heeds, (anchor_spec h.group (t := .rep) (by decide)).1]
    rfl

/-- What a station heeds of the words of a group. -/
theorem any_encodeGroupFrom {self : Str} :
    ∀ {members : List Str}, (∀ a ∈ members, PlainAddress a) → ∀ l : PreambleType,
      (encodeGroupFrom .to l members).any (heeds self) =
        (calledByTo (l != .to) members).any fun a => a.take 3 == self.take 3
  | [], _, _ => rfl
  | a :: as, h, l => by
    obtain ⟨ha, has⟩ := List.forall_mem_cons.mp h
    have hanchor : (if l = .to then PreambleType.rep else .to) = .to ∨
        (if l = .to then PreambleType.rep else .to) = .rep ∧ l = .to := by
      split <;> simp [*]
    have hlast : (FrameValidator.Reconstruction.lastTypeOf a != .to) = decide (3 < a.length) := by
      have hlen := FrameValidator.length_chunk a
      unfold FrameValidator.Reconstruction.lastTypeOf
      split
      · rw [decide_eq_false (by omega)]
        rfl
      · rw [decide_eq_true (by omega)]
        rfl
    simp only [encodeGroupFrom, calledByTo]
    rw [List.any_append, List.any_append, any_encode ha (hanchor.imp_right And.left),
      FrameValidator.Reconstruction.lastNonRep_encode hanchor, any_encodeGroupFrom has, hlast]
    congr 1
    by_cases hl : l = .to
    · rw [hl]
      rfl
    · rw [if_neg hl, if_pos (bne_iff_ne.mpr hl)]
      simp

/-! ## The scanning call -/

/-- The first word of a member as the scanning call keeps it. -/
theorem cstr_encodeFirst {addr : Str} (h : PlainAddress addr) :
    cstr (encodeFirst addr .to).address = addr.take 3 := by
  obtain ⟨hlen, hshort⟩ := h.take_three
  have haddr : (encodeFirst addr .to).address = addr.take 3 := by
    rw [encodeFirst, headD_chunk h.toStationAddress]
    exact (makeWord_chunk (by decide) hlen hshort.basic38).2.1
  rw [haddr, cstr, List.takeWhile_eq_self_iff]
  intro c hc
  rw [bne_iff_ne]
  rintro rfl
  exact absurd (hshort.basic38 _ hc) (by decide)

/-- The first words keep their first one. -/
theorem head_uniqueFirst : ∀ (members acc : List Str), acc ≠ [] →
    (uniqueFirst acc members).headD [] = acc.headD []
  | [], _, _ => rfl
  | m :: ms, acc, hacc => by
    have hkept : ∀ fw : Str, (if fw ∈ acc then acc else acc ++ [fw]) ≠ [] ∧
        (if fw ∈ acc then acc else acc ++ [fw]).headD [] = acc.headD [] := by
      intro fw
      obtain ⟨x, xs, rfl⟩ := List.exists_cons_of_ne_nil hacc
      split
      · exact ⟨List.cons_ne_nil _ _, rfl⟩
      · exact ⟨List.cons_ne_nil _ _, rfl⟩
    obtain ⟨hne, hhead⟩ := hkept (cstr (encodeFirst m .to).address)
    unfold uniqueFirst
    dsimp only
    generalize (if cstr (encodeFirst m .to).address ∈ acc then acc
      else acc ++ [cstr (encodeFirst m .to).address]) = acc' at hne hhead ⊢
    split
    · exact hhead
    · exact (head_uniqueFirst ms acc' hne).trans hhead

/-- A station that heeds the scanning call of a group begins like the first member. -/
theorem any_scanningCallGroup {self : Str} {members : List Str}
    (h : ∀ a ∈ members, PlainAddress a) {n : UInt32}
    (hany : (scanningCallGroup members n).any (heeds self) = true) :
    (calledByTo true members).any (fun a => a.take 3 == self.take 3) = true := by
  cases members with
  | nil =>
    unfold scanningCallGroup at hany
    rw [if_pos (Or.inr rfl)] at hany
    cases hany
  | cons a as =>
    have ha := h a List.mem_cons_self
    have hfirst : (uniqueFirst [] (a :: as)).headD [] = a.take 3 := by
      unfold uniqueFirst
      dsimp only
      rw [cstr_encodeFirst ha, if_neg List.not_mem_nil, if_neg (by simp)]
      exact head_uniqueFirst as _ (List.cons_ne_nil _ _)
    unfold scanningCallGroup at hany
    split at hany
    · cases hany
    dsimp only at hany
    split at hany
    · obtain ⟨w, hw, hheeds⟩ := List.any_eq_true.mp hany
      rw [CallOnAir.scanningCall_eq, hfirst] at hw
      rw [List.eq_of_mem_replicate hw, heeds_encodeFirst ha.take_three.2, List.take_take] at hheeds
      rw [calledByTo, if_pos rfl, List.any_append]
      simp only [List.any_cons, List.any_nil, Bool.or_false]
      rw [show a.take (min 3 3) = a.take 3 from rfl] at hheeds
      rw [hheeds, Bool.true_or]
    · obtain ⟨w, hw, hheeds⟩ := List.any_eq_true.mp hany
      obtain ⟨i, -, rfl⟩ := List.mem_map.mp hw
      have hchars : ∀ b ∈ uniqueFirst [] (a :: as), Basic38 b :=
        uniqueFirst_chars (by simp) fun b hb => (h b hb).basic38
      have hkind : (if i % 2 = 0 then PreambleType.thru else .rep) ≠ .unknown := by
        split <;> decide
      have htype := FrameValidator.type_encodeFirst
        (getD_chars hchars (i % (uniqueFirst [] (a :: as)).length)) hkind
      rw [heeds, htype] at hheeds
      split at hheeds <;> cases hheeds

/-- **Who heeds the frame of a group call.** -/
theorem any_groupFrame {self caller : Str} {members : List Str}
    (h : ∀ a ∈ members, PlainAddress a) (hcaller : Basic38 caller) (n : UInt32) (isReject : Bool) :
    (groupFrame members caller n isReject).any (heeds self) =
      (calledByTo true members).any fun a => a.take 3 == self.take 3 := by
  have hconclusion : (conclusion caller isReject).any (heeds self) = false := by
    rw [List.any_eq_false]
    intro w hw hheeds
    rw [heeds, Bool.and_eq_true] at hheeds
    exact not_to_of_mem_conclusion hcaller hw (beq_iff_eq.mp hheeds.1)
  have hleading : (leadingCallGroup members).any (heeds self) =
      (calledByTo true members).any fun a => a.take 3 == self.take 3 := by
    rw [leadingCallGroup, sentTwice, List.any_append, Bool.or_self, FrameValidator.encodeGroup_eq,
      any_encodeGroupFrom h]
    rfl
  rw [groupFrame, List.any_append, List.any_append, hconclusion, hleading, Bool.or_false]
  cases hscan : (scanningCallGroup members n).any (heeds self) with
  | false => rw [Bool.false_or]
  | true => rw [any_scanningCallGroup h hscan, Bool.true_or]

namespace SM

variable {s : SM} {op : Op} {ops : List Op}

/-- The frame of a group call without message and reports is its calling frame. -/
theorem frameWords_group (s : SM) (members : List Str)
    (hmessage : s.pend.pendingMessage.content = []) (hcmd : s.pend.pendingLqaCmdSet = false)
    (hreport : s.pend.pendingLqaReportSet = false) :
    s.frameWords (.group members) =
      groupFrame members s.selfAddress s.targetScanChannels false := by
  simp [frameWords, callWords, groupFrame, hmessage, hcmd, hreport]

/-! ## A station that waits for a call -/

/-- The station is in `HANDSHAKE` after a part of the run. -/
def EntersHandshake (s : SM) (ops : List Op) : Prop :=
  ∃ pre post, ops = pre ++ post ∧ (Machine.run step s pre).currentState = .handshake

/-- What is heeded by a station that waits is a call. -/
theorem heeded_step (hplace : s.currentState = .idle ∨ s.currentState = .scanning) {w : ALEWord}
    (hvalid : w.valid = true) (hheeds : heeds s.selfAddress w = true) :
    (s.step (.processReceivedWord w)).currentState = .handshake := by
  have hrole : detectTrigger (s.classify w) = .event .callDetected := by
    rw [heeds, Bool.and_eq_true, Bool.or_eq_true] at hheeds
    obtain ⟨hto, hcall⟩ := hheeds
    have hlbt : s.lbtActive = false := by
      unfold lbtActive
      rcases hplace with hs | hs <;> rw [hs] <;> rfl
    have hcollecting : s.collecting = false := by
      unfold collecting
      rcases hplace with hs | hs <;> rw [hs] <;> rfl
    unfold classify
    dsimp only
    rw [hlbt, hcollecting, Bool.false_and, if_neg Bool.false_ne_true, if_neg Bool.false_ne_true,
      hto, Bool.true_and, Bool.true_and]
    split
    · rfl
    · rename_i hall
      have hself := hcall.resolve_left hall
      rw [if_pos hself]
      rfl
  have htrigger : s.trigger (.processReceivedWord w) = .event .callDetected := by
    unfold trigger
    dsimp only
    rw [if_neg (not_not.mpr hvalid)]
    unfold reactTrigger
    rcases hplace with hs | hs <;> rw [hs] <;> exact hrole
  have hcontrol := step_control s (.processReceivedWord w)
  rw [htrigger] at hcontrol
  have hstate : (s.step (.processReceivedWord w)).currentState =
      (s.control.event s.moreSweep .callDetected).state := congrArg Control.state hcontrol
  rw [hstate]
  unfold Control.event
  rcases hplace with hs | hs <;> rw [show s.control.state = _ from hs] <;>
    exact Control.goTo_state _ _

/-- A station that waits goes on waiting. -/
theorem waiting_step (hplace : s.currentState = .idle ∨ s.currentState = .scanning)
    (hop : overhears s.selfAddress op = true) :
    (s.step op).currentState = .idle ∨ (s.step op).currentState = .scanning := by
  have hne : s.currentState ≠ .sounding := by rcases hplace with hs | hs <;> rw [hs] <;> decide
  have hbystander : s.Bystander := ⟨hplace.imp_right Or.inl, fun hs => absurd hs hne⟩
  rcases bystander_trigger hbystander hop with hnone | ⟨hs, -⟩
  · have hcontrol := step_control s op
    rw [hnone] at hcontrol
    have hstate : (s.step op).currentState = s.currentState := congrArg Control.state hcontrol
    rw [hstate]
    exact hplace
  · exact absurd hs hne

/-- **A station that waits** is called by the first word it heeds. -/
theorem entersHandshake_iff (hplace : s.currentState = .idle ∨ s.currentState = .scanning)
    (hops : ∀ op ∈ ops, (∃ now env, op = .update now env) ∨
      ∃ w, op = .processReceivedWord w ∧ w.valid = true) :
    s.EntersHandshake ops ↔ ∃ op ∈ ops, overhears s.selfAddress op = false := by
  induction ops generalizing s with
  | nil =>
    refine ⟨?_, fun ⟨_, hop, _⟩ => absurd hop List.not_mem_nil⟩
    rintro ⟨pre, post, hsplit, hstate⟩
    rw [(List.nil_eq_append_iff.mp hsplit).1] at hstate
    change s.currentState = .handshake at hstate
    rcases hplace with hs | hs <;> cases hs.symm.trans hstate
  | cons op ops ih =>
    obtain ⟨hop, hrest⟩ := List.forall_mem_cons.mp hops
    cases hover : overhears s.selfAddress op with
    | false =>
      refine ⟨fun _ => ⟨op, List.mem_cons_self, hover⟩, fun _ => ⟨[op], ops, rfl, ?_⟩⟩
      rcases hop with ⟨now, env, rfl⟩ | ⟨w, rfl, hvalid⟩
      · cases hover
      · exact heeded_step hplace hvalid (by simpa [overhears] using hover)
    | true =>
      have ih := ih (waiting_step hplace hover) hrest
      rw [selfAddress_step hover] at ih
      have hlater : s.EntersHandshake (op :: ops) ↔ (s.step op).EntersHandshake ops := by
        constructor
        · rintro ⟨pre, post, hsplit, hstate⟩
          cases pre with
          | nil =>
            change s.currentState = .handshake at hstate
            rcases hplace with hs | hs <;> cases hs.symm.trans hstate
          | cons o pre =>
            obtain ⟨hhead, htail⟩ := List.cons.inj hsplit
            rw [← hhead] at hstate
            exact ⟨pre, post, htail, hstate⟩
        · rintro ⟨pre, post, rfl, hstate⟩
          exact ⟨op :: pre, post, rfl, hstate⟩
      rw [hlater, ih]
      constructor
      · rintro ⟨o, ho, hover'⟩
        exact ⟨o, List.mem_cons_of_mem _ ho, hover'⟩
      · rintro ⟨o, ho, hover'⟩
        rcases List.mem_cons.mp ho with rfl | ho
        · rw [hover] at hover'
          cases hover'
        · exact ⟨o, ho, hover'⟩

/-- **A group call reaches a station** exactly when a member that begins like it is named by `TO`. -/
theorem group_call_reaches_iff (s : SM) (members : List Str) (caller : Str) (n : UInt32)
    (isReject : Bool) (ops : List Op) (hmembers : ∀ a ∈ members, PlainAddress a)
    (hcaller : StationAddress caller)
    (hplace : s.currentState = .idle ∨ s.currentState = .scanning)
    (hops : HearsFrame (groupFrame members caller n isReject) ops) :
    s.EntersHandshake ops ↔
      ∃ a ∈ calledByTo true members, a.take 3 = s.selfAddress.take 3 := by
  have hany : (groupFrame members caller n isReject).any (heeds s.selfAddress) =
      (calledByTo true members).any fun a => a.take 3 == s.selfAddress.take 3 :=
    any_groupFrame hmembers hcaller.basic38 n isReject
  rw [entersHandshake_iff hplace hops.only]
  have hwords : (∃ op ∈ ops, overhears s.selfAddress op = false) ↔
      (groupFrame members caller n isReject).any (heeds s.selfAddress) = true := by
    rw [List.any_eq_true]
    constructor
    · rintro ⟨op, hop, hover⟩
      rcases hops.only op hop with ⟨now, env, rfl⟩ | ⟨w, rfl, -⟩
      · cases hover
      · have hmem : w.bare ∈ (groupFrame members caller n isReject).map ALEWord.bare := by
          rw [← hops.heard]
          exact List.mem_filterMap.mpr ⟨_, hop, rfl⟩
        obtain ⟨v, hv, hvw⟩ := List.mem_map.mp hmem
        refine ⟨v, hv, ?_⟩
        rw [heeds_of_bare hvw]
        simpa [overhears] using hover
    · rintro ⟨v, hv, hheeds⟩
      have hmem : v.bare ∈ (groupFrame members caller n isReject).map ALEWord.bare :=
        List.mem_map_of_mem hv
      rw [← hops.heard] at hmem
      obtain ⟨op, hop, hword⟩ := List.mem_filterMap.mp hmem
      refine ⟨op, hop, ?_⟩
      rcases hops.only op hop with ⟨now, env, rfl⟩ | ⟨w, rfl, -⟩
      · cases hword
      · have hbare : w.bare = v.bare := Option.some.inj hword
        rw [overhears, heeds_of_bare hbare, hheeds]
        rfl
  rw [hwords, hany, List.any_eq_true]
  simp only [beq_iff_eq]

/-- The members of a group of two. -/
def twoMembers : List Str := ["SAM".toList, "XYZ".toList]

/-- The other way round, with a long name in front. -/
def longFirst : List Str := ["XYZABC".toList, "SAM".toList]

/-- A member behind a long name is reached. -/
theorem group_call_reaches_second :
    (idleStation "SAM".toList).EntersHandshake (paced (groupFrame longFirst "JOE".toList 2 false)) :=
  (group_call_reaches_iff (idleStation "SAM".toList) longFirst "JOE".toList 2 false
    (paced (groupFrame longFirst "JOE".toList 2 false)) (by decide +kernel) (by decide +kernel)
    (Or.inl (by decide +kernel)) (hears_paced _)).mpr (by decide +kernel)

/-- **A member behind a name of three characters** is named by `REP`, which nobody heeds. -/
theorem group_call_misses_second :
    (∀ a ∈ twoMembers, PlainAddress a) ∧ twoMembers.Nodup ∧
      (idleStation "XYZ".toList).selfAddress ∈ twoMembers ∧
      (idleStation "XYZ".toList).currentState = .idle ∧
      HearsFrame (groupFrame twoMembers "JOE".toList 2 false)
        (paced (groupFrame twoMembers "JOE".toList 2 false)) ∧
      ¬ (idleStation "XYZ".toList).EntersHandshake
        (paced (groupFrame twoMembers "JOE".toList 2 false)) := by
  refine ⟨by decide +kernel, by decide +kernel, by decide +kernel, by decide +kernel,
    hears_paced _, ?_⟩
  rw [entersHandshake_iff (Or.inl (by decide +kernel)) (hears_paced _).only]
  decide +kernel

end SM

end OpenALE
