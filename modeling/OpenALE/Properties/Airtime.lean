import OpenALE.Control.Broadcast

/-!
# The AllCall flag

While the flag is on, words of the broadcast are pending and its watchdog is armed; nothing else is
sent; and the flag falls, with the receiver opened, after the completions still due or after the
first tick past the deadline.

Results:
* `airtime_iff`: so it is exactly in the runs that do not change the state during a broadcast and do
  not start one at clock 0.
* `airtime_fail`: a `START_SCAN` during the broadcast strands the flag.
-/

namespace OpenALE

namespace SM

/-- A broadcast on the air has words pending and its watchdog armed. -/
def OnAir (s : SM) : Prop :=
  s.allcallBroadcasting = true → 0 < s.tx.wordsPending ∧ s.tx.txDrainStartMs ≠ 0

/-- A tick past the drain deadline. -/
def PastDeadline (s : SM) (op : Op) : Prop :=
  ∃ now env, op = .update now env ∧ now - s.currentTimeMs < 0x80000000 ∧
    s.tx.txDrainDeadlineMs ≤ now - s.tx.txDrainStartMs

/-- What a step does to a broadcast on the air. -/
structure Winds (s : SM) (op : Op) : Prop where
  sends : sends (signals (s.step op).out) = 0
  opens : (s.step op).allcallBroadcasting = false → .rx true ∈ signals (s.step op).out
  counts : (s.step op).allcallBroadcasting = true →
    (s.step op).tx.wordsPending + (if op = .onWordComplete then 1 else 0) = s.tx.wordsPending
  lapses : s.PastDeadline op → (s.step op).allcallBroadcasting = false

/-- From each state of the run with a broadcast on, as many completions as words are pending, or a
tick past the deadline, find it over. -/
def Lapses (as : List Op) : Prop :=
  ∀ pre post, as = pre ++ post →
    (Machine.run step init pre).tx.wordsPending ≤ post.count .onWordComplete ∨
      ¬ Machine.AllSteps step (fun s op => ¬ s.PastDeadline op) (Machine.run step init pre) post →
    ¬ Machine.AllStates step (fun s => s.allcallBroadcasting = true) (Machine.run step init pre) post

/-- The step changes the state under a broadcast, or starts one at clock 0, which the watchdog takes
for not armed. -/
def Strands (s : SM) (op : Op) : Prop :=
  s.allcallBroadcasting = true ∧ (s.step op).currentState ≠ s.currentState ∨
  s.currentTimeMs = 0 ∧ s.allcallBroadcasting = false ∧ s.available = true ∧
    ∃ a t l, op = .sendAllcallBroadcast a t l ∧ a ≠ [] ∧ encodeAmd t ≠ []

/-- **The invariant.** -/
structure Aired (s : SM) : Prop where
  outside : s.control.Outside
  onAir : s.OnAir
  home : s.allcallBroadcasting = true → s.currentState = .idle ∨ s.currentState = .scanning

section Step

variable {s : SM} {op : Op}

/-- The words of a broadcast that starts. -/
theorem sendAllcallBroadcast_eq {a t : Str} {l : Bool} (hav : s.available = true)
    (hf : s.allcallBroadcasting = false) (ha : a ≠ []) (ht : encodeAmd t ≠ []) :
    (s.sendAllcallBroadcast a t l).1.tx.wordsPending =
        s.tx.wordsPending + (s.allcallWords a t l).length ∧
      (s.sendAllcallBroadcast a t l).1.tx.txDrainStartMs = s.currentTimeMs ∧
      (s.sendAllcallBroadcast a t l).1.allcallBroadcasting = true ∧
      (s.sendAllcallBroadcast a t l).1.currentState = s.currentState := by
  have hn := length_allcallWords_pos s a t l
  have hpos : 0 < (SM.transmitWords (SM.rxEnabled { s with allcallBroadcasting := true } false)
      (s.allcallWords a t l)).tx.wordsPending := by
    rw [transmitWords_eq]
    show 0 < s.tx.wordsPending + (s.allcallWords a t l).length
    omega
  unfold sendAllcallBroadcast
  rw [if_neg (not_not.mpr hav), if_neg (by rw [hf]; exact Bool.false_ne_true), if_neg ha, if_neg ht]
  dsimp only
  unfold armDrain
  rw [if_pos hpos, transmitWords_eq]
  exact ⟨rfl, rfl, rfl, rfl⟩

/-- A refused broadcast changes nothing. -/
theorem sendAllcallBroadcast_refused {a t : Str} {l : Bool}
    (h : ¬ (s.available = true ∧ s.allcallBroadcasting = false ∧ a ≠ [] ∧ encodeAmd t ≠ [])) :
    (s.sendAllcallBroadcast a t l).1 = s := by
  unfold sendAllcallBroadcast
  repeat' split
  all_goals first | rfl | skip
  rename_i h1 h2 h3 h4
  exact absurd ⟨not_not.mp h1, Bool.not_eq_true _ |>.mp h2, h3, h4⟩ h

/-- One step under a broadcast that does not change the state. -/
theorem winds_step (h : s.Aired) (ha : s.allcallBroadcasting = true)
    (hc : (s.step op).currentState = s.currentState) : s.Winds op ∧ (s.step op).Aired := by
  obtain ⟨hw, hd⟩ := h.onAir ha
  have hout := outside_step h.outside op
  have hhome : (s.step op).currentState = .idle ∨ (s.step op).currentState = .scanning := by
    rw [hc]
    exact h.home ha
  cases exec_air (s := s.clearOut) (h.home ha) ha op with
  | stay hs hi =>
    have hflag : (s.step op).allcallBroadcasting = true := hs.allcall.trans ha
    have htx : (s.step op).tx = s.tx := hs.tx
    have hsig : signals (s.step op).out = [] := hs.out
    have hop : op ≠ .onWordComplete := by
      rintro rfl
      exact hi
    refine ⟨⟨by rw [hsig]; rfl, ?_, ?_, ?_⟩, hout, ?_, fun _ => hhome⟩
    · intro hf
      rw [hflag] at hf
      exact absurd hf.symm Bool.false_ne_true
    · intro _
      rw [htx, if_neg hop, Nat.add_zero]
    · rintro ⟨now, env, rfl, hnow, hlate⟩
      exfalso
      have hl : (s.clearOut.clocked now).checkLinkTimeout = false :=
        checkLinkTimeout_available (h.home ha)
      have hx : (s.clearOut.clocked now).drainExpired = true := by
        unfold drainExpired
        rw [Bool.and_eq_true, bne_iff_ne, decide_eq_true_eq]
        exact ⟨hd, hlate⟩
      have hi' : s.clearOut.allcallLost now = false := hi
      have hnow' : ¬ 0x80000000 ≤ now - s.clearOut.currentTimeMs := UInt32.not_le.mpr hnow
      unfold allcallLost deadlinePassed at hi'
      rw [hl, hx, decide_eq_true hnow'] at hi'
      rw [show s.clearOut.allcallBroadcasting = true from ha] at hi'
      exact Bool.noConfusion hi'
    · intro _
      rw [htx]
      exact ⟨hw, hd⟩
  | leaves hne _ _ => exact absurd hc hne
  | word hop hs =>
    subst hop
    have hs' : s.step .onWordComplete = s.clearOut.completeAllcall := hs
    unfold completeAllcall at hs'
    dsimp only at hs'
    by_cases hlast : s.tx.wordsPending - 1 = 0
    · rw [if_pos (by exact hlast)] at hs'
      have hflag : (s.step .onWordComplete).allcallBroadcasting = false := by rw [hs']; rfl
      have hsig : signals (s.step .onWordComplete).out = [.rx true] := by rw [hs']; rfl
      refine ⟨⟨by rw [hsig]; rfl, ?_, ?_, fun _ => hflag⟩, hout, ?_, fun _ => hhome⟩
      · intro _
        rw [hsig]
        exact List.mem_singleton_self _
      · intro hf
        rw [hflag] at hf
        exact absurd hf Bool.false_ne_true
      · intro hf
        rw [hflag] at hf
        exact absurd hf Bool.false_ne_true
    · rw [if_neg (by exact hlast)] at hs'
      have hflag : (s.step .onWordComplete).allcallBroadcasting = true := by rw [hs']; exact ha
      have hsig : signals (s.step .onWordComplete).out = [] := by rw [hs']; rfl
      have hcount : (s.step .onWordComplete).tx.wordsPending = s.tx.wordsPending - 1 := by
        rw [hs']
        rfl
      have hdrain : (s.step .onWordComplete).tx.txDrainStartMs = s.tx.txDrainStartMs := by
        rw [hs']
        rfl
      refine ⟨⟨by rw [hsig]; rfl, ?_, ?_, ?_⟩, hout, ?_, fun _ => hhome⟩
      · intro hf
        rw [hflag] at hf
        exact absurd hf.symm Bool.false_ne_true
      · intro _
        rw [hcount, if_pos rfl]
        omega
      · rintro ⟨now, env, he, -, -⟩
        exact Op.noConfusion he
      · intro _
        rw [hcount, hdrain]
        exact ⟨by omega, hd⟩
  | lost now env hop hl hs =>
    subst hop
    have hs' : s.step (.update now env) = (s.clearOut.clocked now).allcallDrainTimeout := hs
    have hflag : (s.step (.update now env)).allcallBroadcasting = false := by rw [hs']; rfl
    have hsig : signals (s.step (.update now env)).out = [.rx true] := by rw [hs']; rfl
    refine ⟨⟨by rw [hsig]; rfl, ?_, ?_, fun _ => hflag⟩, hout, ?_, fun _ => hhome⟩
    · intro _
      rw [hsig]
      exact List.mem_singleton_self _
    · intro hf
      rw [hflag] at hf
      exact absurd hf Bool.false_ne_true
    · intro hf
      rw [hflag] at hf
      exact absurd hf Bool.false_ne_true

/-- One step without a broadcast, which may start one. -/
theorem aired_off (h : s.Aired) (ha : s.allcallBroadcasting = false) (hs : ¬ s.Strands op) :
    (s.step op).Aired := by
  have hout := outside_step h.outside op
  have hoff : (s.step op).allcallBroadcasting = false → (s.step op).Aired := by
    intro hf
    refine ⟨hout, fun hn => ?_, fun hn => ?_⟩ <;>
      · rw [hf] at hn
        exact absurd hn Bool.false_ne_true
  by_cases hop : ∃ a t l, op = .sendAllcallBroadcast a t l
  · obtain ⟨a, t, l, rfl⟩ := hop
    by_cases hacc : s.available = true ∧ s.allcallBroadcasting = false ∧ a ≠ [] ∧ encodeAmd t ≠ []
    · obtain ⟨hav, -, hne, hamd⟩ := hacc
      obtain ⟨h1, h2, h3, h4⟩ :=
        sendAllcallBroadcast_eq (s := s.clearOut) (l := l) hav ha hne hamd
      have hclock : s.currentTimeMs ≠ 0 := by
        intro hz
        exact hs (Or.inr ⟨hz, ha, hav, a, t, l, rfl, hne, hamd⟩)
      refine ⟨hout, fun _ => ⟨?_, ?_⟩, fun _ => ?_⟩
      · have hn := length_allcallWords_pos s.clearOut a t l
        rw [show (s.step (.sendAllcallBroadcast a t l)).tx.wordsPending = _ from h1]
        omega
      · rw [show (s.step (.sendAllcallBroadcast a t l)).tx.txDrainStartMs = _ from h2]
        exact hclock
      · rw [show (s.step (.sendAllcallBroadcast a t l)).currentState = _ from h4]
        exact (available_iff s).mp hav
    · have he : s.step (.sendAllcallBroadcast a t l) = s.clearOut :=
        sendAllcallBroadcast_refused (s := s.clearOut) hacc
      exact hoff (by rw [he]; exact ha)
  · exact hoff (exec_allcall_off (s := s.clearOut) h.outside ha
      (fun a t l he => hop ⟨a, t, l, he⟩))

theorem aired_step (h : s.Aired) (hs : ¬ s.Strands op) : (s.step op).Aired := by
  cases ha : s.allcallBroadcasting with
  | false => exact aired_off h ha hs
  | true => exact (winds_step h ha (not_not.mp fun hn => hs (Or.inl ⟨ha, hn⟩))).2

/-- A broadcast that is not stranded winds down. -/
theorem winds (h : s.Aired) (hs : ¬ s.Strands op) (ha : s.allcallBroadcasting = true) :
    s.Winds op :=
  (winds_step h ha (not_not.mp fun hn => hs (Or.inl ⟨ha, hn⟩))).1

/-- A stranded broadcast has lost its words or its watchdog at once. -/
theorem not_onAir_of_strands (h : s.Aired) (hs : s.Strands op) : ¬ (s.step op).OnAir := by
  intro hon
  rcases hs with ⟨ha, hne⟩ | ⟨hz, ha, hav, a, t, l, rfl, hna, hamd⟩
  · have hout : (s.step op).allcallBroadcasting = true ∧ (s.step op).tx.wordsPending = 0 := by
      cases exec_air (s := s.clearOut) (h.home ha) ha op with
      | stay hs _ => exact absurd hs.state hne
      | leaves _ hf htx => exact ⟨hf.trans ha, congrArg TxDrain.wordsPending htx⟩
      | word hop hs =>
        refine absurd ?_ hne
        have hs' : s.step op = s.clearOut.completeAllcall := hs
        rw [hs']
        unfold completeAllcall
        dsimp only
        split <;> rfl
      | lost now env hop hl hs =>
        refine absurd ?_ hne
        have hs' : s.step op = (s.clearOut.clocked now).allcallDrainTimeout := hs
        rw [hs']
        rfl
    have hw := (hon hout.1).1
    rw [hout.2] at hw
    exact absurd hw (Nat.lt_irrefl 0)
  · obtain ⟨-, h2, h3, -⟩ := sendAllcallBroadcast_eq (s := s.clearOut) (l := l) hav ha hna hamd
    exact (hon h3).2 (h2.trans hz)

end Step

/-! ## Runs -/

theorem aired_init : init.Aired :=
  ⟨outside_init, fun h => absurd h Bool.false_ne_true, fun h => absurd h Bool.false_ne_true⟩

/-- While the flag stays on, each completion takes one word and no tick is past the deadline. -/
theorem pending_run {s : SM} {as : List Op} (h : s.Aired)
    (hs : Machine.AllSteps step (fun s op => ¬ s.Strands op) s as)
    (hon : Machine.AllStates step (fun s => s.allcallBroadcasting = true) s as) :
    (Machine.run step s as).tx.wordsPending + as.count .onWordComplete = s.tx.wordsPending ∧
      (Machine.run step s as).OnAir ∧
      Machine.AllSteps step (fun s op => ¬ s.PastDeadline op) s as := by
  induction as generalizing s with
  | nil => exact ⟨rfl, h.onAir, trivial⟩
  | cons op as ih =>
    have hw := winds h hs.1 hon.1
    have hflag := hon.2.head
    obtain ⟨h1, h2, h3⟩ := ih (aired_step h hs.1) hs.2 hon.2
    have hc := hw.counts hflag
    refine ⟨?_, h2, ?_, h3⟩
    · rw [Machine.run_cons, List.count_cons]
      by_cases hop : op = .onWordComplete
      · rw [if_pos hop] at hc
        rw [if_pos (beq_iff_eq.mpr hop)]
        omega
      · rw [if_neg hop] at hc
        rw [if_neg (fun h => hop (beq_iff_eq.mp h))]
        omega
    · intro hp
      have := hw.lapses hp
      rw [hflag] at this
      exact absurd this.symm Bool.false_ne_true

/-- **A broadcast that is not stranded is over after the completions it still needs, or after the
first tick past its deadline.** -/
theorem lapses_of (as : List Op) (hs : Machine.AllSteps step (fun s op => ¬ s.Strands op) init as) :
    Lapses as := by
  rintro pre post rfl hend hon
  obtain ⟨hpre, hpost⟩ := Machine.allSteps_append.mp hs
  have ha : (Machine.run step init pre).Aired :=
    Machine.inv_run (fun _ _ => aired_step) aired_init hpre
  obtain ⟨hcount, hair, hdead⟩ := pending_run ha hpost hon
  have hpos := (hair hon.last).1
  rcases hend with hend | hend
  · omega
  · exact hend hdead

/-- **The AllCall flag means a broadcast that is being sent and will be over, exactly in the runs
that do not change the state under a broadcast and do not start one at clock 0.** -/
theorem airtime_iff (as : List Op) :
    (Machine.AllStates step OnAir init as ∧
      Machine.AllSteps step (fun s op => s.allcallBroadcasting = true → s.Winds op) init as) ∧
      Lapses as ↔
    Machine.AllSteps step (fun s op => ¬ s.Strands op) init as := by
  have hiff : Machine.AllStates step OnAir init as ∧
      Machine.AllSteps step (fun s op => s.allcallBroadcasting = true → s.Winds op) init as ↔
      Machine.AllSteps step (fun s op => ¬ s.Strands op) init as := by
    refine Machine.allStates_and_allSteps_iff ?_ (fun _ h => h.onAir) ?_ ?_ aired_init
    · exact fun s op h hs => aired_step h hs
    · exact fun s op h hs => winds h hs
    · exact fun s op h hs hon _ => not_onAir_of_strands h (not_not.mp hs) hon
  rw [hiff]
  exact ⟨fun h => h.1, fun h => ⟨h, lapses_of as h⟩⟩

/-- A broadcast, and the scanner is started. -/
def scanUnderBroadcast : List Op :=
  [.update 5 {}, .sendAllcallBroadcast ['S', 'A', 'M'] ['H', 'I'] false, .processEvent .startScan]

/-- **`START_SCAN` strands the flag.** -/
theorem airtime_fail : ¬ ∀ as : List Op,
    (Machine.AllStates step OnAir init as ∧
      Machine.AllSteps step (fun s op => s.allcallBroadcasting = true → s.Winds op) init as) ∧
      Lapses as := by
  intro h
  have hend := (h scanUnderBroadcast).1.1.last
  have hon : (Machine.run step init scanUnderBroadcast).allcallBroadcasting = true := by
    decide +kernel
  have hw : (Machine.run step init scanUnderBroadcast).tx.wordsPending = 0 := by decide +kernel
  have hpos := (hend hon).1
  rw [hw] at hpos
  exact absurd hpos (Nat.lt_irrefl 0)

end SM

end OpenALE
