import OpenALE.Control.Drain

/-!
# Half duplex

The antenna is a ghost beside the machine: the last value passed to `rx_enabled_callback`, and the
words handed to `transmit_callback` whose rendering is not complete. The machine is half duplex
when it hands words over behind a closed receiver only, opens the receiver only once its own words
are out, and listens with an open receiver.

Results:
* `half_duplex`: a run whose steps all keep the discipline `SM.Disciplined` is half duplex.
* `half_duplex_fail`: `terminate_link` hands over its words before it closes the receiver.
-/

namespace OpenALE

/-- The antenna. -/
structure Antenna where
  rx : Option Bool := none
  air : Nat := 0
  deriving Repr, DecidableEq

namespace Antenna

/-- What a signal does to the antenna. -/
def signal (a : Antenna) : Signal → Antenna
  | .send => { a with air := a.air + 1 }
  | .rx on => { a with rx := some on }

/-- **The discipline.** Words go out behind a closed receiver, and the receiver opens when they are
out. -/
def Fair (a : Antenna) : Signal → Prop
  | .send => a.rx = some false
  | .rx on => on = true → a.air = 0

instance : DecidableRel Fair
  | _, .send => inferInstanceAs (Decidable (_ = _))
  | _, .rx _ => inferInstanceAs (Decidable (_ → _))

/-- A completed word is off the antenna. -/
def before (a : Antenna) (op : Op) : Antenna :=
  if op = .onWordComplete then { a with air := a.air - 1 } else a

/-- All the signals are fair, each at its moment. -/
abbrev AllFair (a : Antenna) (sig : List Signal) : Prop := Machine.AllSteps signal Fair a sig

variable {a : Antenna}

theorem run_sends (a : Antenna) (n : Nat) :
    Machine.run signal a (List.replicate n .send) = { a with air := a.air + n } := by
  induction n generalizing a with
  | zero => rfl
  | succ n ih =>
    rw [List.replicate_succ, Machine.run_cons, ih]
    show Antenna.mk a.rx (a.air + 1 + n) = Antenna.mk a.rx (a.air + (n + 1))
    rw [Nat.add_right_comm, Nat.add_assoc]

theorem fair_sends (h : a.rx = some false) (n : Nat) : a.AllFair (List.replicate n .send) := by
  induction n generalizing a with
  | zero => trivial
  | succ n ih => exact ⟨h, ih h⟩

end Antenna

/-- A machine with its antenna. -/
structure Station where
  sm : SM
  ant : Antenna := {}

namespace Station

/-- A machine as its constructor leaves it. -/
def init : Station := { sm := SM.init }

/-- One operation. -/
def step (x : Station) (op : Op) : Station :=
  { sm := x.sm.step op
    ant := Machine.run Antenna.signal (x.ant.before op) (signals (x.sm.step op).out) }

/-- The operation's signals are fair. -/
def Fair (x : Station) (op : Op) : Prop := (x.ant.before op).AllFair (signals (x.sm.step op).out)

instance : DecidableRel Fair := fun _ _ =>
  inferInstanceAs (Decidable (Machine.AllSteps _ _ _ _))

/-- A station that listens is not deaf. -/
def Hears (x : Station) : Prop := x.sm.mode = .listen → x.ant.rx ≠ some false

end Station

/-! ## The invariant -/

/-- The transmitter's burst is under way or about to start. -/
def TxView.Shut (v : TxView) : Prop :=
  v.mode ≠ .listen ∧ (v.mode = .orderwire → v.wordsPending ≠ 0)

/-- The antenna follows the transmitter. -/
structure Duplex (v : TxView) (a : Antenna) : Prop where
  count : a.air = v.wordsPending
  shut : v.Shut → a.rx = some false
  clear : ¬ v.Shut → a.rx ≠ some false ∧ v.wordsPending = 0
  tuning : v.mode = .tuning → v.wordsPending = 0
  sending : v.mode = .termination ∨ v.mode = .sounding ∨ v.mode = .broadcast → v.wordsPending ≠ 0
  allcall : v.allcall = true → v.mode = .broadcast

section Duplex

variable {v : TxView} {a : Antenna}

theorem not_shut_listen (h : v.mode = .listen) : ¬ v.Shut := fun hs => hs.1 h

theorem shut_of (hm : v.mode ≠ .listen) (ho : v.mode ≠ .orderwire) : v.Shut :=
  ⟨hm, fun h => absurd h ho⟩

theorem Duplex.listen (h : Duplex v a) (hm : v.mode = .listen) :
    a.rx ≠ some false ∧ v.wordsPending = 0 := h.clear (not_shut_listen hm)

theorem Duplex.allcall_off (h : Duplex v a) (hm : v.mode ≠ .broadcast) : v.allcall = false := by
  cases ha : v.allcall with
  | false => rfl
  | true => exact absurd (h.allcall ha) hm

/-- Where nothing is pending, the receiver may open. -/
theorem fair_open (h : a.air = 0) : a.AllFair [.rx true] := ⟨fun _ => h, trivial⟩

/-- With the receiver just opened the transmitter may go wherever it does not send. -/
theorem duplex_open (hv : v.mode = .listen ∨ v.mode = .orderwire) (hw : v.wordsPending = 0)
    (ha : v.allcall = false) (hair : a.air = 0) : Duplex v (a.signal (.rx true)) := by
  have hn : ¬ v.Shut := by
    rintro ⟨h1, h2⟩
    rcases hv with h | h
    · exact h1 h
    · exact h2 h hw
  refine ⟨hair.trans hw.symm, fun h => absurd h hn, fun _ => ⟨by simp [Antenna.signal], hw⟩,
    fun _ => hw, fun h => ?_, fun h => absurd (ha.symm.trans h) Bool.false_ne_true⟩
  rcases hv with hv | hv <;> rw [hv] at h <;> simp at h

theorem duplex_go (ha : v.allcall = false) (t : ALEState) (hair : a.air = 0) :
    Duplex (v.go t) (a.signal (.rx true)) := by
  refine duplex_open ?_ rfl ha hair
  unfold TxView.go
  cases t <;> dsimp only
  case linked =>
    split
    · exact Or.inr rfl
    · exact Or.inl rfl
  all_goals first | exact Or.inl rfl | (rw [ha]; exact Or.inl rfl)

/-- A burst behind a closed receiver. -/
theorem duplex_burst {n : Nat} (h : v.Shut) (hrx : a.rx = some false)
    (hw : a.air + n = v.wordsPending) (hn : v.mode = .tuning → v.wordsPending = 0)
    (hs : v.mode = .termination ∨ v.mode = .sounding ∨ v.mode = .broadcast → v.wordsPending ≠ 0)
    (ha : v.allcall = true → v.mode = .broadcast) :
    Duplex v { a with air := a.air + n } :=
  ⟨hw, fun _ => hrx, fun h' => absurd h h', hn, hs, ha⟩

end Duplex

namespace SM

/-- The words still to be counted in the calling frame, from phase `p` with `c` counted. -/
def slotsLeft (s : SM) (p : CallingPhase) (c : Nat) : Nat :=
  match p with
  | .leadingCall => s.tlcSlots - c + s.seqs.conclusionSeq.length
  | .conclusion => s.seqs.conclusionSeq.length - c
  | p => s.slots p - c + s.tlcSlots + s.seqs.conclusionSeq.length

/-- The words pending of a calling frame do not outnumber those still to be counted. -/
def Fits (s : SM) (v : TxView) : Prop :=
  match v.mode with
  | .call p => v.wordsPending ≤ s.slotsLeft p v.cycles
  | _ => True

instance (s : SM) (v : TxView) : Decidable (s.Fits v) := by
  unfold Fits
  induction v.mode using Mode.casesOn <;> infer_instance

/-- The scanning call is no longer than the phase it is counted in. -/
def FrameFits (s : SM) : Prop :=
  s.seqs.scanningSeq.length ≤
    if s.firstTxPhase = .leadingCall then 0 else s.slots s.firstTxPhase

instance (s : SM) : Decidable s.FrameFits := by unfold FrameFits; infer_instance

/-- The operation leaves the state, or ends one channel of a sounding sweep. -/
def movesOn (s : SM) (op : Op) : Prop :=
  (s.control.fire s.moreSweep (s.trigger op)).state ≠ s.currentState ∨
    s.currentState = .sounding ∧ s.trigger op = .event .soundingComplete

instance (s : SM) (op : Op) : Decidable (s.movesOn op) := by unfold movesOn; infer_instance

instance (s : SM) (env : Env) : Decidable (s.partsWith env) := by unfold partsWith; infer_instance

/-- **The discipline of a step.** Nothing but a completed word leaves a state while words are
pending, no drain watchdog gives a burst up, a link that is idle is not terminated by an own frame,
and the slots counted for a scanning call cover its words. -/
def Disciplined (s : SM) (op : Op) : Prop :=
  (s.tx.wordsPending ≠ 0 → op ≠ .onWordComplete → ¬ s.movesOn op) ∧
    match op with
    | .update now env =>
      ¬ (s.currentState = .linked ∧ s.burstLost now = true) ∧ s.allcallLost now = false ∧
        (now - s.currentTimeMs < 0x80000000 → ¬ (s.clocked now).partsWith env ∧
          (s.mode = .tuning → (s.clocked now).queues env = true → s.FrameFits))
    | .terminateLink => s.currentState = .linked → s.tx.wordsPending ≠ 0
    | .emergencyManualControl => ¬ s.emergencySends
    | .set (.targetScanChannels n) => Fits { s with targetScanChannels := n } s.txView
    | _ => True

instance (s : SM) (op : Op) : Decidable (s.Disciplined op) := by
  unfold Disciplined
  induction op using Op.casesOn with
  | set x => induction x using Setting.casesOn <;> infer_instance
  | _ => infer_instance

/-! ## One step -/

section Step

variable {s : SM} {a : Antenna} {v : TxView} {sig : List Signal}

theorem fits_of_mode (hv : ∀ p, v.mode ≠ .call p) : s.Fits v := by
  unfold Fits
  split
  · rename_i p hp
    exact absurd hp (hv p)
  · trivial

theorem mode_go_ne_call (v : TxView) (t : ALEState) (p : CallingPhase) : (v.go t).mode ≠ .call p := by
  unfold TxView.go
  cases t <;> dsimp only <;> first | exact Mode.noConfusion | (split <;> exact Mode.noConfusion)

theorem length_callFrame (s : SM) : s.seqs.callFrame.length =
    s.seqs.scanningSeq.length + s.tlcSlots + s.seqs.conclusionSeq.length := by
  unfold CallSequences.callFrame tlcSlots
  simp only [List.length_append]
  omega

theorem firstTxPhase_cases (s : SM) : s.firstTxPhase = .groupScanningCall ∨
    s.firstTxPhase = .scanningCall ∨ s.firstTxPhase = .leadingCall := by
  unfold firstTxPhase
  repeat' split
  · exact Or.inl rfl
  · exact Or.inr (Or.inl rfl)
  · exact Or.inr (Or.inr rfl)

/-- A frame that fits has its slots. -/
theorem frameFits_slots (h : s.FrameFits) :
    s.seqs.callFrame.length ≤ s.slotsLeft s.firstTxPhase 0 := by
  unfold FrameFits at h
  have hl := length_callFrame s
  rcases firstTxPhase_cases s with hp | hp | hp <;> rw [hp] at h ⊢ <;> unfold slotsLeft
  · rw [if_neg (by decide)] at h
    dsimp only
    omega
  · rw [if_neg (by decide)] at h
    dsimp only
    omega
  · rw [if_pos rfl] at h
    dsimp only
    omega

/-- **A clock tick under discipline is fair.** -/
theorem tick_duplex {env : Env} (h : Duplex s.txView a) (hf : s.Fits s.txView)
    (hleave : s.tx.wordsPending ≠ 0 → v.state = s.currentState)
    (hsweep : s.tx.wordsPending ≠ 0 → ¬ (s.currentState = .sounding ∧
      s.tickTrigger env = .event .soundingComplete))
    (hparts : ¬ s.partsWith env)
    (hlost : s.mode = .orderwire → s.drainExpired = true → s.checkLinkTimeout = false →
      s.allcallBroadcasting = true)
    (hall : s.allcallBroadcasting = true → s.drainExpired = true → s.checkLinkTimeout = true)
    (hframe : s.mode = .tuning → s.queues env = true → s.FrameFits) (hm : s.TickMove env v sig) :
    a.AllFair sig ∧ Duplex v (Machine.run Antenna.signal a sig) ∧ s.Fits v := by
  have hair : a.air = s.tx.wordsPending := h.count
  cases hm with
  | stay => exact ⟨trivial, h, hf⟩
  | transition t n ht hn =>
    obtain rfl : n = 0 := by
      by_contra hne
      exact hparts (hn hne)
    have hw : s.tx.wordsPending = 0 := by
      by_contra hne
      exact ht (hleave hne)
    have ha : s.allcallBroadcasting = false := by
      cases hb : s.allcallBroadcasting with
      | false => rfl
      | true => exact absurd hw (h.sending (Or.inr (Or.inr (h.allcall hb))))
    exact ⟨fair_open (hair.trans hw), duplex_go ha t (hair.trans hw),
      fits_of_mode (mode_go_ne_call _ _)⟩
  | terminationLost t ht hmode =>
    have hw : s.tx.wordsPending ≠ 0 := h.sending (Or.inl hmode)
    exact absurd (hleave hw) ht
  | sweep hc he _ =>
    have hw : s.tx.wordsPending = 0 := by
      by_contra hne
      exact hsweep hne ⟨hc, he⟩
    have ha : s.allcallBroadcasting = false := by
      cases hb : s.allcallBroadcasting with
      | false => rfl
      | true => exact absurd hw (h.sending (Or.inr (Or.inr (h.allcall hb))))
    exact ⟨fair_open (hair.trans hw), duplex_open (Or.inl rfl) hw ha (hair.trans hw),
      fits_of_mode (fun p => by simp)⟩
  | tune hc hmode =>
    obtain ⟨-, hw⟩ := h.listen hmode
    refine ⟨⟨fun hb => Bool.noConfusion hb, trivial⟩, ⟨h.count, fun _ => rfl,
      fun hs => absurd (shut_of (by simp) (by simp)) hs, fun _ => hw, fun hs => by simp at hs,
      fun hb => absurd (h.allcall hb) (by rw [show s.txView.mode = _ from hmode]; decide)⟩,
      fits_of_mode (fun p => by simp)⟩
  | frame hc hmode hq =>
    have hw : s.tx.wordsPending = 0 := h.tuning hmode
    have hrx : a.rx = some false := h.shut (shut_of (v := s.txView)
      (by rw [show s.txView.mode = _ from hmode]; decide)
      (by rw [show s.txView.mode = _ from hmode]; decide))
    have ha := h.allcall_off (by rw [show s.txView.mode = _ from hmode]; decide)
    refine ⟨Antenna.fair_sends hrx _, ?_, ?_⟩
    · rw [Antenna.run_sends]
      exact duplex_burst (shut_of (by simp) (by simp)) hrx (by rw [hair]) (by simp) (by simp)
        (fun hb => absurd (ha.symm.trans hb) Bool.false_ne_true)
    · unfold Fits
      dsimp only
      rw [hw, Nat.zero_add]
      exact frameFits_slots (hframe hmode hq)
  | retry hc hmode =>
    obtain ⟨hrx, hw⟩ := h.listen hmode
    have hv : ¬ TxView.Shut { s.txView with cycles := 0, wordsPending := 0 } :=
      not_shut_listen hmode
    refine ⟨trivial, ⟨hair.trans hw, fun hs => absurd hs hv, fun _ => ⟨hrx, rfl⟩, fun _ => rfl,
      fun hs => ?_, h.allcall⟩, fits_of_mode (fun p => by
        rw [show TxView.mode _ = _ from hmode]; simp)⟩
    rw [show TxView.mode _ = _ from hmode] at hs
    simp at hs
  | shutForAck hc hmode =>
    obtain ⟨-, hw⟩ := h.listen hmode
    refine ⟨⟨fun hb => Bool.noConfusion hb, trivial⟩, ⟨h.count, fun _ => rfl,
      fun hs => absurd (shut_of (by simp) (by simp)) hs, fun hs => by simp at hs,
      fun hs => by simp at hs,
      fun hb => absurd (h.allcall hb) (by rw [show s.txView.mode = _ from hmode]; decide)⟩,
      fits_of_mode (fun p => by simp)⟩
  | ack n hn hmode hw hq =>
    have hrx : a.rx = some false := h.shut (shut_of (v := s.txView)
      (by rw [show s.txView.mode = _ from hmode]; decide)
      (by rw [show s.txView.mode = _ from hmode]; decide))
    refine ⟨Antenna.fair_sends hrx _, ?_, fits_of_mode (fun p => by
      rw [show TxView.mode _ = _ from hmode]; simp)⟩
    rw [Antenna.run_sends]
    refine duplex_burst (shut_of ?_ ?_) hrx (by rw [hair, hw, Nat.zero_add]) ?_ ?_ h.allcall <;>
      rw [show TxView.mode _ = _ from hmode] <;> simp
  | response n hn hc hmode hq =>
    obtain ⟨-, hw⟩ := h.listen hmode
    have ha := h.allcall_off (by rw [show s.txView.mode = _ from hmode]; decide)
    refine ⟨⟨fun hb => Bool.noConfusion hb, Antenna.fair_sends rfl _⟩, ?_,
      fits_of_mode (fun p => by simp)⟩
    rw [Machine.run_cons, Antenna.run_sends]
    exact duplex_burst (shut_of (by simp) (by simp)) rfl
      (by show a.air + n = s.tx.wordsPending + n; rw [hair]) (by simp) (by simp)
      (fun hb => absurd (ha.symm.trans hb) Bool.false_ne_true)
  | orderwire n hn hmode hq =>
    obtain ⟨-, hw⟩ := h.listen hmode
    have ha := h.allcall_off (by rw [show s.txView.mode = _ from hmode]; decide)
    refine ⟨⟨fun hb => Bool.noConfusion hb, Antenna.fair_sends rfl _⟩, ?_,
      fits_of_mode (fun p => by simp)⟩
    rw [Machine.run_cons, Antenna.run_sends]
    exact duplex_burst ⟨by simp, fun _ => by show s.tx.wordsPending + n ≠ 0; omega⟩ rfl
      (by show a.air + n = s.tx.wordsPending + n; rw [hair]) (by simp) (by simp)
      (fun hb => absurd (ha.symm.trans hb) Bool.false_ne_true)
  | abandon hc hmode hd hl hb =>
    exact absurd (hb.symm.trans (hlost hmode hd hl)) Bool.false_ne_true
  | sound n hn hmode hq =>
    obtain ⟨-, hw⟩ := h.listen hmode
    have ha := h.allcall_off (by rw [show s.txView.mode = _ from hmode]; decide)
    refine ⟨⟨fun hb => Bool.noConfusion hb, Antenna.fair_sends rfl _⟩, ?_,
      fits_of_mode (fun p => by simp)⟩
    rw [Machine.run_cons, Antenna.run_sends]
    exact duplex_burst (shut_of (by simp) (by simp)) rfl
      (by show a.air + n = s.tx.wordsPending + n; rw [hair]) (by simp)
      (fun _ => by show s.tx.wordsPending + n ≠ 0; omega)
      (fun hb => absurd (ha.symm.trans hb) Bool.false_ne_true)
  | window hmode hw => exact absurd hw (h.sending (Or.inr (Or.inl hmode)))
  | allcallLost hb hd hl =>
    exact absurd (hl.symm.trans (hall hb hd)) Bool.false_ne_true

/-- **A completed word is fair.** -/
theorem done_duplex (h : Duplex s.txView a) (hf : s.Fits s.txView) (hm : s.DoneMove v sig) :
    (Antenna.mk a.rx (a.air - 1)).AllFair sig ∧
      Duplex v (Machine.run Antenna.signal (Antenna.mk a.rx (a.air - 1)) sig) ∧ s.Fits v := by
  have hair : a.air = s.tx.wordsPending := h.count
  have hcall : ∀ p, s.mode = .call p → s.allcallBroadcasting = false ∧ a.rx = some false ∧
      s.tx.wordsPending ≤ s.slotsLeft p s.calling.callCyclesInPhase := by
    intro p hp
    refine ⟨h.allcall_off (by rw [show s.txView.mode = _ from hp]; simp),
      h.shut (shut_of (by rw [show s.txView.mode = _ from hp]; simp)
        (by rw [show s.txView.mode = _ from hp]; simp)), ?_⟩
    unfold Fits at hf
    rw [show s.txView.mode = _ from hp] at hf
    exact hf
  -- one word fewer in the air and in the count, nothing else
  have hword : ∀ c, s.mode.counted = true → 1 < s.tx.wordsPending →
      Duplex { s.txView with wordsPending := s.tx.wordsPending - 1, cycles := c }
        ⟨a.rx, a.air - 1⟩ := by
    intro c hc hw
    have hm : s.mode ≠ .listen := by
      rintro hl
      rw [hl] at hc
      exact Bool.false_ne_true hc
    have hw0 : s.tx.wordsPending ≠ 0 := by omega
    have hw1 : s.tx.wordsPending - 1 ≠ 0 := by omega
    refine ⟨by show a.air - 1 = _; rw [hair], fun _ => h.shut ⟨hm, fun _ => hw0⟩,
      fun hs => absurd ⟨hm, fun _ => hw1⟩ hs, fun ht => ?_, fun _ => hw1, h.allcall⟩
    rw [show s.mode = _ from ht] at hc
    exact absurd hc Bool.false_ne_true
  cases hm with
  | idle n c hn hm =>
    have hw : s.tx.wordsPending = 0 := by
      rcases hm with hm | hm | hm
      · exact (h.listen hm).2
      · exact h.tuning hm
      · exact hm
    obtain rfl : n = 0 := by omega
    have he : (⟨a.rx, a.air - 1⟩ : Antenna) = a := by
      show Antenna.mk a.rx (a.air - 1) = Antenna.mk a.rx a.air
      rw [hair, hw]
    have hv : TxView.Shut { s.txView with wordsPending := 0, cycles := c } ↔ s.txView.Shut := by
      unfold TxView.Shut
      rw [show s.txView.wordsPending = 0 from hw]
    refine ⟨trivial, ?_, ?_⟩
    · rw [he]
      exact ⟨hair.trans hw, fun hs => h.shut (hv.mp hs), fun hs => ⟨(h.clear (hs ∘ hv.mpr)).1, rfl⟩,
        fun _ => rfl, fun hs => absurd hw (h.sending hs), h.allcall⟩
    · unfold Fits
      split
      · exact Nat.zero_le _
      · trivial
  | stray hm _ _ _ ha => exact absurd (h.allcall ha) hm
  | word c hm hw =>
    refine ⟨trivial, hword c hm hw, fits_of_mode fun p hp => ?_⟩
    rw [show s.mode = _ from hp] at hm
    exact Bool.false_ne_true hm
  | slot p hm hw hs =>
    obtain ⟨ha, hrx, hl⟩ := hcall p hm
    refine ⟨trivial, ?_, ?_⟩
    · refine ⟨by show a.air - 1 = _; rw [hair], fun _ => hrx,
        fun hs => absurd (shut_of ?_ ?_) hs, fun ht => ?_, fun ht => ?_, h.allcall⟩
      · rw [show TxView.mode _ = _ from hm]; simp
      · rw [show TxView.mode _ = _ from hm]; simp
      · rw [show TxView.mode _ = _ from hm] at ht; simp at ht
      · rw [show TxView.mode _ = _ from hm] at ht; simp at ht
    · unfold Fits
      rw [show TxView.mode _ = _ from hm]
      dsimp only
      unfold slotsLeft at hl ⊢
      cases p <;> dsimp only [slots] at hl hs ⊢ <;> omega
  | advance p hm hp hw hs =>
    obtain ⟨ha, hrx, hl⟩ := hcall p hm
    refine ⟨trivial, ?_, ?_⟩
    · exact ⟨by show a.air - 1 = _; rw [hair], fun _ => hrx,
        fun hs => absurd (shut_of (by simp) (by simp)) hs, fun ht => by simp at ht,
        fun ht => by simp at ht, fun hb => absurd (ha.symm.trans hb) Bool.false_ne_true⟩
    · unfold Fits
      dsimp only
      unfold slotsLeft CallingPhase.next
      unfold slotsLeft at hl
      cases p <;> dsimp only [slots] at hl hs ⊢ <;> first | exact absurd rfl hp | omega
  | listens hm hw hs =>
    obtain ⟨ha, hrx, hl⟩ := hcall _ hm
    have hw' : s.tx.wordsPending - 1 = 0 := by
      unfold slotsLeft at hl
      dsimp only at hl
      omega
    have hair' : a.air - 1 = 0 := by rw [hair]; exact hw'
    exact ⟨fair_open hair', duplex_open (Or.inl rfl) hw' ha hair', fits_of_mode (fun p => by simp)⟩
  | transition t c ht hw hm =>
    have hair' : a.air - 1 = 0 := by omega
    have ha := h.allcall_off (v := s.txView) (by
      rw [show s.txView.mode = s.mode from rfl]
      rcases hm with hm | ⟨hm | hm, -⟩ <;> rw [hm] <;> decide)
    exact ⟨fair_open hair', duplex_go (v := { s.txView with cycles := c }) ha t hair',
      fits_of_mode (mode_go_ne_call _ _)⟩
  | orderwireDone hm hw =>
    have hair' : a.air - 1 = 0 := by omega
    have ha := h.allcall_off (by rw [show s.txView.mode = _ from hm]; decide)
    exact ⟨fair_open hair', duplex_open (Or.inl rfl) rfl ha hair', fits_of_mode (fun p => by simp)⟩
  | opens hm hw =>
    have hair' : a.air - 1 = 0 := by omega
    have ha := h.allcall_off (v := s.txView) (by
      rw [show s.txView.mode = s.mode from rfl]
      rcases hm with hm | hm <;> rw [hm] <;> decide)
    exact ⟨fair_open hair', duplex_open (Or.inl rfl) rfl ha hair', fits_of_mode (fun p => by simp)⟩
  | broadcastDone hm hw =>
    have hair' : a.air - 1 = 0 := by omega
    exact ⟨fair_open hair', duplex_open (Or.inl rfl) rfl rfl hair', fits_of_mode (fun p => by simp)⟩

/-- **Any other operation under discipline is fair.** -/
theorem other_duplex {op : Op} (h : Duplex s.txView a)
    (hleave : s.tx.wordsPending ≠ 0 → v.state = s.currentState)
    (hsweep : s.tx.wordsPending ≠ 0 → ¬ (s.currentState = .sounding ∧
      s.trigger op = .event .soundingComplete))
    (hem : op = .emergencyManualControl → ¬ s.emergencySends)
    (hterm : op = .terminateLink → s.currentState = .linked → s.tx.wordsPending ≠ 0)
    (hm : s.OtherMove op v sig) :
    a.AllFair sig ∧ Duplex v (Machine.run Antenna.signal a sig) ∧
      ((∀ p, v.mode ≠ .call p) ∨ v = s.txView) := by
  have hair : a.air = s.tx.wordsPending := h.count
  have hoff : s.tx.wordsPending = 0 → s.allcallBroadcasting = false := by
    intro hw
    cases hb : s.allcallBroadcasting with
    | false => rfl
    | true => exact absurd hw (h.sending (Or.inr (Or.inr (h.allcall hb))))
  cases hm with
  | stay => exact ⟨trivial, h, Or.inr rfl⟩
  | transition t n ht hn =>
    obtain rfl : n = 0 := by
      by_contra hne
      exact hem (hn hne).1 (hn hne).2
    have hw : s.tx.wordsPending = 0 := by
      by_contra hne
      exact ht (hleave hne)
    exact ⟨fair_open (hair.trans hw), duplex_go (hoff hw) t (hair.trans hw),
      Or.inl (mode_go_ne_call _ _)⟩
  | sweep hc he _ =>
    have hw : s.tx.wordsPending = 0 := by
      by_contra hne
      exact hsweep hne ⟨hc, he⟩
    exact ⟨fair_open (hair.trans hw), duplex_open (Or.inl rfl) hw (hoff hw) (hair.trans hw),
      Or.inl (fun p => by simp)⟩
  | broadcast n hn ha hmode hc =>
    obtain ⟨-, hw⟩ := h.listen hmode
    refine ⟨⟨fun hb => Bool.noConfusion hb, Antenna.fair_sends rfl _⟩, ?_,
      Or.inl (fun p => by simp)⟩
    rw [Machine.run_cons, Antenna.run_sends]
    exact duplex_burst (shut_of (by simp) (by simp)) rfl
      (by show a.air + n = s.tx.wordsPending + n; rw [hair]) (by simp)
      (fun _ => by show s.tx.wordsPending + n ≠ 0; omega) (fun _ => rfl)
  | terminate n hn hop hc =>
    have hw := hterm hop hc
    have hm : s.mode = .termination ∨ s.mode = .orderwire := by
      have hnl : s.mode ≠ .listen := fun hl => hw (h.listen hl).2
      rw [mode_linked hc] at hnl ⊢
      by_cases ht : s.link.linkedTerminating = true
      · exact Or.inl (if_pos ht)
      · rw [if_neg ht] at hnl ⊢
        by_cases hx : s.ow.orderwireTransmitting = true
        · exact Or.inr (if_pos hx)
        · exact absurd (if_neg hx) hnl
    have hrx : a.rx = some false := h.shut ⟨by
      rw [show s.txView.mode = s.mode from rfl]
      rcases hm with hm | hm <;> rw [hm] <;> decide, fun _ => hw⟩
    have ha := h.allcall_off (v := s.txView) (by
      rw [show s.txView.mode = s.mode from rfl]
      rcases hm with hm | hm <;> rw [hm] <;> decide)
    refine ⟨Machine.allSteps_append.mpr ⟨Antenna.fair_sends hrx _,
      fun hb => Bool.noConfusion hb, trivial⟩, ?_, Or.inl (fun p => by simp)⟩
    rw [Machine.run_append, Antenna.run_sends]
    have hd : Duplex { s.txView with
        mode := .termination, wordsPending := s.tx.wordsPending + n }
        { (Antenna.mk (some false) a.air) with air := a.air + n } :=
      duplex_burst (shut_of (by simp) (by simp)) rfl
        (by show a.air + n = s.tx.wordsPending + n; rw [hair]) (by simp)
        (fun _ => by show s.tx.wordsPending + n ≠ 0; omega)
        (fun hb => absurd (ha.symm.trans hb) Bool.false_ne_true)
    exact hd

theorem fits_congr {s' : SM} (hs : s'.seqs = s.seqs)
    (ht : s'.targetScanChannels = s.targetScanChannels) (h : s.Fits v) : s'.Fits v := by
  unfold Fits slotsLeft slots tlcSlots at h ⊢
  rw [hs, ht]
  exact h

/-- A calling frame that fits keeps fitting, unless a setter shortens it. -/
theorem exec_fits {op : Op} (hf : s.Fits s.txView)
    (hset : ∀ n, op = .set (.targetScanChannels n) →
      Fits { s with targetScanChannels := n } s.txView) : (s.exec op).Fits s.txView := by
  by_cases hc : s.currentState = .calling
  · obtain ⟨hs, ht | ⟨n, hn, ht⟩⟩ := exec_frame hc op
    · exact fits_congr hs ht hf
    · exact fits_congr (s := { s with targetScanChannels := n }) hs ht (hset n hn)
  · refine fits_of_mode fun p hp => hc ?_
    exact calling_of_mode hp

end Step

end SM

/-! ## The run -/

namespace Station

/-- The invariant of a disciplined run. -/
structure Sound (x : Station) : Prop where
  outside : x.sm.control.Outside
  duplex : Duplex x.sm.txView x.ant
  fits : x.sm.Fits x.sm.txView

theorem sound_init : init.Sound where
  outside := SM.outside_init
  duplex := ⟨rfl, fun h => absurd rfl h.1, fun _ => ⟨by decide, rfl⟩, fun _ => rfl,
    fun h => by rcases h with h | h | h <;> exact absurd h (by decide),
    fun h => absurd h (by decide)⟩
  fits := trivial

variable {x : Station} {op : Op}

/-- A step whose signals are fair and whose view follows. -/
theorem sound_of {v : TxView} {sig : List Signal} (h : x.Sound)
    (hv : (x.sm.step op).txView = v) (hs : signals (x.sm.step op).out = sig)
    (hfair : (x.ant.before op).AllFair sig)
    (hd : Duplex v (Machine.run Antenna.signal (x.ant.before op) sig))
    (hf : (x.sm.step op).Fits v) : x.Fair op ∧ (x.step op).Sound := by
  subst hv hs
  exact ⟨hfair, SM.outside_step h.outside op, hd, hf⟩

/-- Under discipline only a completed word leaves the state while words are pending. -/
theorem stays_while_pending (hd : x.sm.Disciplined op) (hop : op ≠ .onWordComplete)
    (hw : x.sm.tx.wordsPending ≠ 0) : (x.sm.step op).currentState = x.sm.currentState := by
  have hc : (x.sm.step op).currentState = _ := congrArg Control.state (SM.step_control x.sm op)
  rw [hc]
  by_contra hne
  exact hd.1 hw hop (Or.inl hne)

theorem held_fits (hp : SM.prepares op = false) {v : TxView} (hv : x.sm.Fits v) :
    (x.sm.step op).Fits v := by
  have hh := SM.exec_held x.sm.clearOut hp
  exact SM.fits_congr hh.seqs hh.targetScanChannels hv

theorem sound_update {now : UInt32} {env : Env} (h : x.Sound)
    (hd : x.sm.Disciplined (.update now env)) :
    x.Fair (.update now env) ∧ (x.step (.update now env)).Sound := by
  obtain ⟨s, a⟩ := x
  have hstay := stays_while_pending hd (by simp)
  obtain ⟨hleave, hlost, hall, htick⟩ := hd
  by_cases hc : 0x80000000 ≤ now - s.currentTimeMs
  · have hs : s.step (.update now env) = s.clearOut := if_pos hc
    have hout : signals (s.step (.update now env)).out = [] := by
      rw [hs]
      rfl
    exact sound_of h (v := s.txView) (by rw [hs]; rfl) hout trivial
      h.duplex (by rw [hs]; exact h.fits)
  have hs : s.step (.update now env) = (s.clearOut.clocked now).tick env := if_neg hc
  have htrig : s.trigger (.update now env) = (s.clocked now).tickTrigger env := if_neg hc
  have hwin : s.deadlinePassed now =
      (!(s.clocked now).checkLinkTimeout && (s.clocked now).drainExpired) := by
    unfold SM.deadlinePassed
    rw [decide_eq_true hc]
    rfl
  obtain ⟨hparts, hframe⟩ := htick (UInt32.not_le.mp hc)
  have hticks : (s.clearOut.clocked now).Ticks env ((s.clearOut.clocked now).tick env) :=
    SM.tick_moves h.outside
  obtain ⟨v, sig, hy, hm⟩ := hticks
  have hv : (s.step (.update now env)).txView = v := by
    rw [hs]
    exact hy.view
  obtain ⟨h1, h2, h3⟩ := SM.tick_duplex (s := s.clearOut.clocked now) (v := v) h.duplex h.fits
    (fun hw => by rw [← hv]; exact hstay hw)
    (fun hw hh => hleave hw (by simp) (Or.inr ⟨hh.1, htrig.trans hh.2⟩)) hparts
    (fun hmode hdr hl => by
      have hmode' : s.mode = .orderwire := hmode
      have hcs : s.currentState = .linked := SM.linked_of_mode hmode'
      rw [SM.mode_linked hcs] at hmode'
      by_cases ht : s.link.linkedTerminating = true
      · rw [if_pos ht] at hmode'
        exact absurd hmode' (by decide)
      rw [if_neg ht] at hmode'
      by_cases hx : s.ow.orderwireTransmitting = true
      · by_contra hb
        refine hlost ⟨hcs, ?_⟩
        unfold SM.burstLost
        rw [hwin, show (s.clocked now).checkLinkTimeout = false from hl,
          show (s.clocked now).drainExpired = true from hdr, hx]
        have hb' : s.allcallBroadcasting = false := Bool.eq_false_iff.mpr hb
        simp [hb', ht]
      · rw [if_neg hx] at hmode'
        exact absurd hmode' (by decide))
    (fun hb hdr => by
      unfold SM.allcallLost at hall
      rw [hwin, show (s.clocked now).drainExpired = true from hdr,
        show s.allcallBroadcasting = true from hb] at hall
      show (s.clocked now).checkLinkTimeout = true
      simpa using hall)
    (fun hmode hq => hframe hmode hq) hm
  exact sound_of h hv (by rw [hs, hy.out]; rfl) h1 h2 (held_fits (x := ⟨s, a⟩) rfl h3)

theorem sound_done (h : x.Sound) : x.Fair .onWordComplete ∧ (x.step .onWordComplete).Sound := by
  obtain ⟨s, a⟩ := x
  obtain ⟨v, sig, hy, hm⟩ := SM.done_moves (s := s.clearOut) h.outside
  obtain ⟨h1, h2, h3⟩ := SM.done_duplex (s := s.clearOut) h.duplex h.fits hm
  exact sound_of h hy.view hy.out h1 h2 (held_fits (x := ⟨s, a⟩) rfl h3)

theorem sound_other (h : x.Sound) (hd : x.sm.Disciplined op) (hop : SM.timed op = false) :
    x.Fair op ∧ (x.step op).Sound := by
  obtain ⟨s, a⟩ := x
  have hne : op ≠ .onWordComplete := by
    rintro rfl
    exact Bool.noConfusion hop
  have hstay := stays_while_pending hd hne
  have htrig : s.clearOut.trigger op = s.trigger op := by cases op <;> rfl
  obtain ⟨v, sig, hy, hm⟩ := SM.exec_others (s := s.clearOut) h.outside hop
  have hv : (s.step op).txView = v := hy.view
  have hem : op = .emergencyManualControl → ¬ s.clearOut.emergencySends := by
    rintro rfl
    exact hd.2
  have hterm : op = .terminateLink → s.clearOut.currentState = .linked →
      s.clearOut.tx.wordsPending ≠ 0 := by
    rintro rfl
    exact hd.2
  obtain ⟨h1, h2, h3⟩ := SM.other_duplex (s := s.clearOut) (v := v) h.duplex
    (fun hw => by rw [← hv]; exact hstay hw)
    (fun hw hh => hd.1 hw hne (Or.inr ⟨hh.1, htrig.symm.trans hh.2⟩)) hem hterm hm
  have hb : (Station.mk s a).ant.before op = a := if_neg hne
  refine sound_of h hv hy.out (by rw [hb]; exact h1) (by rw [hb]; exact h2) ?_
  rcases h3 with h3 | rfl
  · exact SM.fits_of_mode h3
  · refine SM.exec_fits (s := s.clearOut) h.fits (fun n hn => ?_)
    obtain rfl := hn
    exact hd.2

theorem sound_step (h : x.Sound) (hd : x.sm.Disciplined op) : x.Fair op ∧ (x.step op).Sound := by
  by_cases hop : SM.timed op = false
  · exact sound_other h hd hop
  · cases op with
    | update now env => exact sound_update h hd
    | onWordComplete => exact sound_done h
    | _ => exact absurd rfl hop

/-- **Half duplex.** In a run whose steps all keep the discipline, every word is handed over behind
a closed receiver, the receiver opens only when the own words are out, and a station that listens
is never deaf. -/
theorem half_duplex (as : List Op)
    (h : Machine.AllSteps step (fun x op => x.sm.Disciplined op) init as) :
    Machine.AllSteps step Fair init as ∧ Machine.AllStates step Hears init as := by
  have hstates : Machine.AllStates step Sound init as :=
    Machine.allStates_of_inv (fun _ _ hs hd => (sound_step hs hd).2) sound_init h
  refine ⟨?_, hstates.mono fun x hx hl => (hx.duplex.listen hl).1⟩
  have hboth := Machine.allSteps_iff.mp h
  refine Machine.allSteps_iff.mpr fun pre op post hp => ?_
  exact (sound_step (Machine.allStates_iff.mp hstates pre (op :: post) hp)
    (hboth pre op post hp)).1

/-- A sounding, then a call that is answered, up to the link. -/
def soundsThenCalls : List Op :=
  [.set (.selfAddress ['A', 'B', 'C']), .sendSounding, .update 784 {}, .onWordComplete,
    .onWordComplete, .onWordComplete, .update 1200 {}, .initiateCall ['D', 'E', 'F'],
    .update 1984 {}, .update 3029 {}, .onWordComplete, .onWordComplete, .onWordComplete,
    .onWordComplete, .onWordComplete, .processReceivedWord (encodeFirst ['A', 'B', 'C'] .to),
    .processReceivedWord (encodeFirst ['D', 'E', 'F'] .tis), .update 3900 {}, .update 3900 {},
    .onWordComplete, .onWordComplete, .onWordComplete]

theorem half_duplex_soundsThenCalls :
    Machine.AllSteps step Fair init soundsThenCalls ∧
      Machine.AllStates step Hears init soundsThenCalls :=
  half_duplex soundsThenCalls (by decide +kernel)

/-- **`terminate_link` hands over its words before it closes the receiver.** -/
theorem half_duplex_fail : ¬ ∀ as : List Op,
    Machine.AllSteps step Fair init as ∧ Machine.AllStates step Hears init as := by
  intro h
  have hs := (h [.processEvent .callDetected, .processEvent .handshakeComplete, .terminateLink]).1
  exact absurd hs.2.2.1 (by decide +kernel)

end Station

end OpenALE
