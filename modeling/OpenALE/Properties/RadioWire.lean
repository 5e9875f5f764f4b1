import OpenALE.Properties.RadioQueue

/-!
# What the radio worker sends

The worker skips the frequency and the mode that the rig has. A rig that does what it is told and
that nobody else tunes is where a worker that skips nothing would have it. Where the relays of the
amplifier must not click, every frequency is sent in split and no transmission is.

Results:
* `rig_follows`: the frequency and the mode of the rig, along every run of one connection.
* `split_discipline`: in which split state each command is sent.
-/

namespace OpenALE.Pal

open HamlibRadio Traced

variable {g : Rig} {r : HamlibRadio} {cmd : RadioCommand} {a : Answers} {c : Cat}

/-! ## The frequency and the mode of the rig -/

/-- Where a rig is. -/
structure Tuning where
  freq : UInt32
  mode : RigMode
  deriving Repr, DecidableEq

/-- It does what it is told. -/
def Tuning.obey (s : Tuning) : Cat → Tuning
  | .setFreq hz => { s with freq := hz }
  | .setMode mode => { s with mode }
  | .setLevel _ => s
  | .setPtt _ => s
  | .setSplit _ => s
  | .getFreq => s
  | .getMode => s
  | .getLevel => s

/-- What the station wants of the rig. -/
structure Want where
  freq : UInt32 := 0
  mode : RadioMode := .usb
  deriving Repr, DecidableEq

/-- What it wants once a command is carried out, from the first tune on. -/
def intend (w : Option Want) : RadioCommand → Option Want
  | .setChannel ch => some ⟨ch.txFrequency, ch.txMode⟩
  | .setFrequency hz => if hz = 0 then w else some { w.getD {} with freq := hz }
  | .setMode mode => some { w.getD {} with mode }
  | .setPower _ => w
  | .setPtt _ => w
  | .sync => w
  | .flush _ => w

/-- What it wants after the commands that were carried out. -/
def wanted (served : List RadioCommand) : Option Want := served.foldl intend none

/-- The rig, and what the worker knows about it. -/
structure TuneView where
  rig : Tuning
  freq : UInt32
  mode : RadioMode
  everSent : Bool
  lastSent : RadioMode

namespace HamlibRadio

variable (start : Tuning)

/-- Where the rig is that was at `start` when the connection was opened. -/
def tuning (r : HamlibRadio) : Tuning := Machine.run Tuning.obey start r.wire

def tuneView (r : HamlibRadio) : TuneView :=
  ⟨r.tuning start, r.currentChannel.txFrequency, r.currentChannel.txMode, r.modeEverSent,
    r.lastSentMode⟩

@[simp] theorem tuning_send (r : HamlibRadio) (c : Cat) :
    (r.send c).tuning start = (r.tuning start).obey c := by
  unfold tuning send
  rw [Machine.run_append]
  rfl

theorem tuneView_send (h : ∀ s : Tuning, s.obey c = s) (r : HamlibRadio) :
    (r.send c).tuneView start = r.tuneView start := by
  unfold tuneView
  rw [tuning_send, h]
  rfl

@[simp] theorem tuneView_assertSplit (g : Rig) (r : HamlibRadio) (on : Bool) :
    (assertSplit g r on).tuneView start = r.tuneView start := by
  unfold assertSplit
  split_ifs
  · exact tuneView_send start (c := .setSplit on) (fun _ => rfl) { r with splitState := on }
  · rfl

@[simp] theorem tuneView_armSplit (g : Rig) (r : HamlibRadio) :
    (armSplit g r).tuneView start = r.tuneView start := by
  unfold armSplit
  split_ifs
  · exact tuneView_assertSplit start g r true
  · rfl

@[simp] theorem tuneView_assertPower (g : Rig) (r : HamlibRadio) (pct : Int) (a : Answers) :
    (assertPower g r pct a).1.tuneView start = r.tuneView start := by
  unfold assertPower
  split_ifs
  · exact tuneView_send start (fun _ => rfl) r
  · rfl

theorem tuneView_assertMode (r : HamlibRadio) (mode : RadioMode) (a : Answers) :
    (r.assertMode mode a).tuneView start = { r.tuneView start with
      rig.mode := toHamlibMode mode
      everSent := true
      lastSent := mode } := by
  unfold assertMode tuneView
  rw [tuning_send]
  rfl

/-- A hop skips what the worker knows about. -/
theorem tuneView_implSetChannel (g : Rig) (r : HamlibRadio) (ch : Channel) (a : Answers) :
    (implSetChannel g r ch a).tuneView start =
      { rig :=
          ⟨if ch.txFrequency ≠ r.currentChannel.txFrequency then ch.txFrequency
            else (r.tuning start).freq,
          if !r.modeEverSent || ch.txMode ≠ r.lastSentMode then toHamlibMode ch.txMode
            else (r.tuning start).mode⟩
        freq := ch.txFrequency
        mode := ch.txMode
        everSent := true
        lastSent := ch.txMode } := by
  unfold implSetChannel
  dsimp only
  have h₀ := tuneView_armSplit start g r
  generalize armSplit g r = r₀ at h₀ ⊢
  generalize hr₁ : (if ch.txFrequency ≠ r₀.currentChannel.txFrequency then
    r₀.send (.setFreq ch.txFrequency) else r₀) = r₁
  have h₁ : r₁.tuneView start = { r.tuneView start with
      rig.freq := if ch.txFrequency ≠ r.currentChannel.txFrequency then ch.txFrequency
        else (r.tuning start).freq } := by
    have hfreq : r₀.currentChannel.txFrequency = r.currentChannel.txFrequency :=
      congrArg TuneView.freq h₀
    rw [← hr₁, ← h₀, hfreq]
    split_ifs
    · unfold tuneView
      rw [tuning_send]
      rfl
    · rw [h₀]
      rfl
  generalize hr₂ : (if (!r₁.modeEverSent || decide (ch.txMode ≠ r₁.lastSentMode)) = true then
    r₁.assertMode ch.txMode a else { r₁ with lastModeCmd := a.now }) = r₂
  have h₂ : r₂.tuneView start = { r₁.tuneView start with
      rig.mode := if !r.modeEverSent || ch.txMode ≠ r.lastSentMode then toHamlibMode ch.txMode
        else (r.tuning start).mode
      everSent := true
      lastSent := ch.txMode } := by
    have hever : r₁.modeEverSent = r.modeEverSent := congrArg TuneView.everSent h₁
    have hlast : r₁.lastSentMode = r.lastSentMode := congrArg TuneView.lastSent h₁
    have hmode : (r₁.tuning start).mode = (r.tuning start).mode :=
      congrArg (fun v => v.rig.mode) h₁
    rw [← hr₂, hever, hlast]
    split_ifs with hsend
    · exact tuneView_assertMode start r₁ ch.txMode a
    · rw [Bool.or_eq_true, not_or, Bool.not_eq_true', Bool.not_eq_false, decide_eq_true_eq,
        not_not] at hsend
      rw [hsend.2, ← hlast, ← hmode, ← hsend.1, ← hever]
      rfl
  have h₃ : ∀ r₃ : HamlibRadio, r₃.tuneView start = r₂.tuneView start →
      ∀ current : Channel, current.txFrequency = ch.txFrequency → current.txMode = ch.txMode →
        ({ r₃ with currentChannel := current, cachedChannel := current } :
          HamlibRadio).tuneView start = { r₂.tuneView start with
            freq := ch.txFrequency
            mode := ch.txMode } := by
    intro r₃ h current hfreq hmode
    rw [← h, ← hfreq, ← hmode]
    rfl
  have hall : { r₂.tuneView start with freq := ch.txFrequency, mode := ch.txMode } =
      ({ rig :=
          ⟨if ch.txFrequency ≠ r.currentChannel.txFrequency then ch.txFrequency
            else (r.tuning start).freq,
          if !r.modeEverSent || ch.txMode ≠ r.lastSentMode then toHamlibMode ch.txMode
            else (r.tuning start).mode⟩
         freq := ch.txFrequency
         mode := ch.txMode
         everSent := true
         lastSent := ch.txMode } : TuneView) := by
    rw [h₂, h₁]
  rw [← hall]
  split_ifs <;> first
    | exact h₃ _ (tuneView_assertPower start g r₂ ch.power a) _ rfl rfl
    | exact h₃ _ rfl _ rfl rfl

theorem tuneView_implSetFrequency (g : Rig) (r : HamlibRadio) {hz : UInt32} (h : hz ≠ 0)
    (a : Answers) :
    (implSetFrequency g r hz a).tuneView start =
      { rig := ⟨hz, toHamlibMode r.currentChannel.txMode⟩
        freq := hz
        mode := r.currentChannel.txMode
        everSent := true
        lastSent := r.currentChannel.txMode } := by
  rw [implSetFrequency, if_neg h]
  dsimp only
  generalize hr₁ : ({ (armSplit g r).send (.setFreq hz) with
    currentChannel := { ((armSplit g r).send (.setFreq hz)).currentChannel with
      rxFrequency := hz, txFrequency := hz } } : HamlibRadio) = r₁
  have h₁ : r₁.tuneView start = { r.tuneView start with rig.freq := hz, freq := hz } := by
    rw [← hr₁, ← tuneView_armSplit start g r]
    exact congrArg (fun s => (⟨s, hz, (armSplit g r).currentChannel.txMode,
      (armSplit g r).modeEverSent, (armSplit g r).lastSentMode⟩ : TuneView))
      (tuning_send start (armSplit g r) (.setFreq hz))
  have h₂ := tuneView_assertMode start r₁ r.currentChannel.txMode a
  rw [h₁] at h₂
  exact h₂

theorem tuneView_implSetMode (r : HamlibRadio) (mode : RadioMode) (a : Answers) :
    (r.implSetMode mode a).tuneView start = { r.tuneView start with
      rig.mode := toHamlibMode mode
      mode
      everSent := true
      lastSent := mode } := by
  have h := tuneView_assertMode start r mode a
  have h' : (r.implSetMode mode a).tuneView start =
      { (r.assertMode mode a).tuneView start with mode } := rfl
  rw [h', h]

theorem tuneView_implSetPower (g : Rig) (r : HamlibRadio) (pct : Int) (a : Answers) :
    (implSetPower g r pct a).tuneView start = r.tuneView start := by
  unfold implSetPower
  dsimp only
  split_ifs <;> exact tuneView_assertPower start g r pct a

theorem tuneView_implSetPtt (g : Rig) (r : HamlibRadio) (on : Bool) (a : Answers) :
    (implSetPtt g r on a).tuneView start = r.tuneView start := by
  unfold implSetPtt
  dsimp only
  generalize hr₁ : (if (g.avoidRelayClick && on && r.splitState) = true then
    assertSplit g r false else r) = r₁
  have h₁ : r₁.tuneView start = r.tuneView start := by
    rw [← hr₁, apply_ite (tuneView start), tuneView_assertSplit, ite_self]
  have h₂ : (r₁.send (.setPtt (pttMode g on))).tuneView start = r.tuneView start :=
    (tuneView_send start (fun _ => rfl) r₁).trans h₁
  split_ifs
  all_goals first
    | exact (tuneView_assertSplit start g _ true).trans h₂
    | exact h₂

theorem tuneView_syncPower (g : Rig) (r : HamlibRadio) (a : Answers) :
    (syncPower g r a).tuneView start = r.tuneView start := by
  unfold syncPower
  have hget : (r.send .getLevel).tuneView start = r.tuneView start :=
    tuneView_send start (fun _ => rfl) r
  split_ifs
  · dsimp only
    cases a.level with
    | none => exact hget
    | some level =>
      dsimp only
      split_ifs <;> exact hget
  · rfl

/-- The answers of a rig that nobody else tunes. -/
def Faithful (s : Tuning) (a : Answers) : Prop :=
  (a.freq = none ∨ a.freq = some s.freq) ∧ (a.mode = none ∨ a.mode = some s.mode)

instance (s : Tuning) (a : Answers) : Decidable (Faithful s a) :=
  inferInstanceAs (Decidable (_ ∧ _))

/-- What a reading may do: it takes over the frequency of the rig and puts the mode right. -/
def Read (v v' : TuneView) : Prop :=
  ∃ freq mode, (freq = v.freq ∨ freq = v.rig.freq) ∧
    (mode = v.rig.mode ∨ mode = toHamlibMode v.mode) ∧ v' = { v with rig.mode := mode, freq }

theorem read_implSyncFromRadio (g : Rig) (r : HamlibRadio) (h : Faithful (r.tuning start) a) :
    Read (r.tuneView start) ((implSyncFromRadio g r a).tuneView start) := by
  have hsame : Read (r.tuneView start) (r.tuneView start) := ⟨_, _, .inl rfl, .inl rfl, rfl⟩
  have hget : (r.send .getFreq).tuneView start = r.tuneView start :=
    tuneView_send start (fun _ => rfl) r
  have hget' : ((r.send .getFreq).send .getMode).tuneView start = r.tuneView start :=
    (tuneView_send start (fun _ => rfl) _).trans hget
  unfold implSyncFromRadio
  split_ifs
  · exact hsame
  · dsimp only
    cases hfreq : a.freq with
    | none => exact hget ▸ hsame
    | some hz =>
      dsimp only
      cases a.mode with
      | none => exact hget' ▸ hsame
      | some mode =>
        dsimp only
        rw [tuneView_syncPower]
        generalize (r.send .getFreq).send .getMode = r₁ at hget' ⊢
        have hcurrent : r₁.currentChannel.txFrequency = r.currentChannel.txFrequency :=
          congrArg TuneView.freq hget'
        generalize hr₂ : (if decide (hz ≠ r₁.currentChannel.txFrequency) = true then
          { r₁ with
            currentChannel := { r₁.currentChannel with rxFrequency := hz, txFrequency := hz }
            cachedChannel := { r₁.cachedChannel with rxFrequency := hz, txFrequency := hz } }
          else r₁) = r₂
        have h₂ : r₂.tuneView start = { r.tuneView start with freq := hz } := by
          rw [← hr₂, ← hget']
          split_ifs with hchanged
          · rfl
          · rw [decide_eq_true_eq, not_not] at hchanged
            rw [hchanged]
            rfl
        have hrig : hz = (r.tuning start).freq := by
          obtain hnone | hsome := h.1
          · rw [hfreq] at hnone
            cases hnone
          · exact Option.some.inj (hfreq.symm.trans hsome)
        split_ifs
        · have hsend := tuning_send start r₂ (.setMode (toHamlibMode r₂.currentChannel.txMode))
          have hmode : r₂.currentChannel.txMode = r.currentChannel.txMode :=
            congrArg TuneView.mode h₂
          refine ⟨hz, toHamlibMode r.currentChannel.txMode, .inr hrig, .inr rfl, ?_⟩
          have h₃ : (r₂.send (.setMode (toHamlibMode r₂.currentChannel.txMode))).tuneView start =
              { r₂.tuneView start with rig.mode := toHamlibMode r₂.currentChannel.txMode } := by
            unfold tuneView
            rw [hsend]
            rfl
          rw [h₃, h₂, hmode]
        · exact ⟨hz, _, .inr hrig, .inl rfl, h₂⟩

end HamlibRadio

/-! ## Along a run -/

/-- The worker knows where the rig is, and it is where the station wants it. -/
structure Follows (v : TuneView) (w : Option Want) : Prop where
  freq : v.freq ≠ 0 → v.rig.freq = v.freq
  asked : (w.getD {}).freq ≠ 0 → v.freq = (w.getD {}).freq
  mode : v.mode = (w.getD {}).mode
  sent : v.everSent = true → v.lastSent = v.mode ∧ v.rig.mode = toHamlibMode v.mode
  tuned : w.isSome = true → v.everSent = true

variable {start : Tuning} {w : Option Want} {v v' : TuneView}

theorem Follows.read (h : Follows v w) (hread : Read v v') : Follows v' w := by
  obtain ⟨freq, mode, hfreq, hmode, rfl⟩ := hread
  refine ⟨?_, ?_, h.mode, ?_, h.tuned⟩
  · intro hne
    obtain rfl | rfl := hfreq
    · exact h.freq hne
    · rfl
  · intro hne
    have hw := h.asked hne
    obtain rfl | rfl := hfreq
    · exact hw
    · exact (h.freq (hw ▸ hne)).trans hw
  · intro hsent
    obtain ⟨hlast, hrig⟩ := h.sent hsent
    obtain rfl | rfl := hmode
    · exact ⟨hlast, hrig⟩
    · exact ⟨hlast, rfl⟩

/-- **What a command that is carried out keeps.** -/
theorem Follows.workerDispatch (h : Follows (r.tuneView start) w) (g : Rig)
    (cmd : RadioCommand) (ha : Faithful (r.tuning start) a) :
    Follows ((workerDispatch g r cmd a).tuneView start) (intend w cmd) := by
  cases cmd with
  | setChannel ch =>
    have hview := tuneView_implSetChannel start g r ch a
    change Follows ((implSetChannel g r ch a).tuneView start) _
    rw [hview]
    refine ⟨?_, fun _ => rfl, rfl, fun _ => ⟨rfl, ?_⟩, fun _ => rfl⟩
    · dsimp only
      intro hne
      split_ifs with hsame
      · rfl
      · rw [not_not] at hsame
        have hknown : (r.tuneView start).freq ≠ 0 := fun hzero => hne (hsame.trans hzero)
        exact (h.freq hknown).trans hsame.symm
    · dsimp only
      split_ifs with hsend
      · rfl
      · rw [Bool.or_eq_true, not_or, Bool.not_eq_true', Bool.not_eq_false, decide_eq_true_eq,
          not_not] at hsend
        obtain ⟨hlast, hrig⟩ := h.sent hsend.1
        rw [hsend.2]
        exact hrig.trans (congrArg toHamlibMode hlast.symm)
  | setFrequency hz =>
    change Follows ((implSetFrequency g r hz a).tuneView start) _
    rw [intend]
    split_ifs with hzero
    · rw [implSetFrequency, if_pos hzero]
      exact h
    · rw [tuneView_implSetFrequency start g r hzero]
      exact ⟨fun _ => rfl, fun _ => rfl, h.mode, fun _ => ⟨rfl, rfl⟩, fun _ => rfl⟩
  | setMode mode =>
    change Follows ((r.implSetMode mode a).tuneView start) _
    rw [tuneView_implSetMode]
    exact ⟨h.freq, h.asked, rfl, fun _ => ⟨rfl, rfl⟩, fun _ => rfl⟩
  | setPower pct =>
    change Follows ((implSetPower g r pct a).tuneView start) _
    rwa [tuneView_implSetPower]
  | setPtt on =>
    change Follows ((implSetPtt g r on a).tuneView start) _
    rwa [tuneView_implSetPtt]
  | sync => exact h.read (read_implSyncFromRadio start g r ha)
  | flush number => exact h

theorem tuneView_request (start : Tuning) (r : HamlibRadio) (cmd : RadioCommand) :
    (r.request cmd).tuneView start = r.tuneView start := by
  have henqueue : ∀ (r : HamlibRadio) (cmd : RadioCommand),
      (r.enqueue cmd).tuneView start = r.tuneView start := by
    intro r cmd
    unfold enqueue
    split_ifs <;> rfl
  cases cmd with
  | setFrequency hz =>
    rw [HamlibRadio.request, setFrequency]
    split_ifs
    · rfl
    · exact henqueue _ _
  | _ => exact henqueue _ _

theorem tuneView_take (start : Tuning) (r : HamlibRadio) :
    r.take.tuneView start = r.tuneView start := by
  unfold take
  cases r.inHand with
  | some cmd => rfl
  | none => cases r.cmdQueue <;> rfl

theorem Follows.dispatch {r : HamlibRadio} {served : List RadioCommand}
    (h : Follows (r.tuneView start) (wanted served)) (g : Rig)
    (ha : Faithful (r.tuning start) a) :
    Follows ((HamlibRadio.dispatch g r a).tuneView start) (wanted (served ++ r.inHand.toList)) := by
  unfold HamlibRadio.dispatch
  cases hhand : r.inHand with
  | none =>
    rw [Option.toList_none, List.append_nil]
    exact h
  | some cmd =>
    have hnext := h.workerDispatch g cmd ha
    rw [Option.toList_some, wanted, List.foldl_append]
    exact hnext

/-- The rig is opened once, does what it is told, and nobody else tunes it. -/
def Obeyed (start : Tuning) (t : Traced) : RadioOp → Prop
  | .start _ => t.radio.workerRunning = true
  | .request _ => True
  | .take => True
  | .dispatch a => Faithful (t.radio.tuning start) a
  | .stop a => Faithful (t.radio.tuning start) a

instance (start : Tuning) : DecidableRel (Obeyed start)
  | t, .start _ => inferInstanceAs (Decidable (t.radio.workerRunning = true))
  | _, .request _ => isTrue trivial
  | _, .take => isTrue trivial
  | t, .dispatch a => inferInstanceAs (Decidable (Faithful (t.radio.tuning start) a))
  | t, .stop a => inferInstanceAs (Decidable (Faithful (t.radio.tuning start) a))

theorem Follows.step {t : Traced} (h : Follows (t.radio.tuneView start) (wanted t.served))
    (g : Rig) (op : RadioOp) (hop : Obeyed start t op) :
    Follows ((Traced.step g t op).radio.tuneView start) (wanted (Traced.step g t op).served) := by
  cases op with
  | start opened =>
    have hruns : t.radio.workerRunning = true := hop
    have hstay : ¬ (opened && !t.radio.workerRunning) = true := by simp [hruns]
    have hsame : t.start opened = t := by
      rw [Traced.start, if_neg hstay, HamlibRadio.start, if_neg hstay]
    change Follows ((t.start opened).radio.tuneView start) (wanted (t.start opened).served)
    rwa [hsame]
  | request cmd =>
    have hserved : (Traced.step g t (.request cmd)).served = t.served := by
      unfold Traced.step Traced.request
      dsimp only
      cases asQueued cmd with
      | none => rfl
      | some c =>
        dsimp only
        split_ifs <;> rfl
    rw [radio_step, hserved]
    exact (tuneView_request start t.radio cmd).symm ▸ h
  | take => exact (tuneView_take start t.radio).symm ▸ h
  | dispatch a => exact h.dispatch g hop
  | stop a =>
    unfold Traced.step
    dsimp only
    split_ifs with hruns
    · have hstop := Follows.dispatch (r := { t.radio with workerRunning := false }) h g hop
      change Follows ((HamlibRadio.stop g t.radio a).tuneView start) _
      rw [HamlibRadio.stop, stopWorker, if_pos hruns]
      exact hstop
    · change Follows ((HamlibRadio.stop g t.radio a).tuneView start) _
      rw [HamlibRadio.stop, stopWorker, if_neg hruns]
      exact h

/-- **The rig follows.** Along every run of one connection the rig is where a worker that skips
nothing would have it: it has the mode that was last asked for and, once a frequency was asked
for, that frequency. -/
theorem rig_follows {ops : List RadioOp} {want : Want}
    (hobeyed : Machine.AllSteps (Traced.step g) (Obeyed start) (after g [.start true]) ops)
    (hwant : wanted (after g (.start true :: ops)).served = some want) :
    let rig := (after g (.start true :: ops)).radio.tuning start
    rig.mode = toHamlibMode want.mode ∧ (want.freq ≠ 0 → rig.freq = want.freq) := by
  let Inv := fun t : Traced => Follows (t.radio.tuneView start) (wanted t.served)
  have hstart : Inv (after g [.start true]) :=
    ⟨fun hne => absurd rfl hne, fun hne => absurd rfl hne, rfl, nofun, nofun⟩
  have hstep : ∀ t op, Inv t → Obeyed start t op → Inv (Traced.step g t op) :=
    fun t op h hop => h.step g op hop
  have hrun : Inv (Machine.run (Traced.step g) (after g [.start true]) ops) :=
    Machine.inv_run hstep hstart hobeyed
  have hlast : Inv (after g (.start true :: ops)) := hrun
  have htuned := hlast.tuned (by rw [hwant]; rfl)
  have hmode := hlast.mode
  have hfreq := hlast.asked
  rw [hwant, Option.getD_some] at hmode hfreq
  constructor
  · exact (hlast.sent htuned).2.trans (congrArg toHamlibMode hmode)
  · intro hne
    have hknown := hfreq hne
    exact (hlast.freq (hknown ▸ hne)).trans hknown

/-- Two hops in one mode, and a reading: the second hop skips the mode. -/
def hops : List RadioOp :=
  let hop : UInt32 → RadioOp := fun hz =>
    .request (.setChannel { txFrequency := hz, rxFrequency := hz, txMode := .lsb, rxMode := .lsb })
  let read : Answers := { silent with freq := some 7000000, mode := some .lsb }
  [hop 3500000, .take, hop 7000000, .dispatch silent, .take, .dispatch silent,
    .request .sync, .take, .dispatch read]

theorem rig_follows_hops :
    let rig := (after plainRig (.start true :: hops)).radio.tuning ⟨14000000, .usb⟩
    rig.mode = toHamlibMode .lsb ∧ ((7000000 : UInt32) ≠ 0 → rig.freq = 7000000) := by
  have hobeyed : Machine.AllSteps (Traced.step plainRig) (Obeyed ⟨14000000, .usb⟩)
      (after plainRig [.start true]) hops := by decide +kernel
  have hwant : wanted (after plainRig (.start true :: hops)).served =
      some ⟨7000000, .lsb⟩ := by decide +kernel
  exact rig_follows hobeyed hwant

/-! ## Split -/

/-- Whether the rig is in split. -/
def splitStep (split : Bool) : Cat → Bool
  | .setSplit on => on
  | _ => split

/-- Which calls a split state allows. -/
def Allowed (g : Rig) (split : Bool) : Cat → Prop
  | .setFreq _ => g.avoidRelayClick = true → g.splitSupported = true → split = true
  | .setPtt mode => mode ≠ .off → split = false
  | .setSplit _ => g.avoidRelayClick = true ∧ g.splitSupported = true
  | _ => True

/-- The worker knows the split state, and has made no call that it does not allow. -/
structure Disciplined (g : Rig) (r : HamlibRadio) : Prop where
  known : Machine.run splitStep false r.wire = r.splitState
  allowed : Machine.AllSteps splitStep (Allowed g) false r.wire
  only : r.splitState = true → g.avoidRelayClick = true ∧ g.splitSupported = true

namespace Disciplined

theorem send (h : Disciplined g r) (hc : Allowed g r.splitState c)
    (hsame : splitStep r.splitState c = r.splitState) : Disciplined g (r.send c) := by
  refine ⟨?_, ?_, h.only⟩
  · unfold HamlibRadio.send
    rw [Machine.run_append, h.known]
    exact hsame
  · exact Machine.allSteps_append.mpr ⟨h.allowed, h.known.symm ▸ hc, trivial⟩

theorem assertSplit (h : Disciplined g r) (havoid : g.avoidRelayClick = true) (on : Bool) :
    Disciplined g (assertSplit g r on) ∧
      (g.splitSupported = true → (HamlibRadio.assertSplit g r on).splitState = on) := by
  unfold HamlibRadio.assertSplit
  split_ifs with hsupported
  · refine ⟨⟨?_, ?_, fun _ => ⟨havoid, hsupported⟩⟩, fun _ => rfl⟩
    · unfold HamlibRadio.send
      rw [Machine.run_append]
      rfl
    · exact Machine.allSteps_append.mpr ⟨h.allowed, ⟨havoid, hsupported⟩, trivial⟩
  · exact ⟨h, fun hs => absurd hs hsupported⟩

theorem armSplit (h : Disciplined g r) :
    Disciplined g (armSplit g r) ∧
      (g.avoidRelayClick = true → g.splitSupported = true →
        (HamlibRadio.armSplit g r).splitState = true) := by
  unfold HamlibRadio.armSplit
  split_ifs with harm
  · rw [Bool.and_eq_true] at harm
    obtain ⟨hdisciplined, hon⟩ := h.assertSplit harm.1 true
    exact ⟨hdisciplined, fun _ => hon⟩
  · refine ⟨h, fun havoid _ => ?_⟩
    simpa [havoid] using harm

theorem assertMode (h : Disciplined g r) (mode : RadioMode) (a : Answers) :
    Disciplined g (r.assertMode mode a) := by
  have hsame : Disciplined g { r with
      lastModeCmd := a.now, lastSentMode := mode, modeEverSent := true } := ⟨h.1, h.2, h.3⟩
  exact hsame.send trivial rfl

theorem assertPower (h : Disciplined g r) (pct : Int) (a : Answers) :
    Disciplined g (assertPower g r pct a).1 := by
  unfold HamlibRadio.assertPower
  split_ifs
  · exact h.send trivial rfl
  · exact h

theorem implSetChannel (h : Disciplined g r) (ch : Channel) (a : Answers) :
    Disciplined g (implSetChannel g r ch a) := by
  unfold HamlibRadio.implSetChannel
  dsimp only
  obtain ⟨h₀, harmed⟩ := h.armSplit
  generalize HamlibRadio.armSplit g r = r₀ at h₀ harmed ⊢
  generalize hr₁ : (if ch.txFrequency ≠ r₀.currentChannel.txFrequency then
    r₀.send (.setFreq ch.txFrequency) else r₀) = r₁
  have h₁ : Disciplined g r₁ := by
    rw [← hr₁]
    split_ifs
    · exact h₀.send harmed rfl
    · exact h₀
  generalize hr₂ : (if (!r₁.modeEverSent || decide (ch.txMode ≠ r₁.lastSentMode)) = true then
    r₁.assertMode ch.txMode a else { r₁ with lastModeCmd := a.now }) = r₂
  have h₂ : Disciplined g r₂ := by
    rw [← hr₂]
    split_ifs
    · exact h₁.assertMode ch.txMode a
    · exact ⟨h₁.1, h₁.2, h₁.3⟩
  have hpower := h₂.assertPower ch.power a
  split_ifs <;> first
    | exact ⟨hpower.1, hpower.2, hpower.3⟩
    | exact ⟨h₂.1, h₂.2, h₂.3⟩

theorem implSetFrequency (h : Disciplined g r) (hz : UInt32) (a : Answers) :
    Disciplined g (implSetFrequency g r hz a) := by
  unfold HamlibRadio.implSetFrequency
  split_ifs
  · exact h
  · obtain ⟨h₀, harmed⟩ := h.armSplit
    have h₁ := h₀.send (c := .setFreq hz) harmed rfl
    have h₂ : Disciplined g { (HamlibRadio.armSplit g r).send (.setFreq hz) with
        currentChannel := { ((HamlibRadio.armSplit g r).send (.setFreq hz)).currentChannel with
          rxFrequency := hz, txFrequency := hz } } := ⟨h₁.1, h₁.2, h₁.3⟩
    have h₃ := h₂.assertMode r.currentChannel.txMode a
    exact ⟨h₃.1, h₃.2, h₃.3⟩

theorem implSetMode (h : Disciplined g r) (mode : RadioMode) (a : Answers) :
    Disciplined g (r.implSetMode mode a) := by
  have h₁ := h.assertMode mode a
  exact ⟨h₁.1, h₁.2, h₁.3⟩

theorem implSetPower (h : Disciplined g r) (pct : Int) (a : Answers) :
    Disciplined g (implSetPower g r pct a) := by
  unfold HamlibRadio.implSetPower
  dsimp only
  have h₁ := h.assertPower pct a
  split_ifs
  · exact ⟨h₁.1, h₁.2, h₁.3⟩
  · exact h₁

theorem implSetPtt (h : Disciplined g r) (on : Bool) (a : Answers) :
    Disciplined g (implSetPtt g r on a) := by
  unfold HamlibRadio.implSetPtt
  dsimp only
  generalize hr₁ : (if (g.avoidRelayClick && on && r.splitState) = true then
    HamlibRadio.assertSplit g r false else r) = r₁
  have h₁ : Disciplined g r₁ ∧ (on = true → r₁.splitState = false) := by
    rw [← hr₁]
    split_ifs with hdrop
    · rw [Bool.and_eq_true, Bool.and_eq_true] at hdrop
      obtain ⟨⟨havoid, -⟩, hsplit⟩ := hdrop
      obtain ⟨hdisciplined, hoff⟩ := h.assertSplit havoid false
      exact ⟨hdisciplined, fun _ => hoff (h.only hsplit).2⟩
    · refine ⟨h, fun hon => eq_false_of_ne_true fun hsplit => hdrop ?_⟩
      rw [(h.only hsplit).1, hon, hsplit]
      rfl
  have hallowed : Allowed g r₁.splitState (.setPtt (pttMode g on)) := by
    intro hne
    cases on with
    | true => exact h₁.2 rfl
    | false => exact absurd rfl hne
  have h₂ := h₁.1.send hallowed rfl
  have h₃ : ∀ b, Disciplined g
      { r₁.send (.setPtt (pttMode g on)) with transmitting := b } := fun _ => ⟨h₂.1, h₂.2, h₂.3⟩
  split_ifs with hrearm
  all_goals first
    | exact h₃ _
    | exact ((h₃ _).assertSplit (Bool.and_eq_true_iff.mp ‹(g.avoidRelayClick && !on) = true›).1
        true).1

theorem implSyncFromRadio (h : Disciplined g r) (a : Answers) :
    Disciplined g (implSyncFromRadio g r a) := by
  have hpower : ∀ r' : HamlibRadio, Disciplined g r' → Disciplined g (syncPower g r' a) := by
    intro r' h'
    have hget := h'.send (c := .getLevel) trivial rfl
    unfold syncPower
    split_ifs
    · dsimp only
      cases a.level with
      | none => exact hget
      | some level =>
        dsimp only
        split_ifs
        · exact ⟨hget.1, hget.2, hget.3⟩
        · exact hget
    · exact h'
  have hget := h.send (c := .getFreq) trivial rfl
  have hget' := hget.send (c := .getMode) trivial rfl
  unfold HamlibRadio.implSyncFromRadio
  split_ifs
  · exact h
  · dsimp only
    cases a.freq with
    | none => exact hget
    | some hz =>
      dsimp only
      cases a.mode with
      | none => exact hget'
      | some mode =>
        refine hpower _ ?_
        generalize (r.send .getFreq).send .getMode = r₁ at hget' ⊢
        generalize hr₂ : (if decide (hz ≠ r₁.currentChannel.txFrequency) = true then
          { r₁ with
            currentChannel := { r₁.currentChannel with rxFrequency := hz, txFrequency := hz }
            cachedChannel := { r₁.cachedChannel with rxFrequency := hz, txFrequency := hz } }
          else r₁) = r₂
        have h₂ : Disciplined g r₂ := by
          rw [← hr₂]
          split_ifs
          · exact ⟨hget'.1, hget'.2, hget'.3⟩
          · exact hget'
        split_ifs
        · exact h₂.send trivial rfl
        · exact h₂

theorem workerDispatch (h : Disciplined g r) (cmd : RadioCommand) (a : Answers) :
    Disciplined g (workerDispatch g r cmd a) := by
  have hsettle : ∀ r' : HamlibRadio, Disciplined g r' → Disciplined g r'.settleTune :=
    fun r' h' => ⟨h'.1, h'.2, h'.3⟩
  cases cmd with
  | setChannel ch => exact hsettle _ (h.implSetChannel ch a)
  | setFrequency hz => exact hsettle _ (h.implSetFrequency hz a)
  | setMode mode => exact hsettle _ (h.implSetMode mode a)
  | setPower pct => exact h.implSetPower pct a
  | setPtt on => exact h.implSetPtt on a
  | sync => exact h.implSyncFromRadio a
  | flush number => exact ⟨h.1, h.2, h.3⟩

theorem dispatch (h : Disciplined g r) (a : Answers) : Disciplined g (dispatch g r a) := by
  unfold HamlibRadio.dispatch
  cases r.inHand with
  | none => exact h
  | some cmd =>
    have hnext := h.workerDispatch cmd a
    exact ⟨hnext.1, hnext.2, hnext.3⟩

/-- What of a radio the split is about. -/
theorem congr {r' : HamlibRadio} (h : Disciplined g r) (hwire : r'.wire = r.wire)
    (hsplit : r'.splitState = r.splitState) : Disciplined g r' := by
  refine ⟨?_, ?_, ?_⟩
  · rw [hwire, hsplit]
    exact h.known
  · rw [hwire]
    exact h.allowed
  · rw [hsplit]
    exact h.only

theorem request (h : Disciplined g r) (cmd : RadioCommand) : Disciplined g (r.request cmd) := by
  have henqueue : ∀ (r' : HamlibRadio) (cmd : RadioCommand), r'.wire = r.wire →
      r'.splitState = r.splitState → Disciplined g (r'.enqueue cmd) := by
    intro r' cmd hwire hsplit
    unfold enqueue
    split_ifs
    · exact h.congr hwire hsplit
    · exact h.congr hwire hsplit
  cases cmd with
  | setFrequency hz =>
    rw [HamlibRadio.request, setFrequency]
    split_ifs
    · exact h
    · exact henqueue _ _ rfl rfl
  | _ => exact henqueue _ _ rfl rfl

/-- **What every step keeps.** -/
theorem step (h : Disciplined g r) (op : RadioOp) : Disciplined g (r.step g op) := by
  cases op with
  | start opened =>
    change Disciplined g (r.start opened)
    unfold HamlibRadio.start
    split_ifs
    · exact ⟨rfl, trivial, nofun⟩
    · exact h
  | request cmd => exact h.request cmd
  | take =>
    change Disciplined g r.take
    unfold take
    cases r.inHand with
    | some cmd => exact h
    | none =>
      cases r.cmdQueue with
      | nil => exact h
      | cons cmd rest => exact h.congr rfl rfl
  | dispatch a => exact h.dispatch a
  | stop a =>
    change Disciplined g (stop g r a)
    unfold stop stopWorker
    split_ifs
    · have hstopped : Disciplined g { r with workerRunning := false } := h.congr rfl rfl
      exact (hstopped.dispatch a).congr rfl rfl
    · exact h.congr rfl rfl

end Disciplined

/-- **The split discipline.** Along every run, where the relays must not click and the rig has
split, every frequency of a connection is sent in split; nothing is ever keyed in split, and
elsewhere split is left alone. -/
theorem split_discipline (g : Rig) (ops : List RadioOp) :
    Machine.AllSteps splitStep (Allowed g) false (Machine.run (HamlibRadio.step g) {} ops).wire := by
  have hstart : Disciplined g {} := ⟨rfl, trivial, nofun⟩
  have hstep : ∀ r op, Disciplined g r → Disciplined g (r.step g op) := fun _ op h => h.step op
  exact (Machine.allStates_of_inv' hstep hstart ops).last.allowed

end OpenALE.Pal
