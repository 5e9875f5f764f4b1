import OpenALE.Properties.RadioQueue

/-!
# What the radio says it is tuned to

`get_channel` reads a cache that a request writes at once and the worker again, so it runs ahead of
the worker while commands are outstanding. A field of it is written by some commands; when none of
them is outstanding it is what the worker knows.

Results:
* `Field.step`: one field, in one step.
* `cache_settled`: all but the power, when no tune is outstanding.
* `cache_power`: the power, where every power level is confirmed.
-/

namespace OpenALE.Pal

open HamlibRadio Traced

variable {g : Rig} {r r' : HamlibRadio} {cmd : RadioCommand} {a : Answers} {β : Type}
  {f : Channel → β} {writes : RadioCommand → Bool} {Fine : RadioCommand → Answers → Prop}

namespace Channel

/-- The frequency is set. -/
def atFrequency (ch : Channel) (hz : UInt32) : Channel :=
  { ch with rxFrequency := hz, txFrequency := hz }

/-- The mode is set. -/
def inMode (ch : Channel) (mode : RadioMode) : Channel := { ch with rxMode := mode, txMode := mode }

/-- The power is set. -/
def atPower (ch : Channel) (power : Int) : Channel := { ch with power }

end Channel

/-! ## What a command does to the two channels -/

namespace HamlibRadio

/-- The cache, and what the worker knows. -/
def channels (r : HamlibRadio) : Channel × Channel := (r.cachedChannel, r.currentChannel)

/-- Both are changed alike. -/
def alike (u : Channel → Channel) (r : HamlibRadio) : Channel × Channel :=
  (u r.cachedChannel, u r.currentChannel)

theorem channels_assertSplit (g : Rig) (r : HamlibRadio) (on : Bool) :
    (assertSplit g r on).channels = r.channels := by
  unfold assertSplit
  split_ifs <;> rfl

theorem channels_armSplit (g : Rig) (r : HamlibRadio) : (armSplit g r).channels = r.channels := by
  unfold armSplit
  split_ifs
  · exact channels_assertSplit g r true
  · rfl

theorem channels_assertPower (g : Rig) (r : HamlibRadio) (pct : Int) (a : Answers) :
    (assertPower g r pct a).1.channels = r.channels := by
  unfold assertPower
  split_ifs <;> rfl

theorem channels_implSetChannel (g : Rig) (r : HamlibRadio) (ch : Channel) (a : Answers) :
    (implSetChannel g r ch a).cachedChannel = (implSetChannel g r ch a).currentChannel := rfl

theorem channels_implSetFrequency (g : Rig) (r : HamlibRadio) {hz : UInt32} (h : hz ≠ 0)
    (a : Answers) : (implSetFrequency g r hz a).channels = r.alike (·.atFrequency hz) := by
  rw [implSetFrequency, if_neg h]
  have harm := channels_armSplit g r
  exact congrArg (fun p => (p.1.atFrequency hz, p.2.atFrequency hz)) harm

theorem channels_implSetPower (g : Rig) (r : HamlibRadio) (pct : Int) (a : Answers) :
    (implSetPower g r pct a).channels =
      if g.powerSupported && a.levelOk then r.alike (·.atPower pct) else r.channels := by
  unfold implSetPower assertPower
  cases hsupported : g.powerSupported <;> cases hok : a.levelOk <;> rfl

theorem channels_implSetPtt (g : Rig) (r : HamlibRadio) (on : Bool) (a : Answers) :
    (implSetPtt g r on a).channels = r.channels := by
  unfold implSetPtt
  dsimp only
  generalize hr₁ : (if (g.avoidRelayClick && on && r.splitState) = true then
    assertSplit g r false else r) = r₁
  have h₁ : r₁.channels = r.channels := by
    rw [← hr₁, apply_ite channels, channels_assertSplit, ite_self]
  rw [← h₁]
  split_ifs
  all_goals first | exact channels_assertSplit g _ true | rfl

end HamlibRadio

/-! ## A field of the channels -/

/-- A field is changed alike wherever it is alike. -/
structure Separate (f : Channel → β) : Prop where
  freq : ∀ ch ch' : Channel, f ch = f ch' → ∀ hz, f (ch.atFrequency hz) = f (ch'.atFrequency hz)
  mode : ∀ ch ch' : Channel, f ch = f ch' → ∀ mode, f (ch.inMode mode) = f (ch'.inMode mode)
  power : ∀ ch ch' : Channel, f ch = f ch' → ∀ power, f (ch.atPower power) = f (ch'.atPower power)

/-- The cache tells what the worker knows about a field. -/
def Agree (f : Channel → β) (r : HamlibRadio) : Prop := f r.cachedChannel = f r.currentChannel

/-- A command that does what a predicate tells is in hand or waits. -/
def Pending (writes : RadioCommand → Bool) (r : HamlibRadio) : Prop :=
  ∃ cmd, writes cmd = true ∧ (r.inHand = some cmd ∨ cmd ∈ r.cmdQueue)

theorem Agree.congr (h : Agree f r) (hchannels : r'.channels = r.channels) : Agree f r' := by
  obtain ⟨hcached, hcurrent⟩ := Prod.mk.injEq .. ▸ hchannels
  unfold Agree
  rwa [hcached, hcurrent]

theorem Agree.of_alike {u : Channel → Channel} (hchannels : r'.channels = r.alike u)
    (h : f (u r.cachedChannel) = f (u r.currentChannel)) : Agree f r' := by
  obtain ⟨hcached, hcurrent⟩ := Prod.mk.injEq .. ▸ hchannels
  unfold Agree
  rwa [hcached, hcurrent]

theorem Agree.syncPower (hf : Separate f) (h : Agree f r) (g : Rig) (a : Answers) :
    Agree f (syncPower g r a) := by
  unfold HamlibRadio.syncPower
  split_ifs
  · dsimp only
    cases a.level with
    | none => exact h
    | some level =>
      dsimp only
      split_ifs
      · exact hf.power _ _ h (clampPct level)
      · exact h
  · exact h

theorem Agree.implSyncFromRadio (hf : Separate f) (h : Agree f r) (g : Rig) (a : Answers) :
    Agree f (implSyncFromRadio g r a) := by
  unfold HamlibRadio.implSyncFromRadio
  split_ifs
  · exact h
  · dsimp only
    cases a.freq with
    | none => exact h
    | some hz =>
      dsimp only
      cases a.mode with
      | none => exact h
      | some mode =>
        refine Agree.syncPower hf ?_ g a
        generalize hr₁ : (r.send .getFreq).send .getMode = r₁
        have h₁ : Agree f r₁ := hr₁ ▸ h
        have hchanged : Agree f { r₁ with
            currentChannel := { r₁.currentChannel with rxFrequency := hz, txFrequency := hz }
            cachedChannel := { r₁.cachedChannel with rxFrequency := hz, txFrequency := hz } } :=
          hf.freq _ _ h₁ hz
        split_ifs
        all_goals first | exact h₁ | exact hchanged

/-- A command that is carried out. -/
theorem Agree.workerDispatch (hf : Separate f) (h : Agree f r) (g : Rig) (cmd : RadioCommand)
    (a : Answers) : Agree f (workerDispatch g r cmd a) := by
  cases cmd with
  | setChannel ch => exact congrArg f (channels_implSetChannel g r ch a)
  | setFrequency hz =>
    change Agree f (implSetFrequency g r hz a).settleTune
    by_cases hz0 : hz = 0
    · rw [implSetFrequency, if_pos hz0]
      exact h
    · exact .of_alike (channels_implSetFrequency g r hz0 a) (hf.freq _ _ h hz)
  | setMode mode => exact hf.mode _ _ h mode
  | setPower pct =>
    have hpower := channels_implSetPower g r pct a
    change Agree f (implSetPower g r pct a)
    split_ifs at hpower
    · exact .of_alike hpower (hf.power _ _ h pct)
    · exact h.congr hpower
  | setPtt on => exact h.congr (channels_implSetPtt g r on a)
  | sync => exact h.implSyncFromRadio hf g a
  | flush number => exact h

/-- A field of the channels, and the commands that write it if they are answered as they should. -/
structure Field (g : Rig) (f : Channel → β) (writes : RadioCommand → Bool)
    (Fine : RadioCommand → Answers → Prop) : Prop extends Separate f where
  /-- A command that writes it leaves it alike. -/
  written : ∀ r cmd a, writes cmd = true → Fine cmd a → Agree f (workerDispatch g r cmd a)
  /-- Any other request leaves it alone. -/
  left : ∀ (r : HamlibRadio) cmd, writes cmd = false →
    f (r.request cmd).cachedChannel = f r.cachedChannel
  clamped : ∀ pct, writes (.setPower (clampPct pct)) = writes (.setPower pct)

theorem Field.queued (hf : Field g f writes Fine) {c : RadioCommand} (h : asQueued cmd = some c) :
    writes c = writes cmd := by
  cases cmd with
  | setFrequency hz =>
    rw [asQueued] at h
    split_ifs at h
    obtain rfl := Option.some.inj h
    rfl
  | setPower pct =>
    obtain rfl := Option.some.inj h
    exact hf.clamped pct
  | _ =>
    obtain rfl := Option.some.inj h
    rfl

theorem mem_enqueue (p : RadioCommand → Bool) (c x : RadioCommand) (q : List RadioCommand) :
    x ∈ Priority.enqueue p c q ↔ x = c ∨ x ∈ q := by
  unfold Priority.enqueue
  split_ifs
  · have hsplit : x ∈ q ↔ x ∈ q.takeWhile p ∨ x ∈ q.dropWhile p := by
      rw [← List.mem_append, List.takeWhile_append_dropWhile]
    rw [List.mem_append, List.mem_cons, hsplit]
    exact or_left_comm
  · rw [List.mem_append, List.mem_singleton]
    exact or_comm

/-- A request writes the cache. -/
theorem cached_request (r : HamlibRadio) (cmd : RadioCommand) :
    (r.request cmd).cachedChannel = match cmd with
      | .setChannel ch => ch
      | .setFrequency hz => if hz = 0 then r.cachedChannel else r.cachedChannel.atFrequency hz
      | .setMode mode => r.cachedChannel.inMode mode
      | .setPower pct => r.cachedChannel.atPower (clampPct pct)
      | .setPtt _ => r.cachedChannel
      | .sync => r.cachedChannel
      | .flush _ => r.cachedChannel := by
  have henqueue : ∀ (r : HamlibRadio) (cmd : RadioCommand),
      (r.enqueue cmd).cachedChannel = r.cachedChannel := by
    intro r cmd
    unfold enqueue
    split_ifs <;> rfl
  cases cmd with
  | setFrequency hz =>
    rw [HamlibRadio.request, setFrequency]
    dsimp only
    split_ifs
    · rfl
    · exact henqueue _ _
  | _ => exact henqueue _ _

theorem current_request (r : HamlibRadio) (cmd : RadioCommand) :
    (r.request cmd).currentChannel = r.currentChannel := by
  have henqueue : ∀ (r : HamlibRadio) (cmd : RadioCommand),
      (r.enqueue cmd).currentChannel = r.currentChannel := by
    intro r cmd
    unfold enqueue
    split_ifs <;> rfl
  cases cmd with
  | setFrequency hz =>
    rw [HamlibRadio.request, setFrequency]
    split_ifs
    · rfl
    · exact henqueue _ _
  | _ => exact henqueue _ _

/-- The step meets what the field asks of the answers. -/
def Answered (Fine : RadioCommand → Answers → Prop) (r : HamlibRadio) : RadioOp → Prop
  | .dispatch a => ∀ cmd, r.inHand = some cmd → Fine cmd a
  | _ => True

/-- A field of the cache is right, or what will write it is outstanding. -/
def Cached (f : Channel → β) (writes : RadioCommand → Bool) (r : HamlibRadio) : Prop :=
  r.workerRunning = true → Agree f r ∨ Pending writes r

theorem Cached.request (hf : Field g f writes Fine) (h : Cached f writes r) (cmd : RadioCommand) :
    Cached f writes (r.request cmd) := by
  cases hqueued : asQueued cmd with
  | none => rwa [view_request_none hqueued]
  | some c =>
    obtain ⟨hqueue, hhand, hrun, -⟩ := of_view (view_request (r := r) c hqueued)
    unfold queued at hqueue
    intro hruns
    rw [hrun] at hruns
    rw [if_pos hruns] at hqueue
    cases hwrites : writes cmd with
    | true =>
      refine .inr ⟨c, (hf.queued hqueued).trans hwrites, .inr ?_⟩
      rw [hqueue, mem_enqueue]
      exact .inl rfl
    | false =>
      obtain hagree | ⟨x, hx, hpending⟩ := h hruns
      · refine .inl ?_
        unfold Agree
        rw [hf.left r cmd hwrites, current_request]
        exact hagree
      · refine .inr ⟨x, hx, ?_⟩
        rw [hhand, hqueue, mem_enqueue]
        exact hpending.imp_right .inr

theorem Cached.take (h : Cached f writes r) : Cached f writes r.take := by
  unfold HamlibRadio.take
  cases hhand : r.inHand with
  | some cmd => exact h
  | none =>
    cases hqueue : r.cmdQueue with
    | nil => exact h
    | cons cmd rest =>
      intro hruns
      refine (h hruns).imp_right ?_
      rintro ⟨x, hx, hmem | hmem⟩
      · rw [hhand] at hmem
        cases hmem
      · rw [hqueue] at hmem
        obtain rfl | hrest := List.mem_cons.mp hmem
        · exact ⟨x, hx, .inl rfl⟩
        · exact ⟨x, hx, .inr hrest⟩

theorem Cached.dispatch (hf : Field g f writes Fine) (h : Cached f writes r) (a : Answers)
    (hfine : ∀ cmd, r.inHand = some cmd → Fine cmd a) :
    Cached f writes (dispatch g r a) := by
  unfold HamlibRadio.dispatch
  cases hhand : r.inHand with
  | none => exact h
  | some cmd =>
    dsimp only
    obtain ⟨hqueue, -, hrun, -⟩ := of_view (view_workerDispatch g r cmd a)
    intro hruns
    rw [show ({ HamlibRadio.workerDispatch g r cmd a with inHand := none } :
      HamlibRadio).workerRunning = r.workerRunning from hrun] at hruns
    cases hwrites : writes cmd with
    | true => exact .inl (hf.written r cmd a hwrites (hfine cmd hhand))
    | false =>
      obtain hagree | ⟨x, hx, hmem | hmem⟩ := h hruns
      · exact .inl (hagree.workerDispatch hf.toSeparate g cmd a)
      · rw [hhand] at hmem
        rw [← Option.some.inj hmem, hwrites] at hx
        cases hx
      · exact .inr ⟨x, hx, .inr (hqueue ▸ hmem)⟩

/-- **What every step keeps.** -/
theorem Field.step (hf : Field g f writes Fine) (h : Cached f writes r) (op : RadioOp)
    (hop : Answered Fine r op) : Cached f writes (r.step g op) := by
  cases op with
  | start opened =>
    change Cached f writes (r.start opened)
    unfold HamlibRadio.start
    split_ifs
    · exact fun _ => .inl rfl
    · exact h
  | request cmd => exact h.request hf cmd
  | take => exact h.take
  | dispatch a => exact h.dispatch hf a hop
  | stop a =>
    change Cached f writes (stop g r a)
    unfold stop stopWorker
    intro hruns
    split_ifs at hruns with hwas
    · have hrun := (of_view (view_dispatch g { r with workerRunning := false } a)).2.2.1
      exact Bool.noConfusion (hruns.symm.trans hrun)
    · exact absurd hruns hwas

/-- Along every run a field of the cache is right, or what will write it is outstanding. -/
theorem Field.cached (hf : Field g f writes Fine) {ops : List RadioOp}
    (hops : Machine.AllSteps (HamlibRadio.step g) (Answered Fine) {} ops) :
    Cached f writes (Machine.run (HamlibRadio.step g) {} ops) := by
  have hstep : ∀ r op, Cached f writes r → Answered Fine r op → Cached f writes (r.step g op) :=
    fun _ op h hop => hf.step h op hop
  exact Machine.inv_run hstep nofun hops

/-! ## The fields -/

def writesFrequency : RadioCommand → Bool
  | .setChannel _ => true
  | .setFrequency hz => hz ≠ 0
  | _ => false

def writesMode : RadioCommand → Bool
  | .setChannel _ => true
  | .setMode _ => true
  | _ => false

def writesRest : RadioCommand → Bool
  | .setChannel _ => true
  | _ => false

def writesPower : RadioCommand → Bool
  | .setChannel _ => true
  | .setPower _ => true
  | _ => false

/-- A power level is only set if the rig confirms it. -/
def Confirmed (g : Rig) (cmd : RadioCommand) (a : Answers) : Prop :=
  ∀ pct, cmd = .setPower pct → g.powerSupported = true ∧ a.levelOk = true

theorem agree_setChannel (f : Channel → β) (g : Rig) (r : HamlibRadio) (ch : Channel) (a : Answers) :
    Agree f (workerDispatch g r (.setChannel ch) a) :=
  congrArg f (channels_implSetChannel g r ch a)

theorem field_frequency (g : Rig) :
    Field g (fun ch => (ch.txFrequency, ch.rxFrequency)) writesFrequency fun _ _ => True where
  freq _ _ _ _ := rfl
  mode _ _ h _ := h
  power _ _ h _ := h
  written := by
    intro r cmd a hwrites _
    cases cmd with
    | setChannel ch => exact agree_setChannel _ g r ch a
    | setFrequency hz =>
      have hz0 : hz ≠ 0 := of_decide_eq_true hwrites
      change Agree _ (implSetFrequency g r hz a).settleTune
      exact .of_alike (channels_implSetFrequency g r hz0 a) rfl
    | _ => cases hwrites
  left := by
    intro r cmd hwrites
    rw [cached_request]
    cases cmd with
    | setChannel ch => cases hwrites
    | setFrequency hz =>
      have hz0 : hz = 0 := not_not.mp (of_decide_eq_false hwrites)
      dsimp only
      rw [if_pos hz0]
    | _ => rfl
  clamped _ := rfl

theorem field_mode (g : Rig) :
    Field g (fun ch => (ch.txMode, ch.rxMode)) writesMode fun _ _ => True where
  freq _ _ h _ := h
  mode _ _ _ _ := rfl
  power _ _ h _ := h
  written := by
    intro r cmd a hwrites _
    cases cmd with
    | setChannel ch => exact agree_setChannel _ g r ch a
    | setMode mode => exact rfl
    | _ => cases hwrites
  left := by
    intro r cmd hwrites
    rw [cached_request]
    cases cmd with
    | setFrequency hz =>
      dsimp only
      split_ifs <;> rfl
    | setChannel ch => cases hwrites
    | setMode mode => cases hwrites
    | _ => rfl
  clamped _ := rfl

theorem field_rest (g : Rig) :
    Field g (fun ch => (ch.id, ch.antenna, ch.attenuation, ch.inUse)) writesRest
      fun _ _ => True where
  freq _ _ h _ := h
  mode _ _ h _ := h
  power _ _ h _ := h
  written := by
    intro r cmd a hwrites _
    cases cmd with
    | setChannel ch => exact agree_setChannel _ g r ch a
    | _ => cases hwrites
  left := by
    intro r cmd hwrites
    rw [cached_request]
    cases cmd with
    | setFrequency hz =>
      dsimp only
      split_ifs <;> rfl
    | setChannel ch => cases hwrites
    | _ => rfl
  clamped _ := rfl

theorem field_power (g : Rig) : Field g Channel.power writesPower (Confirmed g) where
  freq _ _ h _ := h
  mode _ _ h _ := h
  power _ _ _ _ := rfl
  written := by
    intro r cmd a hwrites hfine
    cases cmd with
    | setChannel ch => exact agree_setChannel _ g r ch a
    | setPower pct =>
      obtain ⟨hsupported, hok⟩ := hfine pct rfl
      have h := channels_implSetPower g r pct a
      rw [hsupported, hok, if_pos (by rfl)] at h
      exact .of_alike h rfl
    | _ => cases hwrites
  left := by
    intro r cmd hwrites
    rw [cached_request]
    cases cmd with
    | setFrequency hz =>
      dsimp only
      split_ifs <;> rfl
    | setChannel ch => cases hwrites
    | setPower pct => cases hwrites
    | _ => rfl
  clamped _ := rfl

/-! ## The cache -/

/-- What writes a field is a tune. -/
theorem Field.settled (hf : Field g f writes fun _ _ => True)
    (htune : ∀ cmd, writes cmd = true → cmd.isTune = true) {ops : List RadioOp}
    (hruns : (Machine.run (HamlibRadio.step g) {} ops).workerRunning = true)
    (hsettled : (Machine.run (HamlibRadio.step g) {} ops).isTuneSettled = true) :
    Agree f (Machine.run (HamlibRadio.step g) {} ops) := by
  have hops : Machine.AllSteps (HamlibRadio.step g) (Answered fun _ _ => True) {} ops := by
    have hany : Machine.AllStates (HamlibRadio.step g) (fun _ => True) {} ops :=
      Machine.allStates_of_inv' (fun _ _ _ => trivial) trivial ops
    refine hany.allSteps fun r op _ => ?_
    cases op with
    | dispatch a => exact fun _ _ => trivial
    | _ => trivial
  refine (hf.cached hops hruns).resolve_right ?_
  rintro ⟨cmd, hwrites, hpending⟩
  exact (settled_iff hruns).mp hsettled ⟨cmd, htune cmd hwrites, hpending⟩

/-- **The settled cache.** Along every run, while the worker runs and no tune is outstanding,
`get_channel` tells what the worker knows, up to the power. -/
theorem cache_settled {ops : List RadioOp}
    (hruns : (Machine.run (HamlibRadio.step g) {} ops).workerRunning = true)
    (hsettled : (Machine.run (HamlibRadio.step g) {} ops).isTuneSettled = true) :
    let r := Machine.run (HamlibRadio.step g) {} ops
    r.cachedChannel = r.currentChannel.atPower r.cachedChannel.power := by
  have hfreq := (field_frequency g).settled (fun cmd h => by cases cmd <;> first | rfl | cases h)
    hruns hsettled
  have hmode := (field_mode g).settled (fun cmd h => by cases cmd <;> first | rfl | cases h)
    hruns hsettled
  have hrest := (field_rest g).settled (fun cmd h => by cases cmd <;> first | rfl | cases h)
    hruns hsettled
  dsimp only
  generalize Machine.run (HamlibRadio.step g) {} ops = r at *
  unfold Agree at hfreq hmode hrest
  simp only [Prod.mk.injEq] at hfreq hmode hrest
  obtain ⟨htx, hrx⟩ := hfreq
  obtain ⟨htxMode, hrxMode⟩ := hmode
  obtain ⟨hid, hantenna, hattenuation, hinUse⟩ := hrest
  unfold Channel.atPower
  rw [← htx, ← hrx, ← htxMode, ← hrxMode, ← hid, ← hantenna, ← hattenuation, ← hinUse]

/-- A hop and a power level that the rig does not confirm. -/
def powerRun : List RadioOp :=
  [.start true, .request (.setChannel { txFrequency := 7000000, rxFrequency := 7000000 }),
    .request (.setPower 10), .take, .dispatch silent, .take, .dispatch silent]

theorem cache_settled_power :
    let r := Machine.run (HamlibRadio.step plainRig) {} powerRun
    r.cachedChannel = r.currentChannel.atPower r.cachedChannel.power :=
  cache_settled (by decide +kernel) (by decide +kernel)

/-- **The power in the cache.** Where every power level that is carried out is confirmed, and while
neither one nor a hop is outstanding, `get_channel` tells the power that the worker knows. -/
theorem cache_power {ops : List RadioOp}
    (hops : Machine.AllSteps (HamlibRadio.step g) (Answered (Confirmed g)) {} ops)
    (hruns : (Machine.run (HamlibRadio.step g) {} ops).workerRunning = true)
    (hpending : ¬ Pending writesPower (Machine.run (HamlibRadio.step g) {} ops)) :
    (Machine.run (HamlibRadio.step g) {} ops).cachedChannel.power =
      (Machine.run (HamlibRadio.step g) {} ops).currentChannel.power :=
  ((field_power g).cached hops hruns).resolve_right hpending

theorem cache_power_confirmed :
    let ops : List RadioOp := [.start true, .request (.setPower 10), .take,
      .dispatch { silent with levelOk := true }]
    let r := Machine.run (HamlibRadio.step { plainRig with powerSupported := true }) {} ops
    r.cachedChannel.power = r.currentChannel.power := by
  refine cache_power ⟨trivial, trivial, trivial, fun _ _ _ _ => ⟨rfl, rfl⟩, trivial⟩
    (by decide +kernel) ?_
  rintro ⟨cmd, -, hmem | hmem⟩
  · cases hmem
  · cases hmem

/-- A level that is not confirmed stays in the cache. -/
example :
    let r := Machine.run (HamlibRadio.step plainRig) {}
      [.start true, .request (.setPower 10), .take, .dispatch silent]
    r.cachedChannel.power = 10 ∧ r.currentChannel.power = 100 := by decide +kernel

end OpenALE.Pal
