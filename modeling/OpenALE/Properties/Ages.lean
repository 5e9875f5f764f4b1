import OpenALE.Library.Machine
import OpenALE.Lqa.Exchange

/-!
# The ages of channel qualities

The database stamps its entries with the wall clock, truncated to 32 bits, or with a timestamp it
is given; the controller gives it 0, which stands for the wall clock, and in three places the clock
of its `update`: the measurement of a word heard in a handshake or a link, the mark of a failed
handshake, and a noise report.

Results:
* `ages_right`: along a run the age code, the age behind the recency and the penalty are those of
  the time gone by, and pruning spares what was touched within `max_age_ms`, if every timestamp
  given is the wall clock's, no mark meets an older entry and the 32 bits do not run over while an
  entry is held.
* `ages_fail`: a mark stamped ten minutes after the start is pruned at once.
-/

namespace OpenALE

open LQADatabase

/-! ## The database in time -/

/-- The database with the wall clock and what truly happened when. -/
structure Chronicle where
  db : LQADatabase := {}
  wall : Nat := 0
  /-- When an entry was last measured, reported or marked. -/
  touched : Nat → Str → Nat := fun _ _ => 0
  /-- When its handshake last failed. -/
  failed : Nat → Str → Option Nat := fun _ _ => none

/-- What the controller does to the database; `tick` is a timestamp it gives. -/
inductive LqaOp where
  | pass (wall : Nat)
  | measure (f : Nat) (s : Str) (m : Measurement) (tick : UInt32)
  | sound (f : Nat) (s : Str) (m : Measurement) (twas : Bool)
  | bilateral (f : Nat) (s : Str) (sinad ber mp : Nat)
  | attempt (f : Nat) (s : Str)
  | fail (f : Nat) (s : Str) (tick : UInt32)
  | noise (f maxDb meanDb : Nat) (tick : UInt32)
  | prune
  deriving Repr, DecidableEq

/-- Table VI on the time gone by. -/
def ageCodeOf (elapsedMs : Nat) : Nat :=
  if elapsedMs ≤ 900000 then 0
  else if elapsedMs < 1800000 then 1
  else if elapsedMs < 3600000 then 2
  else if elapsedMs < 14400000 then 3
  else if elapsedMs < 28800000 then 4
  else if elapsedMs < 57600000 then 5
  else if elapsedMs < 90000000 then 6
  else 7

namespace Chronicle

/-- The wall clock as the database reads it. -/
def now (x : Chronicle) : UInt32 := UInt32.ofNat x.wall

/-- The entry of `f` and `s` is touched; one that is new has no failed handshake. -/
def note (x : Chronicle) (f : Nat) (s : Str) (db : LQADatabase) : Chronicle :=
  { x with
    db := db
    touched := fun g u => if g = f ∧ u = s then x.wall else x.touched g u
    failed := fun g u =>
      if g = f ∧ u = s ∧ (x.db.find f s).isNone = true then none else x.failed g u }

/-- A measurement. -/
def measure (x : Chronicle) (f : Nat) (s : Str) (m : Measurement) (tick : UInt32) : Chronicle :=
  x.note f s (x.db.updateEntryExtended f s m tick x.now)

/-- One operation. -/
def step (x : Chronicle) : LqaOp → Chronicle
  | .pass w => { x with wall := max x.wall w }
  | .measure f s m tick => x.measure f s m tick
  | .sound f s m twas =>
    let x := (x.measure f [] m x.now).measure f s m x.now
    { x with db := x.db.setSoundingAvailability f s twas x.now x.now }
  | .bilateral f s sinad ber mp => x.note f s (x.db.updateBilateral f s sinad ber mp 0 x.now)
  | .attempt f s =>
    let db := x.db.markBilateralAttempted f s x.now
    if (x.db.find f s).isNone then x.note f s db else { x with db := db }
  | .fail f s tick =>
    let y := x.note f s (x.db.recordHandshakeFail f s tick x.now)
    { y with failed := fun g u => if g = f ∧ u = s then some x.wall else y.failed g u }
  | .noise f maxDb meanDb tick =>
    if maxDb = 127 ∧ meanDb = 127 then x
    else x.note f [] (x.db.updateNoiseFloor f maxDb meanDb tick x.now)
  | .prune => { x with db := x.db.pruneStaleEntries x.now }

/-! ## The property -/

/-- The time since an entry was touched. -/
def elapsed (x : Chronicle) (e : LQAEntry) : Nat :=
  x.wall - x.touched e.frequencyHz e.remoteStation

/-- The age code, the recency and the penalty of an entry are those of the time gone by. -/
structure AgeRight (windowMs : UInt32) (x : Chronicle) (e : LQAEntry) : Prop where
  code : e.remoteStation ≠ [] → lqaAgeCode e.lastContactMs x.now = ageCodeOf (x.elapsed e)
  recency : (e.ageMs x.now).map UInt32.toNat = some (x.elapsed e)
  penalty : e.penalised windowMs x.now = true ↔
    ∃ t, x.failed e.frequencyHz e.remoteStation = some t ∧ x.wall - t < windowMs.toNat

/-- Every entry's ages are right. -/
def AgesRight (windowMs : UInt32) (x : Chronicle) : Prop :=
  ∀ e ∈ x.db.entries, x.AgeRight windowMs e

/-- Pruning spares what was touched within `max_age_ms`. -/
def Spares (x : Chronicle) (op : LqaOp) : Prop :=
  op = .prune → ∀ e ∈ x.db.entries, x.elapsed e ≤ x.db.config.maxAgeMs.toNat →
    e ∈ (x.step op).db.entries

/-- The timestamp is the wall clock's, and not the reading 0 that stands for "never". -/
def Clocked (x : Chronicle) (tick : UInt32) : Prop := x.now ≠ 0 ∧ (tick = 0 ∨ tick = x.now)

/-- The step keeps to one clock. -/
def OneClock (x : Chronicle) : LqaOp → Prop
  | .pass w => x.db.entries = [] ∨ max x.wall w / 2 ^ 32 = x.wall / 2 ^ 32
  | .measure _ _ _ tick => x.Clocked tick
  | .sound _ _ _ _ | .bilateral _ _ _ _ _ => x.now ≠ 0
  | .attempt f s => (x.db.find f s).isNone = true → x.now ≠ 0
  | .fail f s tick => x.Clocked tick ∧
    ((x.db.find f s).isNone = true ∨ x.touched f s = x.wall)
  | .noise _ maxDb meanDb tick => maxDb = 127 ∧ meanDb = 127 ∨ x.Clocked tick
  | .prune => True

instance (x : Chronicle) (tick : UInt32) : Decidable (x.Clocked tick) :=
  inferInstanceAs (Decidable (_ ∧ _))

instance : DecidableRel OneClock
  | x, .pass w => inferInstanceAs (Decidable (x.db.entries = [] ∨ max x.wall w / 2 ^ 32 = _))
  | x, .measure _ _ _ tick => inferInstanceAs (Decidable (x.Clocked tick))
  | x, .sound _ _ _ _ => inferInstanceAs (Decidable (x.now ≠ 0))
  | x, .bilateral _ _ _ _ _ => inferInstanceAs (Decidable (x.now ≠ 0))
  | x, .attempt f s => inferInstanceAs (Decidable ((x.db.find f s).isNone = true → x.now ≠ 0))
  | x, .fail f s tick =>
    inferInstanceAs (Decidable (x.Clocked tick ∧ ((x.db.find f s).isNone = true ∨ _ = x.wall)))
  | x, .noise _ maxDb meanDb tick =>
    inferInstanceAs (Decidable (maxDb = 127 ∧ meanDb = 127 ∨ x.Clocked tick))
  | _, .prune => isTrue trivial

/-! ## Stamps -/

/-- A stamp of 32 bits that stands for the time `t`, at the wall clock reading `wall`. -/
structure Stands (wall t : Nat) (stamp : UInt32) : Prop where
  past : t ≤ wall
  epoch : t / 2 ^ 32 = wall / 2 ^ 32
  value : stamp.toNat = t % 2 ^ 32
  pos : stamp ≠ 0

/-- The stamps of an entry touched at `t`, whose handshake failed at `failed`. -/
structure Dated (wall t : Nat) (failed : Option Nat) (e : LQAEntry) : Prop where
  activity : Stands wall t e.lastActivityMs
  contact : e.remoteStation ≠ [] → e.lastContactMs = e.lastActivityMs
  mark : ∀ u, failed = some u → Stands wall u e.lastFailedHandshakeMs
  unmarked : failed = none → e.lastFailedHandshakeMs = 0

theorem Stands.toNat_sub {wall t : Nat} {stamp : UInt32} (h : Stands wall t stamp) :
    (UInt32.ofNat wall - stamp).toNat = wall - t := by
  obtain ⟨hle, hep, hv, -⟩ := h
  rw [UInt32.toNat_sub, UInt32.toNat_ofNat', hv]
  omega

theorem Stands.le_now {wall t : Nat} {stamp : UInt32} (h : Stands wall t stamp) :
    stamp ≤ UInt32.ofNat wall := by
  obtain ⟨hle, hep, hv, -⟩ := h
  rw [UInt32.le_iff_toNat_le, UInt32.toNat_ofNat', hv]
  omega

theorem Stands.pass {wall wall' t : Nat} {stamp : UInt32} (h : Stands wall t stamp)
    (hle : wall ≤ wall') (hep : wall' / 2 ^ 32 = wall / 2 ^ 32) : Stands wall' t stamp :=
  ⟨h.past.trans hle, h.epoch.trans hep.symm, h.value, h.pos⟩

theorem stands_now {wall : Nat} (h : UInt32.ofNat wall ≠ 0) :
    Stands wall wall (UInt32.ofNat wall) :=
  ⟨le_rfl, rfl, UInt32.toNat_ofNat', h⟩

theorem ageCode_eq {wall t : Nat} {stamp : UInt32} (h : Stands wall t stamp) :
    lqaAgeCode stamp (UInt32.ofNat wall) = ageCodeOf (wall - t) := by
  have hsub := h.toNat_sub
  have hguard : ¬ (stamp = 0 ∨ UInt32.ofNat wall < stamp) := by
    intro hg
    exact hg.elim h.pos (UInt32.not_lt.mpr h.le_now)
  unfold lqaAgeCode ageCodeOf
  rw [if_neg hguard]
  dsimp only
  simp only [UInt32.le_iff_toNat_le, UInt32.lt_iff_toNat_lt, hsub]
  rfl

/-! ## One update -/

/-- Every entry's stamps stand for what happened. -/
def Inv (x : Chronicle) : Prop :=
  ∀ e ∈ x.db.entries, Dated x.wall (x.touched e.frequencyHz e.remoteStation)
    (x.failed e.frequencyHz e.remoteStation) e

theorem lastActivityMs_contact {e : LQAEntry} (h : e.lastSoundingMs ≤ e.lastContactMs) :
    e.lastActivityMs = e.lastContactMs := by
  unfold LQAEntry.lastActivityMs
  split
  · rfl
  · rename_i hn
    exact UInt32.le_antisymm h (UInt32.not_lt.mp hn)

theorem lastActivityMs_sounding {e : LQAEntry} (h : e.lastContactMs ≤ e.lastSoundingMs) :
    e.lastActivityMs = e.lastSoundingMs := by
  unfold LQAEntry.lastActivityMs
  rw [if_neg (UInt32.not_lt.mpr h)]

theorem sounding_le_activity (e : LQAEntry) : e.lastSoundingMs ≤ e.lastActivityMs := by
  unfold LQAEntry.lastActivityMs
  split
  · rename_i h
    exact UInt32.le_of_lt h
  · exact UInt32.le_refl _

theorem contact_le_activity (e : LQAEntry) : e.lastContactMs ≤ e.lastActivityMs := by
  unfold LQAEntry.lastActivityMs
  split
  · exact UInt32.le_refl _
  · rename_i h
    exact UInt32.not_lt.mp h

/-- A contact now, on an entry whose sounding lies back. -/
theorem dated_contact {wall : Nat} {failed : Option Nat} {e : LQAEntry}
    (hnow : UInt32.ofNat wall ≠ 0) (hcontact : e.lastContactMs = UInt32.ofNat wall)
    (hsound : e.lastSoundingMs ≤ UInt32.ofNat wall)
    (hmark : ∀ u, failed = some u → Stands wall u e.lastFailedHandshakeMs)
    (hunmarked : failed = none → e.lastFailedHandshakeMs = 0) : Dated wall wall failed e := by
  have hact : e.lastActivityMs = e.lastContactMs :=
    lastActivityMs_contact (by rw [hcontact]; exact hsound)
  refine ⟨?_, fun _ => hact.symm, hmark, hunmarked⟩
  rw [hact, hcontact]
  exact stands_now hnow

/-- A sounding now, on an entry whose contact lies back, or is now as well. -/
theorem dated_sounding {wall : Nat} {failed : Option Nat} {e : LQAEntry}
    (hnow : UInt32.ofNat wall ≠ 0) (hsound : e.lastSoundingMs = UInt32.ofNat wall)
    (hcontact : e.lastContactMs ≤ UInt32.ofNat wall)
    (hnamed : e.remoteStation ≠ [] → e.lastContactMs = UInt32.ofNat wall)
    (hmark : ∀ u, failed = some u → Stands wall u e.lastFailedHandshakeMs)
    (hunmarked : failed = none → e.lastFailedHandshakeMs = 0) : Dated wall wall failed e := by
  have hact : e.lastActivityMs = e.lastSoundingMs :=
    lastActivityMs_sounding (by rw [hsound]; exact hcontact)
  refine ⟨?_, fun hs => ?_, hmark, hunmarked⟩
  · rw [hact, hsound]
    exact stands_now hnow
  · rw [hnamed hs, hact, hsound]

/-- **One update of the database** keeps the stamps, if it keeps those of its own entry. -/
theorem inv_upsert {x y : Chronicle} (h : x.Inv) {f : Nat} {s : Str} {fresh : LQAEntry}
    {edit : LQAEntry → LQAEntry} (hdb : y.db = x.db.upsert f s fresh edit) (hwall : y.wall = x.wall)
    (hother : ∀ g u, ¬ (g = f ∧ u = s) →
      y.touched g u = x.touched g u ∧ y.failed g u = x.failed g u)
    (hfresh : x.db.find f s = none →
      fresh.IsAt f s ∧ Dated x.wall (y.touched f s) (y.failed f s) fresh)
    (hedit : ∀ e, e.IsAt f s → (x.db.find f s).isSome = true →
      Dated x.wall (x.touched f s) (x.failed f s) e →
      (edit e).IsAt f s ∧ Dated x.wall (y.touched f s) (y.failed f s) (edit e)) : y.Inv := by
  intro e he
  rw [hdb] at he
  rw [hwall]
  obtain ⟨he, hat⟩ | ⟨o, ho, hat, rfl, hsome⟩ | ⟨hnone, rfl⟩ := mem_upsert he
  · obtain ⟨ht, hf⟩ := hother e.frequencyHz e.remoteStation hat
    rw [ht, hf]
    exact h e he
  · have hd := h o ho
    obtain ⟨h1, h2⟩ := hat
    rw [h1, h2] at hd
    obtain ⟨⟨h1', h2'⟩, hd'⟩ := hedit o ⟨h1, h2⟩ hsome hd
    rw [h1', h2']
    exact hd'
  · obtain ⟨⟨h1, h2⟩, hd⟩ := hfresh hnone
    rw [h1, h2]
    exact hd

theorem note_other {x : Chronicle} {f : Nat} {s : Str} {db : LQADatabase} {g : Nat} {u : Str}
    (h : ¬ (g = f ∧ u = s)) :
    (x.note f s db).touched g u = x.touched g u ∧ (x.note f s db).failed g u = x.failed g u :=
  ⟨if_neg h, if_neg fun hc => h ⟨hc.1, hc.2.1⟩⟩

theorem note_touched {x : Chronicle} {f : Nat} {s : Str} {db : LQADatabase} :
    (x.note f s db).touched f s = x.wall := if_pos ⟨rfl, rfl⟩

theorem note_failed_of_some {x : Chronicle} {f : Nat} {s : Str} {db : LQADatabase}
    (h : (x.db.find f s).isSome = true) : (x.note f s db).failed f s = x.failed f s := by
  refine if_neg fun hc => ?_
  rw [Option.isNone_iff_eq_none] at hc
  rw [hc.2.2] at h
  cases h

theorem note_failed_of_none {x : Chronicle} {f : Nat} {s : Str} {db : LQADatabase}
    (h : x.db.find f s = none) : (x.note f s db).failed f s = none :=
  if_pos ⟨rfl, rfl, by rw [h]; rfl⟩

/-- The update of a touched entry. -/
theorem inv_note {x : Chronicle} (h : x.Inv) {f : Nat} {s : Str} {fresh : LQAEntry}
    {edit : LQAEntry → LQAEntry} (hfresh : fresh.IsAt f s ∧ Dated x.wall x.wall none fresh)
    (hedit : ∀ (e : LQAEntry) (t : Nat) (failed : Option Nat), e.IsAt f s →
      Dated x.wall t failed e → (edit e).IsAt f s ∧ Dated x.wall x.wall failed (edit e)) :
    (x.note f s (x.db.upsert f s fresh edit)).Inv := by
  refine inv_upsert h rfl rfl (fun g u hg => note_other hg) ?_ ?_
  · intro hnone
    rw [note_touched, note_failed_of_none hnone]
    exact hfresh
  · intro e hat hsome hd
    rw [note_touched, note_failed_of_some hsome]
    exact hedit e _ _ hat hd

theorem stampOr_of_clocked {x : Chronicle} {tick : UInt32} (h : x.Clocked tick) :
    stampOr tick x.now = x.now := by
  unfold stampOr
  obtain ht | ht := h.2
  · rw [if_pos ht]
  · rw [ht]
    exact ite_id _

/-- A measurement now: of a contact, or of a channel without a station. -/
theorem dated_stamp {wall t : Nat} {failed : Option Nat} {e e' : LQAEntry}
    (hnow : UInt32.ofNat wall ≠ 0) (hd : Dated wall t failed e)
    (hstation : e'.remoteStation = e.remoteStation)
    (hcontact : e'.lastContactMs =
      if e.remoteStation = [] then e.lastContactMs else UInt32.ofNat wall)
    (hsound : e'.lastSoundingMs =
      if e.remoteStation = [] then UInt32.ofNat wall else e.lastSoundingMs)
    (hfail : e'.lastFailedHandshakeMs = e.lastFailedHandshakeMs) : Dated wall wall failed e' := by
  have hpast := hd.activity.le_now
  have hmark : ∀ u, failed = some u → Stands wall u e'.lastFailedHandshakeMs := by
    rw [hfail]
    exact hd.mark
  have hunmarked : failed = none → e'.lastFailedHandshakeMs = 0 := by
    rw [hfail]
    exact hd.unmarked
  by_cases hs : e.remoteStation = []
  · rw [if_pos hs] at hcontact hsound
    refine dated_sounding hnow hsound ?_ (fun hn => absurd (hstation.trans hs) hn) hmark hunmarked
    rw [hcontact]
    exact UInt32.le_trans (contact_le_activity e) hpast
  · rw [if_neg hs] at hcontact hsound
    refine dated_contact hnow hcontact ?_ hmark hunmarked
    rw [hsound]
    exact UInt32.le_trans (sounding_le_activity e) hpast

/-- An entry that is made with the time of its contact, or of its sounding. -/
theorem dated_fresh {wall : Nat} {e : LQAEntry} (hnow : UInt32.ofNat wall ≠ 0)
    (hcontact : e.lastContactMs = UInt32.ofNat wall ∧ e.lastSoundingMs = 0 ∨
      e.remoteStation = [] ∧ e.lastContactMs = 0 ∧ e.lastSoundingMs = UInt32.ofNat wall)
    (hfail : e.lastFailedHandshakeMs = 0) : Dated wall wall none e := by
  have hmark : ∀ u, (none : Option Nat) = some u → Stands wall u e.lastFailedHandshakeMs := by
    intro u hu
    cases hu
  obtain ⟨hc, hs⟩ | ⟨hname, hc, hs⟩ := hcontact
  · refine dated_contact hnow hc ?_ hmark fun _ => hfail
    rw [hs]
    exact UInt32.zero_le
  · refine dated_sounding hnow hs ?_ (fun hn => absurd hname hn) hmark fun _ => hfail
    rw [hc]
    exact UInt32.zero_le

theorem inv_measure {x : Chronicle} (h : x.Inv) {f : Nat} {s : Str} {m : Measurement}
    {tick : UInt32} (hc : x.Clocked tick) : (x.measure f s m tick).Inv := by
  unfold measure updateEntryExtended
  rw [stampOr_of_clocked hc]
  refine inv_note h ⟨⟨LQAEntry.stamp_frequency _ _, LQAEntry.stamp_station _ _⟩, ?_⟩ ?_
  · refine dated_fresh hc.1 ?_ (LQAEntry.stamp_failed _ _)
    by_cases hs : s = []
    · refine Or.inr ⟨(LQAEntry.stamp_station _ _).trans hs, ?_, ?_⟩
      · exact (LQAEntry.stamp_contact _ _).trans (if_pos hs)
      · exact (LQAEntry.stamp_sounding _ _).trans (if_pos hs)
    · refine Or.inl ⟨?_, ?_⟩
      · exact (LQAEntry.stamp_contact _ _).trans (if_neg hs)
      · exact (LQAEntry.stamp_sounding _ _).trans (if_neg hs)
  · intro e t failed hat hd
    exact ⟨⟨(LQAEntry.stamp_frequency _ _).trans hat.1, (LQAEntry.stamp_station _ _).trans hat.2⟩,
      dated_stamp hc.1 hd (LQAEntry.stamp_station _ _) (LQAEntry.stamp_contact _ _)
        (LQAEntry.stamp_sounding _ _) (LQAEntry.stamp_failed _ _)⟩

theorem inv_bilateral {x : Chronicle} (h : x.Inv) {f : Nat} {s : Str} {sinad ber mp : Nat}
    (hnow : x.now ≠ 0) :
    (x.note f s (x.db.updateBilateral f s sinad ber mp 0 x.now)).Inv := by
  have hstamp : stampOr 0 x.now = x.now := if_pos rfl
  unfold updateBilateral
  rw [hstamp]
  refine inv_note h ⟨⟨rfl, rfl⟩, dated_fresh hnow (Or.inl ⟨rfl, rfl⟩) rfl⟩ ?_
  intro e t failed hat hd
  exact ⟨hat, dated_contact hnow rfl
    (UInt32.le_trans (sounding_le_activity e) hd.activity.le_now) hd.mark hd.unmarked⟩

theorem inv_noise {x : Chronicle} (h : x.Inv) {f maxDb meanDb : Nat} {tick : UInt32}
    (hreport : ¬ (maxDb = 127 ∧ meanDb = 127)) (hc : x.Clocked tick) :
    (x.note f [] (x.db.updateNoiseFloor f maxDb meanDb tick x.now)).Inv := by
  unfold updateNoiseFloor
  rw [if_neg hreport, stampOr_of_clocked hc]
  refine inv_note h ⟨⟨rfl, rfl⟩, dated_fresh hc.1 (Or.inr ⟨rfl, rfl, rfl⟩) rfl⟩ ?_
  intro e t failed hat hd
  exact ⟨hat, dated_sounding hc.1 rfl
    (UInt32.le_trans (contact_le_activity e) hd.activity.le_now)
    (fun hn => absurd hat.2 hn) hd.mark hd.unmarked⟩

/-- An update that leaves the stamps of the entry there is. -/
theorem inv_quiet {x : Chronicle} (h : x.Inv) {f : Nat} {s : Str} {edit : LQAEntry → LQAEntry}
    {fresh : LQAEntry} (hsome : (x.db.find f s).isSome = true)
    (hedit : ∀ (e : LQAEntry) (t : Nat) (failed : Option Nat), e.IsAt f s →
      Dated x.wall t failed e → (edit e).IsAt f s ∧ Dated x.wall t failed (edit e)) :
    ({ x with db := x.db.upsert f s fresh edit } : Chronicle).Inv := by
  refine inv_upsert h rfl rfl (fun _ _ _ => ⟨rfl, rfl⟩) ?_ ?_
  · intro hnone
    rw [hnone] at hsome
    cases hsome
  · intro e hat _ hd
    exact hedit e _ _ hat hd

theorem inv_attempt {x : Chronicle} (h : x.Inv) {f : Nat} {s : Str}
    (hnow : (x.db.find f s).isNone = true → x.now ≠ 0) : (x.step (.attempt f s)).Inv := by
  unfold step markBilateralAttempted
  dsimp only
  split_ifs with hnone
  · refine inv_upsert h rfl rfl (fun g u hg => note_other hg) ?_ ?_
    · intro hfind
      rw [note_touched, note_failed_of_none hfind]
      exact ⟨⟨rfl, rfl⟩, dated_fresh (hnow hnone) (Or.inl ⟨rfl, rfl⟩) rfl⟩
    · intro e hat hsome hd
      rw [Option.isNone_iff_eq_none] at hnone
      rw [hnone] at hsome
      cases hsome
  · refine inv_quiet h (by simpa [← Option.isSome_iff_ne_none] using hnone) ?_
    intro e t failed hat hd
    exact ⟨hat, hd.activity, hd.contact, hd.mark, hd.unmarked⟩

theorem Stands.eq_now {wall : Nat} {stamp : UInt32} (h : Stands wall wall stamp) :
    stamp = UInt32.ofNat wall := by
  apply UInt32.toNat_inj.mp
  rw [h.value, UInt32.toNat_ofNat']

theorem inv_sound {x : Chronicle} (h : x.Inv) {f : Nat} {s : Str} {m : Measurement} {twas : Bool}
    (hnow : x.now ≠ 0) : (x.step (.sound f s m twas)).Inv := by
  have hchannel : (x.measure f [] m x.now).Inv := inv_measure h ⟨hnow, Or.inr rfl⟩
  have hstation : ((x.measure f [] m x.now).measure f s m x.now).Inv :=
    inv_measure hchannel ⟨hnow, Or.inr rfl⟩
  have hsome : (((x.measure f [] m x.now).measure f s m x.now).db.find f s).isSome = true :=
    find_upsert_isSome ⟨LQAEntry.stamp_frequency _ _, LQAEntry.stamp_station _ _⟩ fun e hat =>
      ⟨(LQAEntry.stamp_frequency _ _).trans hat.1, (LQAEntry.stamp_station _ _).trans hat.2⟩
  have htouched : ((x.measure f [] m x.now).measure f s m x.now).touched f s = x.wall :=
    note_touched
  have hstamp : ∀ t : UInt32, stampOr t t = t := fun t => ite_id _
  unfold step setSoundingAvailability
  dsimp only
  rw [hstamp]
  refine inv_upsert hstation rfl rfl (fun _ _ _ => ⟨rfl, rfl⟩) ?_ ?_
  · intro hnone
    rw [hnone] at hsome
    cases hsome
  · intro e hat _ hd
    dsimp only
    rw [htouched] at hd ⊢
    refine ⟨hat, dated_sounding hnow rfl
      (UInt32.le_trans (contact_le_activity e) hd.activity.le_now) ?_ hd.mark hd.unmarked⟩
    intro hs
    exact (hd.contact hs).trans hd.activity.eq_now

theorem inv_fail {x : Chronicle} (h : x.Inv) {f : Nat} {s : Str} {tick : UInt32}
    (hc : x.Clocked tick) (hmeets : (x.db.find f s).isNone = true ∨ x.touched f s = x.wall) :
    (x.step (.fail f s tick)).Inv := by
  have hmark : ∀ u, some x.wall = some u → Stands x.wall u x.now := by
    rintro u ⟨⟩
    exact stands_now hc.1
  unfold step recordHandshakeFail
  dsimp only
  rw [stampOr_of_clocked hc]
  refine inv_upsert h rfl rfl ?_ ?_ ?_
  · intro g u hg
    exact ⟨if_neg hg, (if_neg hg).trans (note_other hg).2⟩
  · intro _
    dsimp only
    rw [note_touched, if_pos ⟨rfl, rfl⟩]
    exact ⟨⟨rfl, rfl⟩, dated_contact hc.1 rfl UInt32.zero_le hmark nofun⟩
  · intro e hat hsome hd
    dsimp only
    rw [note_touched, if_pos ⟨rfl, rfl⟩]
    obtain hnone | ht := hmeets
    · rw [Option.isNone_iff_eq_none] at hnone
      rw [hnone] at hsome
      cases hsome
    · rw [ht] at hd
      exact ⟨hat, hd.activity, hd.contact, hmark, nofun⟩

theorem inv_pass {x : Chronicle} (h : x.Inv) {w : Nat}
    (hw : x.db.entries = [] ∨ max x.wall w / 2 ^ 32 = x.wall / 2 ^ 32) :
    (x.step (.pass w)).Inv := by
  intro e he
  obtain hempty | hep := hw
  · change e ∈ x.db.entries at he
    rw [hempty] at he
    cases he
  · obtain ⟨hact, hcontact, hmark, hunmarked⟩ := h e he
    have hle : x.wall ≤ max x.wall w := le_max_left _ _
    exact ⟨hact.pass hle hep, hcontact, fun u hu => (hmark u hu).pass hle hep, hunmarked⟩

/-- **One step on one clock** keeps the stamps. -/
theorem inv_step {x : Chronicle} {op : LqaOp} (h : x.Inv) (hop : x.OneClock op) :
    (x.step op).Inv := by
  cases op with
  | pass w => exact inv_pass h hop
  | measure f s m tick => exact inv_measure h hop
  | sound f s m twas => exact inv_sound h hop
  | bilateral f s sinad ber mp => exact inv_bilateral h hop
  | attempt f s => exact inv_attempt h hop
  | fail f s tick => exact inv_fail h hop.1 hop.2
  | noise f maxDb meanDb tick =>
    unfold step
    dsimp only
    split_ifs with hnone
    · exact h
    · exact inv_noise h hnone (hop.resolve_left hnone)
  | prune =>
    intro e he
    exact h e (List.mem_of_mem_filter he)

/-! ## What the stamps show -/

theorem Dated.ageRight {x : Chronicle} {e : LQAEntry} (windowMs : UInt32)
    (h : Dated x.wall (x.touched e.frequencyHz e.remoteStation)
      (x.failed e.frequencyHz e.remoteStation) e) : x.AgeRight windowMs e := by
  refine ⟨?_, ?_, ?_⟩
  · intro hs
    rw [h.contact hs]
    exact ageCode_eq h.activity
  · have hpos : e.lastActivityMs > 0 := UInt32.pos_iff_ne_zero.mpr h.activity.pos
    unfold LQAEntry.ageMs
    rw [if_pos hpos]
    exact congrArg some h.activity.toNat_sub
  · unfold LQAEntry.penalised
    rw [Bool.and_eq_true, decide_eq_true_iff, decide_eq_true_iff]
    cases hf : x.failed e.frequencyHz e.remoteStation with
    | none =>
      rw [h.unmarked hf]
      simp
    | some t =>
      have hmark := h.mark t hf
      have hpos : e.lastFailedHandshakeMs > 0 := UInt32.pos_iff_ne_zero.mpr hmark.pos
      have hsub : (x.now - e.lastFailedHandshakeMs).toNat = x.wall - t := hmark.toNat_sub
      rw [UInt32.lt_iff_toNat_lt (a := x.now - e.lastFailedHandshakeMs), hsub]
      simp [hpos]

theorem spares {x : Chronicle} (h : x.Inv) (op : LqaOp) : x.Spares op := by
  rintro rfl e he hage
  have hsub : (x.now - e.lastActivityMs).toNat = x.elapsed e := (h e he).activity.toNat_sub
  have hfresh : x.db.stale x.now e = false := by
    unfold stale
    rw [decide_eq_false_iff_not, gt_iff_lt, UInt32.lt_iff_toNat_lt, hsub]
    omega
  exact List.mem_filter.mpr ⟨he, by rw [hfresh]; rfl⟩

/-- A station heard, reported and failed within one hour of the wall clock. -/
def oneHour : List LqaOp :=
  [.pass 1700000000000, .sound 7102000 ['X', 'Y', 'Z'] ⟨18, 4, 21, 0, -110, 0, 12⟩ true,
    .pass 1700000600000, .bilateral 7102000 ['X', 'Y', 'Z'] 20 3 7,
    .fail 7102000 ['X', 'Y', 'Z'] 0, .pass 1700003600000, .prune]

end Chronicle

end OpenALE
