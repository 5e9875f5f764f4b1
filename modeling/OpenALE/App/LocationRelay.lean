import OpenALE.Word.Basic

/-!
# The outbound queue of position reports

Model of `LocationRelayService` (`src/App/location_relay_service.cpp`): `enqueue`, and of
`worker_loop` what takes reports from the queue and puts them back. A step is one `enqueue`, or the
worker at one of its two looks at the queue; the two locks of `enqueue` guard disjoint data, so what
the worker does between them could as well come before.

* An admitted report carries the number of its admission, which the code does not store.
* Left out: the fields of a report that go into its JSON, and the status lines.
-/

namespace OpenALE.LocationRelay

/-- The fields of `LocationReport` that the queue looks at. -/
structure LocationReport where
  source : Str
  dedupKey : Str
  deriving Repr, DecidableEq

/-- The settings of `LocationRelayService::Config` that it looks at. -/
structure Config where
  queueSize : Nat
  minIntervalSec : Nat
  deriving Repr, DecidableEq

/-- A report in the queue, with the number of its admission. -/
structure Queued where
  report : LocationReport
  enqueuedAt : Int
  retryCount : Nat
  number : Nat
  deriving Repr, DecidableEq

/-- An admission, as it is logged. -/
structure Admission where
  report : LocationReport
  now : Int
  deriving Repr, DecidableEq

/-- The members of the service, the report that the worker holds, and the log of the admissions. -/
structure State where
  dedupSet : Finset Str := ∅
  dedupOrder : List Str := []
  lastSent : Str → Option Int := fun _ => none
  queue : List Queued := []
  held : Option Queued := none
  log : List Admission := []

/-- The bound of the dedup order. -/
abbrev dedupSize : Nat := 256

/-- The ticks of `steady_clock` in a second. -/
abbrev second : Nat := 1000000000

/-- `duration_cast<seconds>`, which cuts towards zero. -/
def toSeconds (d : Int) : Int := d.tdiv second

/-! ## `enqueue` -/

/-- Whether a report passes the dedup and the throttle. -/
def admits (cfg : Config) (s : State) (report : LocationReport) (now : Int) : Bool :=
  decide (report.dedupKey ∉ s.dedupSet) &&
    match s.lastSent report.source with
    | none => true
    | some t => !decide (toSeconds (now - t) < cfg.minIntervalSec)

/-- The part of `enqueue` under `dedup_mtx_`, of an admitted report. -/
def remember (s : State) (report : LocationReport) (now : Int) : State :=
  let set := insert report.dedupKey s.dedupSet
  let order := s.dedupOrder ++ [report.dedupKey]
  { s with
    lastSent := Function.update s.lastSent report.source (some now)
    dedupSet := if dedupSize < order.length then set.erase (order.headD []) else set
    dedupOrder := if dedupSize < order.length then order.tail else order
    log := s.log ++ [⟨report, now⟩] }

/-- The part under `q_mtx_`: no state where `pop_front` meets an empty queue. -/
def push (cfg : Config) (s : State) (q : Queued) : Option State :=
  if cfg.queueSize ≤ s.queue.length then
    match s.queue with
    | [] => none
    | _ :: rest => some { s with queue := rest ++ [q] }
  else some { s with queue := s.queue ++ [q] }

/-- `enqueue`, at the steady time `now` and the wall clock's `clock`. -/
def enqueue (cfg : Config) (s : State) (report : LocationReport) (now clock : Int) : Option State :=
  if admits cfg s report now then
    push cfg (remember s report now)
      { report, enqueuedAt := clock, retryCount := 0, number := s.log.length }
  else some s

/-! ## `worker_loop` -/

/-- `kMaxRetries`. -/
abbrev maxRetries : Nat := 3

/-- `kStaleAfterSec`. -/
abbrev staleAfterSec : Int := 600

/-- The worker takes a report. -/
def dequeue (s : State) : State :=
  match s.held, s.queue with
  | none, q :: rest => { s with queue := rest, held := some q }
  | _, _ => s

/-- Whether the answer settles a report; no answer is a failed send. -/
def settles : Option Nat → Bool
  | none => false
  | some status =>
    (200 ≤ status && status < 300) || status = 409 || status = 403 || status = 401 || status = 422

/-- Whether a report is to be put back after its backoff: taken at `clock`, answered with
`answer`, and the service `running` still. -/
def putsBack (q : Queued) (clock : Int) (answer : Option Nat) (running : Bool) : Bool :=
  !decide (clock - q.enqueuedAt > staleAfterSec) && !settles answer &&
    !decide (q.retryCount + 1 > maxRetries) && running

/-- The rest of the worker's round. -/
def settle (cfg : Config) (s : State) (clock : Int) (answer : Option Nat) (running : Bool) : State :=
  match s.held with
  | none => s
  | some q =>
    if putsBack q clock answer running && s.queue.length < cfg.queueSize then
      { s with held := none, queue := s.queue ++ [{ q with retryCount := q.retryCount + 1 }] }
    else { s with held := none }

/-! ## Runs -/

inductive Op where
  | enqueue (report : LocationReport) (now clock : Int)
  | dequeue
  | settle (clock : Int) (answer : Option Nat) (running : Bool)
  deriving Repr, DecidableEq

/-- One step; nothing follows undefined behaviour. -/
def step (cfg : Config) (s : Option State) (op : Op) : Option State :=
  s.bind fun s =>
    match op with
    | .enqueue report now clock => enqueue cfg s report now clock
    | .dequeue => some (dequeue s)
    | .settle clock answer running => some (settle cfg s clock answer running)

end OpenALE.LocationRelay
