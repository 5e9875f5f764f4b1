import OpenALE.Library.Ring
import OpenALE.Library.Transducer

/-!
# The sample-rate converter

Model of `Resampler` (`include/App/resampler.h`): the reduced ratio, the history, and which
outputs a block of input samples releases. An output is an `Emission`, the sample with the input
count at its time and the input indices it reads.

* The operations on `float` and `double` are those of an `Arith`, of which nothing is assumed, and
  the coefficients of `design_prototype` are any table.
* The counters are unbounded: the products they form stay below `n * L + M` (`product_lt`), which
  `long long` holds for any stream that fits into a lifetime.
-/

namespace OpenALE.Resampling

/-- The operations of `process` on its two floating-point types. -/
structure Arith (F D : Type) where
  ofSample : Int → F
  zeroF : F
  toDouble : F → D
  ofInt : Int → D
  zero : D
  add : D → D → D
  mul : D → D → D
  lround : D → Int

/-- `gcd`. -/
def gcd (a b : Nat) : Nat :=
  if b = 0 then if a = 0 then 1 else a else gcd b (a % b)
termination_by b
decreasing_by exact Nat.mod_lt _ (Nat.pos_of_ne_zero ‹_›)

/-- `Q`, the taps per phase. -/
abbrev tapsPerPhase : Nat := 16

/-- `MAX_TAPS`. -/
abbrev maxTaps : Nat := 8192

/-- `n_taps` of `design_prototype`. -/
def nTaps (L M : Nat) : Nat :=
  let n := min (tapsPerPhase * max L M) maxTaps
  let n := n - n % L
  if n < L then L else n

/-- The rates that the constructor accepts: no division by zero, and its `int`s do not overflow. -/
structure Accepted (inRate outRate : Nat) : Prop where
  in_pos : 0 < inRate
  out_pos : 0 < outRate
  taps : tapsPerPhase * max (outRate / gcd inRate outRate) (inRate / gcd inRate outRate) < 2 ^ 31

/-- `Resampler`. -/
structure Resampler (F : Type) where
  L : Nat
  M : Nat
  K : Nat
  phase : List F
  hist : List F
  inCount : Nat
  outCount : Nat
  L_pos : 0 < L
  M_pos : 0 < M

/-- An output sample, with what it was computed from. -/
structure Emission where
  inCount : Nat
  reads : List Nat
  value : Int
  deriving Repr, DecidableEq

theorem gcd_eq (a b : Nat) (h : 0 < a ∨ 0 < b) : gcd a b = Nat.gcd a b := by
  induction a, b using gcd.induct with
  | case1 => omega
  | case2 a ha => rw [gcd, if_pos rfl, if_neg ha, Nat.gcd_zero_right]
  | case3 a b hb ih =>
    rw [gcd, if_neg hb, ih (.inl (Nat.pos_of_ne_zero hb)), Nat.gcd_comm, ← Nat.gcd_rec, Nat.gcd_comm]

namespace Resampler

variable {F D : Type}

/-- `hist_size_`. -/
def histSize (r : Resampler F) : Nat := r.K + r.M + 8

/-- `is_passthrough`. -/
def isPassthrough (r : Resampler F) : Bool := r.L = 1 && r.M = 1

theorem factors_pos {inRate outRate : Nat} (h : Accepted inRate outRate) :
    0 < outRate / gcd inRate outRate ∧ 0 < inRate / gcd inRate outRate := by
  rw [gcd_eq _ _ (.inl h.in_pos)]
  exact ⟨Nat.div_pos (Nat.gcd_le_right _ h.out_pos) (Nat.gcd_pos_of_pos_left _ h.in_pos),
    Nat.div_pos (Nat.gcd_le_left _ h.in_pos) (Nat.gcd_pos_of_pos_left _ h.in_pos)⟩

/-- The constructor. -/
def make (A : Arith F D) (phase : List F) {inRate outRate : Nat} (h : Accepted inRate outRate) :
    Resampler F :=
  let L := outRate / gcd inRate outRate
  let M := inRate / gcd inRate outRate
  let K := nTaps L M / L
  { L, M, K, phase, hist := List.replicate (K + M + 8) A.zeroF, inCount := 0, outCount := 0
    L_pos := (factors_pos h).1, M_pos := (factors_pos h).2 }

/-! ## One output -/

/-- The newest input sample that output `k` needs. -/
def base (r : Resampler F) (k : Nat) : Nat := k * r.M / r.L

/-- The taps whose sample is there: the loop breaks at the first index below 0. -/
def taps (r : Resampler F) (k : Nat) : List Nat :=
  (List.range r.K).takeWhile fun j => j ≤ r.base k

/-- The input samples that output `k` reads. -/
def reads (r : Resampler F) (k : Nat) : List Nat := (r.taps k).map fun j => r.base k - j

/-- The sum over the taps. -/
def accumulate (A : Arith F D) (r : Resampler F) (k : Nat) (sample : Nat → F) : D :=
  (r.taps k).foldl
    (fun acc j =>
      A.add acc (A.mul (A.toDouble (r.phase.getD (k * r.M % r.L * r.K + j) A.zeroF))
        (A.toDouble (sample (r.base k - j))))) A.zero

/-- The sum with the gain of the zeros between the samples, rounded and cut to 16 bits. -/
def filter (A : Arith F D) (r : Resampler F) (k : Nat) (sample : Nat → F) : Int :=
  let v := A.lround (A.mul (r.accumulate A k sample) (A.ofInt r.L))
  if v > 32767 then 32767 else if v < -32768 then -32768 else v

/-- The next output, from the history. -/
def emit (A : Arith F D) (r : Resampler F) : Emission :=
  { inCount := r.inCount, reads := r.reads r.outCount
    value := r.filter A r.outCount fun idx => r.hist.getD (idx % r.histSize) A.zeroF }

/-! ## Blocks -/

theorem product_lt (r : Resampler F) (h : ¬ r.inCount ≤ r.base r.outCount) :
    r.outCount * r.M < r.inCount * r.L :=
  (Nat.div_lt_iff_lt_mul r.L_pos).mp (not_le.mp h)

/-- The outputs whose newest sample has arrived. -/
def drain (A : Arith F D) (r : Resampler F) : Resampler F × List Emission :=
  if r.inCount ≤ r.base r.outCount then (r, [])
  else
    let rest := drain A { r with outCount := r.outCount + 1 }
    (rest.1, r.emit A :: rest.2)
termination_by r.inCount * r.L - r.outCount * r.M
decreasing_by
  have hlt := r.product_lt ‹_›
  have hpos := r.M_pos
  rw [Nat.succ_mul]
  omega

/-- One input sample. -/
def input (A : Arith F D) (r : Resampler F) (x : Int) : Resampler F × List Emission :=
  drain A { r with
    hist := r.hist.set (r.inCount % r.histSize) (A.ofSample x), inCount := r.inCount + 1 }

/-- `process`. -/
def process (A : Arith F D) (r : Resampler F) (block : List Int) : Resampler F × List Emission :=
  if r.isPassthrough then (r, block.map fun x => { inCount := r.inCount, reads := [], value := x })
  else Transducer.run (input A) r block

/-- A stream in blocks, one `process` after the other. -/
def stream (A : Arith F D) (r : Resampler F) (blocks : List (List Int)) :
    Resampler F × List Emission :=
  Transducer.run (process A) r blocks

end Resampler

end OpenALE.Resampling
