import OpenALE.App.Resampler

/-!
# Blocks of samples

What the resampler puts out depends on the input samples and not on the blocks in which they come.
After `n` samples the outputs whose newest sample is among them are out, one for each `k` with
`⌊k * M / L⌋ < n`, and each was computed when its newest sample had just arrived.

Results:
* `drain_eq`: what one input sample releases.
* `run_step`: what a stream releases.
* `stream_blocks`: block boundaries do not matter.
-/

namespace OpenALE.Resampling.Resampler

variable {F D : Type} {A : Arith F D} {r r' : Resampler F} {xs : List Int}

/-! ## The number of outputs -/

/-- The outputs after `n` input samples. -/
def count (r : Resampler F) (n : Nat) : Nat := (n * r.L + (r.M - 1)) / r.M

/-- The quotient rounded up. -/
theorem lt_ceil_iff {m : Nat} (hm : 0 < m) (k x : Nat) : k < (x + (m - 1)) / m ↔ k * m < x := by
  have hle : k < (x + (m - 1)) / m ↔ (k + 1) * m ≤ x + (m - 1) := Nat.le_div_iff_mul_le hm
  rw [hle, Nat.succ_mul]
  omega

theorem lt_count_iff (r : Resampler F) (k n : Nat) : k < r.count n ↔ r.base k < n := by
  rw [count, lt_ceil_iff r.M_pos, base, Nat.div_lt_iff_lt_mul r.L_pos]

theorem count_zero (r : Resampler F) : r.count 0 = 0 := by
  have hM := r.M_pos
  rw [count, Nat.zero_mul, Nat.zero_add]
  exact Nat.div_eq_of_lt (by omega)

theorem count_mono (r : Resampler F) {m n : Nat} (h : m ≤ n) : r.count m ≤ r.count n := by
  by_contra hlt
  have hlast := (r.lt_count_iff (r.count n) m).mp (not_le.mp hlt)
  exact absurd ((r.lt_count_iff (r.count n) n).mpr (by omega)) (lt_irrefl _)

/-! ## What one sample releases -/

/-- Output `k` of a stream. -/
def emission (A : Arith F D) (r : Resampler F) (xs : List Int) (k : Nat) : Emission :=
  { inCount := r.base k + 1, reads := r.reads k
    value := r.filter A k fun idx => A.ofSample (xs.getD idx 0) }

theorem mem_reads {k idx : Nat} (h : idx ∈ r.reads k) :
    idx ≤ r.base k ∧ r.base k < idx + r.K := by
  obtain ⟨j, hj, rfl⟩ := List.mem_map.mp h
  unfold taps at hj
  have hK : j < r.K := List.mem_range.mp ((List.takeWhile_sublist _).subset hj)
  have hbase := List.mem_takeWhile_imp hj
  rw [decide_eq_true_eq] at hbase
  omega

theorem filter_congr {k : Nat} {sample sample' : Nat → F}
    (h : ∀ idx ∈ r.reads k, sample idx = sample' idx) :
    r.filter A k sample = r.filter A k sample' := by
  have hterm : ∀ j ∈ r.taps k, sample (r.base k - j) = sample' (r.base k - j) :=
    fun j hj => h _ (List.mem_map_of_mem hj)
  have hsum : r.accumulate A k sample = r.accumulate A k sample' := by
    apply List.foldl_ext
    intro acc j hj
    rw [hterm j hj]
  rw [filter, filter, hsum]

/-- **What the loop puts out**: every output whose newest sample is there. -/
theorem drain_eq (A : Arith F D) (r : Resampler F) (h : r.outCount ≤ r.count r.inCount) :
    drain A r = ({ r with outCount := r.count r.inCount },
      (List.range' r.outCount (r.count r.inCount - r.outCount)).map
        fun k => emit A { r with outCount := k }) := by
  fun_induction drain A r with
  | case1 r hlast =>
    have hcount : r.outCount = r.count r.inCount := by
      refine h.antisymm (not_lt.mp fun hlt => ?_)
      exact absurd ((r.lt_count_iff _ _).mp hlt) (not_lt.mpr hlast)
    rw [← hcount, Nat.sub_self]
    rfl
  | case2 r hnext rest ih =>
    have hlt : r.outCount < r.count r.inCount := (r.lt_count_iff _ _).mpr (not_le.mp hnext)
    have hsucc : r.count r.inCount - r.outCount =
        r.count r.inCount - (r.outCount + 1) + 1 := by omega
    have hrest : rest = _ := ih hlt
    rw [hrest, hsucc, List.range'_succ, List.map_cons]
    rfl

/-! ## A stream -/

/-- A resampler as the constructor leaves it. -/
structure Fresh (r : Resampler F) : Prop where
  length : r.hist.length = r.histSize
  inCount : r.inCount = 0
  outCount : r.outCount = 0

theorem Fresh.eq (h : Fresh r) : { r with inCount := 0, outCount := 0 } = r := by
  obtain ⟨L, M, K, phase, hist, inCount, outCount, L_pos, M_pos⟩ := r
  obtain ⟨-, rfl, rfl⟩ := h
  rfl

/-- The state after the stream `xs`. -/
structure After (A : Arith F D) (r₀ : Resampler F) (xs : List Int) (r : Resampler F) : Prop where
  state : r = { r₀ with hist := r.hist, inCount := xs.length, outCount := r₀.count xs.length }
  length : r.hist.length = r₀.histSize
  ring : Ring.Holds r.hist (xs.map A.ofSample)

variable {r₀ : Resampler F}

theorem histSize_pos (r : Resampler F) : 0 < r.histSize := by
  unfold histSize
  omega

/-- The history holds what an output reads when its newest sample is the last one. -/
theorem read_hist {hist : List F} (hring : Ring.Holds hist (xs.map A.ofSample))
    (hlen : hist.length = r₀.histSize) {k : Nat} (hlast : r₀.base k + 1 = xs.length) {idx : Nat}
    (hidx : idx ∈ r₀.reads k) :
    hist.getD (idx % r₀.histSize) A.zeroF = A.ofSample (xs.getD idx 0) := by
  obtain ⟨hle, hK⟩ := mem_reads hidx
  have hin : idx < xs.length := by omega
  have hcell := hring idx (by rwa [List.length_map]) (by
    rw [List.length_map, hlen, histSize]
    omega)
  rw [hlen, List.getElem?_map, List.getElem?_eq_getElem hin] at hcell
  rw [List.getD_eq_getElem?_getD, hcell, List.getD_eq_getElem?_getD, List.getElem?_eq_getElem hin]
  rfl

/-- **What one sample releases.** -/
theorem After.input (h : After A r₀ xs r) (x : Int) :
    After A r₀ (xs ++ [x]) (r.input A x).1 ∧ (r.input A x).2 =
      (List.range' (r₀.count xs.length) (r₀.count (xs.length + 1) - r₀.count xs.length)).map
        (emission A r₀ (xs ++ [x])) := by
  set hist := Ring.push r.hist xs.length (A.ofSample x) with hhist
  have hlen : hist.length = r₀.histSize := by rw [hhist, Ring.length_push, h.length]
  have hring : Ring.Holds hist ((xs ++ [x]).map A.ofSample) := by
    have hpush := h.ring.push (h.length ▸ r₀.histSize_pos) (A.ofSample x)
    rwa [List.length_map, ← List.map_singleton, ← List.map_append] at hpush
  have hinput : r.input A x = drain A { r₀ with
      hist, inCount := xs.length + 1, outCount := r₀.count xs.length } := by
    rw [Resampler.input, h.state, hhist, Ring.push, h.length]
    rfl
  have hdrain := drain_eq A { r₀ with
      hist, inCount := xs.length + 1, outCount := r₀.count xs.length }
    (r₀.count_mono (Nat.le_succ xs.length))
  rw [hinput, hdrain]
  refine ⟨⟨?_, hlen, hring⟩, List.map_congr_left fun k hk => ?_⟩
  · rw [List.length_append]
    rfl
  · obtain ⟨hfrom, hto⟩ := List.mem_range'_1.mp hk
    have hmono : r₀.count xs.length ≤ r₀.count (xs.length + 1) := r₀.count_mono (Nat.le_succ _)
    have hbelow : k < r₀.count xs.length + (r₀.count (xs.length + 1) - r₀.count xs.length) := hto
    have hbase : r₀.base k + 1 = (xs ++ [x]).length := by
      have hge : ¬ r₀.base k < xs.length := fun hlt =>
        absurd ((r₀.lt_count_iff k xs.length).mpr hlt) (not_lt.mpr hfrom)
      have hlt : r₀.base k < xs.length + 1 := (r₀.lt_count_iff k _).mp (by omega)
      rw [List.length_append, List.length_singleton]
      omega
    have hvalue : r₀.filter A k (fun idx => hist.getD (idx % r₀.histSize) A.zeroF) =
        r₀.filter A k fun idx => A.ofSample ((xs ++ [x]).getD idx 0) :=
      filter_congr fun idx hidx => read_hist hring hlen hbase hidx
    rw [emission, hbase, List.length_append, ← hvalue]
    rfl

/-- An output does not depend on what comes after its newest sample. -/
theorem emission_append {k : Nat} (hk : k < r₀.count xs.length) (x : Int) :
    emission A r₀ (xs ++ [x]) k = emission A r₀ xs k := by
  have hbase := (r₀.lt_count_iff k xs.length).mp hk
  have hvalue : r₀.filter A k (fun idx => A.ofSample ((xs ++ [x]).getD idx 0)) =
      r₀.filter A k fun idx => A.ofSample (xs.getD idx 0) := by
    refine filter_congr fun idx hidx => ?_
    have hin : idx < xs.length := (mem_reads hidx).1.trans_lt hbase
    rw [List.getD_eq_getElem?_getD, List.getElem?_append_left hin, List.getD_eq_getElem?_getD]
  rw [emission, emission, hvalue]

/-- **What a stream releases.** -/
theorem run_input (h : Fresh r₀) (xs : List Int) :
    After A r₀ xs (Transducer.run (input A) r₀ xs).1 ∧
      (Transducer.run (input A) r₀ xs).2 =
        (List.range (r₀.count xs.length)).map (emission A r₀ xs) := by
  induction xs using List.reverseRecOn with
  | nil =>
    refine ⟨⟨?_, h.length, Ring.holds_nil _⟩, ?_⟩
    · rw [Transducer.run_nil, List.length_nil, count_zero]
      exact h.eq.symm
    · rw [Transducer.run_nil, List.length_nil, count_zero]
      rfl
  | append_singleton xs x ih =>
    obtain ⟨hafter, hout⟩ := ih
    obtain ⟨hnext, hnew⟩ := hafter.input x
    rw [Transducer.run_concat]
    refine ⟨hnext, ?_⟩
    have hold : (List.range (r₀.count xs.length)).map (emission A r₀ xs) =
        (List.range (r₀.count xs.length)).map (emission A r₀ (xs ++ [x])) :=
      List.map_congr_left fun k hk => (emission_append (List.mem_range.mp hk) x).symm
    have hrange : List.range (r₀.count (xs.length + 1)) = List.range (r₀.count xs.length) ++
        List.range' (r₀.count xs.length) (r₀.count (xs.length + 1) - r₀.count xs.length) := by
      have hmono : r₀.count xs.length ≤ r₀.count (xs.length + 1) := r₀.count_mono (Nat.le_succ _)
      have happend := @List.range'_append_1 0 (r₀.count xs.length)
        (r₀.count (xs.length + 1) - r₀.count xs.length)
      rw [Nat.zero_add, Nat.add_sub_cancel' hmono] at happend
      rw [List.range_eq_range', List.range_eq_range', happend]
    dsimp only
    rw [hout, hnew, hold, List.length_append, List.length_singleton, hrange, List.map_append]

/-! ## Blocks -/

/-- One sample, with no filter where the rates are the same. -/
def step (A : Arith F D) (r : Resampler F) (x : Int) : Resampler F × List Emission :=
  if r.isPassthrough then (r, [{ inCount := r.inCount, reads := [], value := x }]) else r.input A x

theorem drain_factors (A : Arith F D) (r : Resampler F) :
    (drain A r).1.L = r.L ∧ (drain A r).1.M = r.M := by
  fun_induction drain A r with
  | case1 r hlast => exact ⟨rfl, rfl⟩
  | case2 r hnext rest ih => exact ih

theorem isPassthrough_step (A : Arith F D) (r : Resampler F) (x : Int) :
    (r.step A x).1.isPassthrough = r.isPassthrough := by
  unfold step
  split_ifs with h
  · rfl
  · obtain ⟨hL, hM⟩ := drain_factors A { r with
      hist := r.hist.set (r.inCount % r.histSize) (A.ofSample x), inCount := r.inCount + 1 }
    rw [isPassthrough, Resampler.input, hL, hM, isPassthrough]

theorem isPassthrough_run (A : Arith F D) (r : Resampler F) (xs : List Int) :
    (Transducer.run (step A) r xs).1.isPassthrough = r.isPassthrough := by
  induction xs using List.reverseRecOn with
  | nil => rfl
  | append_singleton xs x ih => rw [Transducer.run_concat, isPassthrough_step, ih]

/-- **A block is its samples** one after the other. -/
theorem process_eq (A : Arith F D) (r : Resampler F) (block : List Int) :
    r.process A block = Transducer.run (step A) r block := by
  unfold process
  split_ifs with h
  · have hrun : Transducer.run (step A) r block =
        (r, block.map fun x => { inCount := r.inCount, reads := [], value := x }) := by
      induction block using List.reverseRecOn with
      | nil => rfl
      | append_singleton xs x ih =>
        rw [Transducer.run_concat, ih, step, if_pos h, List.map_append]
        rfl
    rw [hrun]
  · induction block using List.reverseRecOn with
    | nil => rfl
    | append_singleton xs x ih =>
      have hpass := isPassthrough_run A r xs
      rw [Transducer.run_concat, Transducer.run_concat, ih, step, if_neg (hpass ▸ h)]

/-- The sample of output `k` of a stream. -/
def sampleAt (A : Arith F D) (r : Resampler F) (xs : List Int) (k : Nat) : Int :=
  if r.isPassthrough then xs.getD k 0 else (emission A r xs k).value

theorem fresh_make (A : Arith F D) (phase : List F) {inRate outRate : Nat}
    (h : Accepted inRate outRate) : Fresh (make A phase h) :=
  ⟨List.length_replicate, rfl, rfl⟩

/-- The outputs after `n` samples, by the rates. -/
theorem count_make (A : Arith F D) (phase : List F) {inRate outRate : Nat}
    (h : Accepted inRate outRate) (n : Nat) :
    (make A phase h).count n = (n * outRate + (inRate - 1)) / inRate := by
  have hg : gcd inRate outRate = Nat.gcd inRate outRate := gcd_eq _ _ (.inl h.in_pos)
  have hpos : 0 < gcd inRate outRate := hg ▸ Nat.gcd_pos_of_pos_left _ h.in_pos
  have hL : (make A phase h).L * gcd inRate outRate = outRate :=
    Nat.div_mul_cancel (hg ▸ Nat.gcd_dvd_right inRate outRate)
  have hM : (make A phase h).M * gcd inRate outRate = inRate :=
    Nat.div_mul_cancel (hg ▸ Nat.gcd_dvd_left inRate outRate)
  apply eq_of_forall_lt_iff
  intro k
  rw [count, lt_ceil_iff (make A phase h).M_pos, lt_ceil_iff h.in_pos]
  calc k * (make A phase h).M < n * (make A phase h).L
      ↔ k * (make A phase h).M * gcd inRate outRate < n * (make A phase h).L * gcd inRate outRate :=
        (Nat.mul_lt_mul_right hpos).symm
    _ ↔ k * inRate < n * outRate := by rw [Nat.mul_assoc, hM, Nat.mul_assoc, hL]

/-- **Block boundaries do not matter.** Two ways of cutting a stream into blocks release the same
outputs, read at the same input samples; after `n` samples there are `⌈n * outRate / inRate⌉` of
them, each a function of the stream alone; and what is read is in the history. -/
theorem stream_blocks (A : Arith F D) (phase : List F) {inRate outRate : Nat}
    (h : Accepted inRate outRate) (blocks : List (List Int)) :
    (∀ blocks' : List (List Int), blocks'.flatten = blocks.flatten →
      ((make A phase h).stream A blocks').2 = ((make A phase h).stream A blocks).2) ∧
    ((make A phase h).stream A blocks).2.map Emission.value =
      (List.range ((blocks.flatten.length * outRate + (inRate - 1)) / inRate)).map
        (sampleAt A (make A phase h) blocks.flatten) ∧
    ∀ e ∈ ((make A phase h).stream A blocks).2, ∀ idx ∈ e.reads,
      idx < e.inCount ∧ e.inCount ≤ idx + (make A phase h).histSize := by
  have hstream (blocks : List (List Int)) : (make A phase h).stream A blocks =
      Transducer.run (step A) (make A phase h) blocks.flatten :=
    Transducer.run_flatten (fun r block => process_eq A r block) _ _
  refine ⟨fun blocks' heq => by rw [hstream, hstream, heq], ?_⟩
  rw [hstream, ← process_eq, process, ← count_make A phase h]
  split_ifs with hpass
  · have hall : (make A phase h).count blocks.flatten.length = blocks.flatten.length := by
      rw [isPassthrough, Bool.and_eq_true, decide_eq_true_eq, decide_eq_true_eq] at hpass
      rw [count, hpass.1, hpass.2, Nat.mul_one, Nat.sub_self, Nat.add_zero, Nat.div_one]
    rw [hall]
    refine ⟨?_, fun e he idx hidx => ?_⟩
    · rw [List.map_map]
      apply List.ext_getElem
      · rw [List.length_map, List.length_map, List.length_range]
      · intro k hk _
        rw [List.length_map] at hk
        rw [List.getElem_map, List.getElem_map, List.getElem_range, sampleAt, if_pos hpass,
          List.getD_eq_getElem _ _ hk]
        rfl
    · obtain ⟨x, -, rfl⟩ := List.mem_map.mp he
      cases hidx
  · obtain ⟨-, hout⟩ := @run_input F D A _ (fresh_make A phase h) blocks.flatten
    rw [hout]
    refine ⟨?_, fun e he idx hidx => ?_⟩
    · rw [List.map_map]
      refine List.map_congr_left fun k _ => ?_
      rw [sampleAt, if_neg hpass]
      rfl
    · obtain ⟨k, -, rfl⟩ := List.mem_map.mp he
      obtain ⟨hle, hK⟩ := mem_reads hidx
      dsimp only [emission, histSize] at hidx ⊢
      omega

theorem accepted_48000 : Accepted 48000 8000 where
  in_pos := by decide
  out_pos := by decide
  taps := by
    rw [gcd_eq _ _ (.inl (by decide))]
    decide

/-- Six samples at 48 kHz, in two blocks and in one, with integers for the floating-point types. -/
theorem stream_blocks_six :
    let r := make (⟨id, 0, id, id, 0, (· + ·), (· * ·), id⟩ : Arith Int Int) [] accepted_48000
    (r.stream ⟨id, 0, id, id, 0, (· + ·), (· * ·), id⟩ [[1, 2], [3, 4, 5, 6]]).2 =
      (r.stream ⟨id, 0, id, id, 0, (· + ·), (· * ·), id⟩ [[1, 2, 3, 4, 5, 6]]).2 :=
  (stream_blocks _ [] accepted_48000 [[1, 2, 3, 4, 5, 6]]).1 [[1, 2], [3, 4, 5, 6]] rfl

end OpenALE.Resampling.Resampler
