import OpenALE.Library.Machine
import OpenALE.Library.Window
import OpenALE.App.LocationRelay

/-!
# What the outbound queue admits

The dedup order is the window of the last 256 admitted keys and the dedup set its elements; the
throttle keeps the reports of a source apart. The queue is the newest admissions in their order, but
for two things: with room for no report, an admission takes the oldest from an empty queue, and a
report that comes back after a failed send goes behind the ones admitted in the meantime.

Results:
* `Dedup.remember`, `Throttle.remember`: what an admission keeps.
* `Outbound.push`, `Outbound.dequeue`, `Outbound.settle`: what the queue keeps.
* `admissions_iff`: the runs whose states are all sound.
-/

namespace OpenALE.LocationRelay

variable {cfg : Config} {s s' : State} {report : LocationReport} {now clock : Int}

/-! ## The dedup set and its order -/

/-- The keys of the admitted reports. -/
def keysOf (log : List Admission) : List Str := log.map fun a => a.report.dedupKey

/-- The order is the window of the last keys, the set has its elements, and no key was admitted
while it was there. -/
structure Dedup (s : State) : Prop where
  order : s.dedupOrder = Window.last dedupSize (keysOf s.log)
  keys : s.dedupSet = s.dedupOrder.toFinset
  apart : Window.Apart dedupSize (keysOf s.log)

theorem Dedup.nodup (h : Dedup s) : s.dedupOrder.Nodup := h.order ▸ h.apart.nodup_last

theorem Dedup.length_le (h : Dedup s) : s.dedupOrder.length ≤ dedupSize :=
  h.order ▸ Window.length_last_le _ _

/-- The set loses the key that the order loses. -/
theorem toFinset_tail {order : List Str} (h : order.Nodup) (hne : order ≠ []) :
    order.toFinset.erase (order.headD []) = order.tail.toFinset := by
  cases order with
  | nil => exact absurd rfl hne
  | cons k order =>
    have hk : k ∉ order.toFinset := fun hmem => (List.nodup_cons.mp h).1 (List.mem_toFinset.mp hmem)
    rw [List.headD_cons, List.tail_cons, List.toFinset_cons, Finset.erase_insert hk]

/-- **What an admission keeps** of the dedup. -/
theorem Dedup.remember (h : Dedup s) (hnew : report.dedupKey ∉ s.dedupSet) :
    Dedup (remember s report now) := by
  have hfresh : report.dedupKey ∉ s.dedupOrder := fun hmem =>
    hnew (h.keys ▸ List.mem_toFinset.mpr hmem)
  have hlog : keysOf (s.log ++ [⟨report, now⟩]) =
      keysOf s.log ++ [report.dedupKey] := List.map_append
  have horder : (LocationRelay.remember s report now).dedupOrder =
      Window.last dedupSize (keysOf s.log ++ [report.dedupKey]) := by
    rw [Window.last_concat, ← h.order]
    rfl
  have hnodup : (s.dedupOrder ++ [report.dedupKey]).Nodup :=
    List.nodup_append.mpr ⟨h.nodup, List.nodup_singleton _, fun a ha b hb => by
      rw [List.mem_singleton] at hb
      rintro rfl
      exact hfresh (hb ▸ ha)⟩
  have hset : insert report.dedupKey s.dedupSet = (s.dedupOrder ++ [report.dedupKey]).toFinset := by
    rw [h.keys, List.toFinset_append, List.toFinset_cons, List.toFinset_nil, Finset.union_comm,
      insert_empty_eq, Finset.singleton_union]
  refine ⟨?_, ?_, ?_⟩
  · rw [horder, ← hlog]
    rfl
  · unfold LocationRelay.remember
    dsimp only
    rw [hset]
    split_ifs with hlong
    · exact toFinset_tail hnodup (List.concat_ne_nil _ _)
    · rfl
  · have happ := Window.apart_concat_iff.mpr ⟨h.apart, h.order ▸ hfresh⟩
    rwa [← hlog] at happ

/-! ## The throttle -/

/-- What `last_sent_` knows of the log, for a throttle that is on: the admissions of a source are
apart, and none is later than the time it has of the source. -/
structure Throttle (cfg : Config) (s : State) : Prop where
  apart : 0 < cfg.minIntervalSec → s.log.Pairwise fun a b =>
    a.report.source = b.report.source → (cfg.minIntervalSec * second : Int) ≤ b.now - a.now
  unsent : ∀ src, s.lastSent src = none → ∀ a ∈ s.log, a.report.source ≠ src
  sent : 0 < cfg.minIntervalSec → ∀ src t, s.lastSent src = some t →
    ∀ a ∈ s.log, a.report.source = src → a.now ≤ t

/-- A difference that is some whole seconds, cut towards zero, is no less than them. -/
theorem le_of_toSeconds {m : Nat} {d : Int} (hm : 0 < m) (h : (m : Int) ≤ toSeconds d) :
    (m * second : Int) ≤ d := by
  have hnonneg : 0 ≤ d := by
    by_contra hneg
    have hflip : (-(-d)).tdiv second = -((-d).tdiv second) := Int.neg_tdiv _ _
    have hback : 0 ≤ (-d).tdiv second := Int.tdiv_nonneg (by omega) (by decide)
    rw [neg_neg] at hflip
    rw [toSeconds] at h
    omega
  rw [toSeconds, Int.tdiv_eq_ediv_of_nonneg hnonneg] at h
  exact (Int.le_ediv_iff_mul_le (by decide)).mp h

/-- **What an admission keeps** of the throttle. -/
theorem Throttle.remember (h : Throttle cfg s) (hadm : admits cfg s report now = true) :
    Throttle cfg (remember s report now) := by
  have hlater : 0 < cfg.minIntervalSec → ∀ a ∈ s.log, a.report.source = report.source →
      (cfg.minIntervalSec * second : Int) ≤ now - a.now := by
    intro hpos a ha hsrc
    rw [admits, Bool.and_eq_true] at hadm
    cases hlast : s.lastSent report.source with
    | none => exact absurd hsrc (h.unsent _ hlast a ha)
    | some t =>
      rw [hlast] at hadm
      have hge := of_decide_eq_false (Bool.not_eq_true' _ ▸ hadm.2)
      have hsec := le_of_toSeconds hpos (not_lt.mp hge)
      have hle := h.sent hpos _ t hlast a ha hsrc
      omega
  refine ⟨fun hpos => ?_, fun src hnone a ha => ?_, fun hpos src t hsome a ha hsrc => ?_⟩
  · refine List.pairwise_append.mpr ⟨h.apart hpos, List.pairwise_singleton _ _, fun a ha b hb => ?_⟩
    obtain rfl := List.mem_singleton.mp hb
    exact hlater hpos a ha
  · unfold LocationRelay.remember at hnone ha
    dsimp only at hnone ha
    by_cases heq : src = report.source
    · rw [heq, Function.update_self] at hnone
      cases hnone
    · rw [Function.update_of_ne heq] at hnone
      obtain ha | ha := List.mem_append.mp ha
      · exact h.unsent src hnone a ha
      · obtain rfl := List.mem_singleton.mp ha
        exact fun hsrc => heq hsrc.symm
  · unfold LocationRelay.remember at hsome ha
    dsimp only at hsome ha
    by_cases heq : src = report.source
    · rw [heq, Function.update_self] at hsome
      obtain rfl := Option.some.inj hsome
      obtain ha | ha := List.mem_append.mp ha
      · have hle := hlater hpos a ha (hsrc.trans heq)
        have hsec : (0 : Int) ≤ cfg.minIntervalSec * second := by positivity
        omega
      · obtain rfl := List.mem_singleton.mp ha
        exact le_rfl
    · rw [Function.update_of_ne heq] at hsome
      obtain ha | ha := List.mem_append.mp ha
      · exact h.sent hpos src t hsome a ha hsrc
      · obtain rfl := List.mem_singleton.mp ha
        exact absurd hsrc.symm heq

/-- Two admissions of a source are apart, in whichever order their times are. -/
theorem Throttle.interval (h : Throttle cfg s) : s.log.Pairwise fun a b =>
    a.report.source = b.report.source → (cfg.minIntervalSec * second : Int) ≤ |b.now - a.now| := by
  by_cases hpos : 0 < cfg.minIntervalSec
  · exact (h.apart hpos).imp fun hab hsrc => (hab hsrc).trans (le_abs_self _)
  · rw [Nat.eq_zero_of_not_pos hpos, Nat.cast_zero, zero_mul]
    exact List.pairwise_of_forall fun _ _ _ => abs_nonneg _

/-! ## The queue -/

/-- The queue is the newest admissions in their order, and what the worker holds is older. -/
structure Outbound (cfg : Config) (s : State) : Prop where
  size : s.queue.length ≤ cfg.queueSize
  newest : s.queue.map Queued.number <:+ List.range s.log.length
  reports : ∀ q ∈ s.queue, (s.log.map Admission.report)[q.number]? = some q.report
  held : ∀ q, s.held = some q → (∀ q' ∈ s.queue, q.number < q'.number) ∧
    (s.log.map Admission.report)[q.number]? = some q.report

theorem number_lt {q : Queued} {log : List Admission}
    (h : (log.map Admission.report)[q.number]? = some q.report) : q.number < log.length := by
  obtain ⟨hlt, -⟩ := List.getElem?_eq_some_iff.mp h
  rwa [List.length_map] at hlt

/-- A report put behind the newest admissions is among them if it is the next. -/
theorem suffix_concat_iff {numbers : List Nat} {n k : Nat} :
    numbers ++ [k] <:+ List.range (n + 1) ↔ numbers <:+ List.range n ∧ k = n := by
  rw [List.range_succ]
  constructor
  · rintro ⟨front, hfront⟩
    rw [← List.append_assoc] at hfront
    obtain ⟨hnumbers, hlast⟩ := List.append_inj' hfront rfl
    exact ⟨⟨front, hnumbers⟩, List.singleton_inj.mp hlast⟩
  · rintro ⟨⟨front, hfront⟩, rfl⟩
    exact ⟨front, by rw [← List.append_assoc, hfront]⟩

/-- **What `push` keeps** of the queue: the next admission goes to its back, and the front goes
where there is no room. -/
theorem Outbound.push (h : Outbound cfg s) {q : Queued} (hroom : 0 < cfg.queueSize)
    (hnumber : q.number = s.log.length) (hqueue : s'.queue = s.queue) (hheld : s'.held = s.held)
    (hlog : s'.log = s.log ++ [⟨q.report, now⟩]) :
    ∃ queue, LocationRelay.push cfg s' q = some { s' with queue } ∧
      Outbound cfg { s' with queue } := by
  have hold {i : Nat} {r : LocationReport} (hi : (s.log.map Admission.report)[i]? = some r) :
      (s'.log.map Admission.report)[i]? = some r := by
    obtain ⟨hlt, -⟩ := List.getElem?_eq_some_iff.mp hi
    rw [hlog, List.map_append, List.getElem?_append_left hlt, hi]
  have hnew : (s'.log.map Admission.report)[q.number]? = some q.report := by
    rw [hlog, List.map_append, hnumber, List.getElem?_append_right (by simp)]
    simp
  have hlen : s'.log.length = s.log.length + 1 := by rw [hlog, List.length_append]; rfl
  have hfront (front : List Queued) (hsub : front <:+ s.queue)
      (hsize : front.length + 1 ≤ cfg.queueSize) :
      Outbound cfg { s' with queue := front ++ [q] } := by
    refine ⟨?_, ?_, fun q' hq' => ?_, fun q' hq' => ?_⟩
    · rwa [List.length_append]
    · dsimp only
      rw [List.map_append, hlen]
      exact suffix_concat_iff.mpr ⟨(hsub.map _).trans h.newest, hnumber⟩
    · obtain hq' | hq' := List.mem_append.mp hq'
      · exact hold (h.reports q' (hsub.subset hq'))
      · obtain rfl := List.mem_singleton.mp hq'
        exact hnew
    · obtain ⟨holder, hreport⟩ := h.held q' (hheld ▸ hq')
      refine ⟨fun q'' hq'' => ?_, hold hreport⟩
      obtain hq'' | hq'' := List.mem_append.mp hq''
      · exact holder q'' (hsub.subset hq'')
      · obtain rfl := List.mem_singleton.mp hq''
        rw [hnumber]
        exact number_lt hreport
  unfold LocationRelay.push
  rw [hqueue]
  split_ifs with hfull
  · cases hq : s.queue with
    | nil =>
      rw [hq, List.length_nil] at hfull
      omega
    | cons first rest =>
      have hsize := h.size
      rw [hq, List.length_cons] at hsize
      exact ⟨rest ++ [q], rfl, hfront rest ⟨[first], hq.symm⟩ hsize⟩
  · exact ⟨s.queue ++ [q], rfl, hfront s.queue List.suffix_rfl (by omega)⟩

/-- **What the worker's look keeps**: it takes the oldest. -/
theorem Outbound.dequeue (h : Outbound cfg s) : Outbound cfg (dequeue s) := by
  unfold LocationRelay.dequeue
  split
  · rename_i q rest hheld hqueue
    have hnewest := h.newest
    have hsorted : (s.queue.map Queued.number).Pairwise (· < ·) :=
      List.pairwise_lt_range.sublist hnewest.sublist
    rw [hqueue, List.map_cons] at hnewest hsorted
    have hsize := h.size
    rw [hqueue, List.length_cons] at hsize
    have hroom : rest.length ≤ cfg.queueSize := by omega
    refine ⟨hroom, (List.suffix_cons _ _).trans hnewest, fun q' hq' => ?_, fun q' hq' => ?_⟩
    · exact h.reports q' (hqueue ▸ List.mem_cons_of_mem q hq')
    · obtain rfl := Option.some.inj hq'
      refine ⟨fun q' hq' => ?_, h.reports q (hqueue ▸ List.mem_cons_self)⟩
      exact (List.pairwise_cons.mp hsorted).1 _ (List.mem_map_of_mem hq')
  · exact h

/-- A report that comes back is still the newest, or there is no room for it. -/
def ComesBackNewest (cfg : Config) (s : State) (clock : Int) (answer : Option Nat)
    (running : Bool) : Prop :=
  ∀ q, s.held = some q → putsBack q clock answer running = true →
    s.queue.length < cfg.queueSize → q.number + 1 = s.log.length

/-- **What the worker's second look keeps.** -/
theorem Outbound.settle (h : Outbound cfg s) {answer : Option Nat} {running : Bool}
    (hmeets : ComesBackNewest cfg s clock answer running) :
    Outbound cfg (settle cfg s clock answer running) := by
  unfold LocationRelay.settle
  cases hheld : s.held with
  | none => exact h
  | some q =>
    obtain ⟨holder, hreport⟩ := h.held q hheld
    dsimp only
    split_ifs with hback
    · rw [Bool.and_eq_true, decide_eq_true_eq] at hback
      obtain ⟨hputs, hroom⟩ := hback
      have hnumber := hmeets q hheld hputs hroom
      have hempty : s.queue = [] := by
        rw [List.eq_nil_iff_forall_not_mem]
        intro q' hq'
        have hlt := number_lt (h.reports q' hq')
        have holder := holder q' hq'
        omega
      rw [hempty] at hroom ⊢
      refine ⟨hroom, ?_, fun q' hq' => ?_, fun _ hq' => nomatch hq'⟩
      · dsimp only
        rw [← hnumber]
        exact suffix_concat_iff.mpr ⟨List.nil_suffix, rfl⟩
      · obtain rfl := List.mem_singleton.mp hq'
        exact hreport
    · exact ⟨h.size, h.newest, h.reports, fun _ hq' => nomatch hq'⟩

/-- A report that comes back behind newer ones is out of order. -/
theorem Outbound.of_settle (h : Outbound cfg s) {answer : Option Nat} {running : Bool}
    (hnewest : (LocationRelay.settle cfg s clock answer running).queue.map Queued.number <:+
      List.range (LocationRelay.settle cfg s clock answer running).log.length) :
    ComesBackNewest cfg s clock answer running := by
  intro q hheld hputs hroom
  have hlt := number_lt (h.held q hheld).2
  have hback : (putsBack q clock answer running && decide (s.queue.length < cfg.queueSize)) = true := by
    rw [hputs, decide_eq_true hroom]
    rfl
  unfold LocationRelay.settle at hnewest
  rw [hheld] at hnewest
  dsimp only at hnewest
  rw [if_pos hback] at hnewest
  obtain ⟨n, hn⟩ : ∃ n, s.log.length = n + 1 := ⟨s.log.length - 1, by omega⟩
  dsimp only at hnewest
  rw [List.map_append, hn] at hnewest
  have hlast : q.number = n := (suffix_concat_iff.mp hnewest).2
  omega

/-- What is pushed is in the queue. -/
theorem push_ne_nil {q : Queued} (h : push cfg s q = some s') : 0 < s'.queue.length := by
  unfold push at h
  split_ifs at h
  · cases hq : s.queue with
    | nil =>
      rw [hq] at h
      cases h
    | cons first rest =>
      rw [hq] at h
      obtain rfl := Option.some.inj h
      exact List.length_pos_iff.mpr (List.concat_ne_nil _ _)
  · obtain rfl := Option.some.inj h
    exact List.length_pos_iff.mpr (List.concat_ne_nil _ _)

/-! ## Runs -/

/-- What is to hold in every state, and that there is one. -/
structure Sound (cfg : Config) (s : State) : Prop where
  keys : s.dedupSet = s.dedupOrder.toFinset
  nodup : s.dedupOrder.Nodup
  length_le : s.dedupOrder.length ≤ dedupSize
  apart : Window.Apart dedupSize (s.log.map fun a => a.report.dedupKey)
  interval : s.log.Pairwise fun a b => a.report.source = b.report.source →
    (cfg.minIntervalSec * second : Int) ≤ |b.now - a.now|
  size : s.queue.length ≤ cfg.queueSize
  newest : s.queue.map Queued.number <:+ List.range s.log.length
  reports : ∀ q ∈ s.queue, (s.log.map Admission.report)[q.number]? = some q.report

/-- No report is admitted where there is room for none, and none comes back behind newer ones. -/
def Meets (cfg : Config) (s : Option State) (op : Op) : Prop :=
  ∀ s₀, s = some s₀ →
    match op with
    | .enqueue report now _ => admits cfg s₀ report now = true → 0 < cfg.queueSize
    | .dequeue => True
    | .settle clock answer running => ComesBackNewest cfg s₀ clock answer running

/-- The invariant of the runs. -/
structure Inv (cfg : Config) (s : State) : Prop where
  dedup : Dedup s
  throttle : Throttle cfg s
  outbound : Outbound cfg s

theorem Inv.sound (h : Inv cfg s) : Sound cfg s where
  keys := h.dedup.keys
  nodup := h.dedup.nodup
  length_le := h.dedup.length_le
  apart := h.dedup.apart
  interval := h.throttle.interval
  size := h.outbound.size
  newest := h.outbound.newest
  reports := h.outbound.reports

theorem inv_init (cfg : Config) : Inv cfg {} where
  dedup := ⟨rfl, rfl, Window.apart_nil _⟩
  throttle := ⟨fun _ => List.Pairwise.nil, fun _ _ _ ha => (List.not_mem_nil ha).elim,
    fun _ _ _ h => nomatch h⟩
  outbound := ⟨Nat.zero_le _, List.nil_suffix, fun _ hq => (List.not_mem_nil hq).elim,
    fun _ h => nomatch h⟩

/-- **What an `enqueue` keeps**, with room for a report. -/
theorem Inv.enqueue (h : Inv cfg s) (hroom : admits cfg s report now = true → 0 < cfg.queueSize) :
    ∃ s', enqueue cfg s report now clock = some s' ∧ Inv cfg s' := by
  unfold LocationRelay.enqueue
  split_ifs with hadm
  · have hnew : report.dedupKey ∉ s.dedupSet := by
      rw [admits, Bool.and_eq_true, decide_eq_true_eq] at hadm
      exact hadm.1
    have hdedup : Dedup (remember s report now) := h.dedup.remember hnew
    have hthrottle := h.throttle.remember hadm
    obtain ⟨queue, hpush, hout⟩ := @Outbound.push cfg s (remember s report now) now h.outbound
      { report, enqueuedAt := clock, retryCount := 0, number := s.log.length } (hroom hadm) rfl rfl
      rfl rfl
    exact ⟨_, hpush, ⟨hdedup.order, hdedup.keys, hdedup.apart⟩,
      ⟨hthrottle.apart, hthrottle.unsent, hthrottle.sent⟩, hout⟩
  · exact ⟨s, rfl, h⟩

theorem Inv.dequeue (h : Inv cfg s) : Inv cfg (dequeue s) := by
  have hout := h.outbound.dequeue
  unfold LocationRelay.dequeue at hout ⊢
  split
  · rename_i hheld hqueue
    rw [hheld, hqueue] at hout
    exact ⟨⟨h.dedup.order, h.dedup.keys, h.dedup.apart⟩,
      ⟨h.throttle.apart, h.throttle.unsent, h.throttle.sent⟩, hout⟩
  · exact h

theorem Inv.settle (h : Inv cfg s) {answer : Option Nat} {running : Bool}
    (hmeets : ComesBackNewest cfg s clock answer running) :
    Inv cfg (settle cfg s clock answer running) := by
  have hout := h.outbound.settle hmeets
  unfold LocationRelay.settle at hout ⊢
  cases hheld : s.held with
  | none => exact h
  | some q =>
    rw [hheld] at hout
    dsimp only at hout ⊢
    split_ifs at hout ⊢
    · exact ⟨⟨h.dedup.order, h.dedup.keys, h.dedup.apart⟩,
        ⟨h.throttle.apart, h.throttle.unsent, h.throttle.sent⟩, hout⟩
    · exact ⟨⟨h.dedup.order, h.dedup.keys, h.dedup.apart⟩,
        ⟨h.throttle.apart, h.throttle.unsent, h.throttle.sent⟩, hout⟩

/-- **The sound runs** are those in which no report is admitted without room for one, and none
comes back behind newer ones. -/
theorem admissions_iff (cfg : Config) (ops : List Op) :
    Machine.AllStates (step cfg) (fun s => ∃ s₀, s = some s₀ ∧ Sound cfg s₀) (some {}) ops ↔
      Machine.AllSteps (step cfg) (Meets cfg) (some {}) ops := by
  have hstep : ∀ s op, (∃ s₀, s = some s₀ ∧ Inv cfg s₀) → Meets cfg s op →
      ∃ s₀, step cfg s op = some s₀ ∧ Inv cfg s₀ := by
    rintro _ op ⟨s₀, rfl, hinv⟩ hmeets
    have hop := hmeets s₀ rfl
    cases op with
    | enqueue report now clock => exact hinv.enqueue hop
    | dequeue => exact ⟨_, rfl, hinv.dequeue⟩
    | settle clock answer running => exact ⟨_, rfl, hinv.settle hop⟩
  have hbad : ∀ s op, (∃ s₀, s = some s₀ ∧ Inv cfg s₀) → ¬ Meets cfg s op →
      ¬ ∃ s₀, step cfg s op = some s₀ ∧ Sound cfg s₀ := by
    rintro _ op ⟨s₀, rfl, hinv⟩ hmeets ⟨s₁, hs₁, hsound⟩
    refine hmeets fun s₀' heq => ?_
    obtain rfl := Option.some.inj heq
    cases op with
    | enqueue report now clock =>
      intro hadm
      have hs₁ : (if admits cfg s₀ report now = true then _ else _) = some s₁ := hs₁
      rw [if_pos hadm] at hs₁
      exact (push_ne_nil hs₁).trans_le hsound.size
    | dequeue => trivial
    | settle clock answer running =>
      obtain rfl := Option.some.inj hs₁
      exact hinv.outbound.of_settle hsound.newest
  exact Machine.allStates_iff_allSteps hstep (fun s ⟨s₀, hs, hinv⟩ => ⟨s₀, hs, hinv.sound⟩) hbad
    ⟨_, rfl, inv_init cfg⟩

/-- With room for no report, the first one meets an empty queue. -/
theorem admissions_fail : ¬ ∀ (cfg : Config) (ops : List Op),
    Machine.AllStates (step cfg) (fun s => ∃ s₀, s = some s₀ ∧ Sound cfg s₀) (some {}) ops := by
  intro h
  obtain ⟨-, s₀, hs₀, -⟩ := h ⟨0, 30⟩ [.enqueue ⟨['A'], ['A', '|']⟩ 0 0]
  cases hs₀

end OpenALE.LocationRelay
