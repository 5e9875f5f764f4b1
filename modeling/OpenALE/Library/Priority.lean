import Mathlib

/-!
# Queues with two classes

A queue in which an urgent element goes behind the urgent ones that wait and any other to the end,
and one consumer that takes the first element in hand before it serves it.

Results:
* `Ordered.enqueue`, `Ordered.take`, `Ordered.serve`: each class is served in the order of its
  requests, and none is lost or served twice.
* `Ordered.served_before`: an element that is not urgent is served after everything requested
  before it.
-/

namespace Priority

variable {α : Type*} {p : α → Bool} {b : Bool} {c : α} {q xs ys issued served : List α}
  {hand : Option α}

/-- The elements of one class. -/
def cls (p : α → Bool) (b : Bool) (q : List α) : List α := q.filter fun c => p c == b

/-- An urgent element goes before the first that is not, any other to the end. -/
def enqueue (p : α → Bool) (c : α) (q : List α) : List α :=
  if p c = true then q.takeWhile p ++ c :: q.dropWhile p else q ++ [c]

/-- No urgent element waits behind one that is not. -/
def Sorted (p : α → Bool) (q : List α) : Prop := ∀ c ∈ q.dropWhile p, p c = false

theorem cls_append (p : α → Bool) (b : Bool) (q q' : List α) :
    cls p b (q ++ q') = cls p b q ++ cls p b q' := List.filter_append _ _

theorem cls_of_forall (h : ∀ c ∈ q, p c = b) : cls p b q = q :=
  List.filter_eq_self.mpr fun c hc => beq_iff_eq.mpr (h c hc)

theorem cls_of_ne (h : ∀ c ∈ q, p c = !b) : cls p b q = [] := by
  refine List.filter_eq_nil_iff.mpr fun c hc => ?_
  rw [h c hc]
  cases b <;> decide

theorem mem_cls : c ∈ cls p b q ↔ c ∈ q ∧ p c = b := by
  rw [cls, List.mem_filter, beq_iff_eq]

theorem takeWhile_urgent (p : α → Bool) (q : List α) : ∀ c ∈ q.takeWhile p, p c = true :=
  fun _ hc => List.mem_takeWhile_imp hc

/-- In a sorted queue the classes stand one behind the other. -/
theorem Sorted.cls_eq (h : Sorted p q) :
    cls p true q = q.takeWhile p ∧ cls p false q = q.dropWhile p := by
  have hsplit := List.takeWhile_append_dropWhile (p := p) (l := q)
  have htrue : cls p true q = cls p true (q.takeWhile p) ++ cls p true (q.dropWhile p) := by
    rw [← cls_append, hsplit]
  have hfalse : cls p false q = cls p false (q.takeWhile p) ++ cls p false (q.dropWhile p) := by
    rw [← cls_append, hsplit]
  constructor
  · rw [htrue, cls_of_forall (takeWhile_urgent p q), cls_of_ne (b := true) h, List.append_nil]
  · rw [hfalse, cls_of_ne (b := false) (takeWhile_urgent p q), cls_of_forall h, List.nil_append]

theorem sorted_nil : Sorted p [] := fun _ h => nomatch h

theorem sorted_append (hx : ∀ c ∈ xs, p c = true) (hy : ∀ c ∈ ys, p c = false) :
    Sorted p (xs ++ ys) := by
  intro c hc
  rw [List.dropWhile_append_of_pos hx] at hc
  exact hy c (List.dropWhile_sublist p |>.subset hc)

theorem Sorted.enqueue (h : Sorted p q) (c : α) : Sorted p (enqueue p c q) := by
  unfold Priority.enqueue
  split_ifs with hc
  · rw [List.append_cons]
    refine sorted_append ?_ h
    intro x hx
    obtain hx | hx := List.mem_append.mp hx
    · exact takeWhile_urgent p q x hx
    · rw [List.mem_singleton.mp hx, hc]
  · rw [← List.takeWhile_append_dropWhile (p := p) (l := q), List.append_assoc]
    refine sorted_append (takeWhile_urgent p q) ?_
    intro x hx
    obtain hx | hx := List.mem_append.mp hx
    · exact h x hx
    · rw [List.mem_singleton.mp hx]
      exact eq_false_of_ne_true hc

theorem Sorted.tail (h : Sorted p (c :: q)) : Sorted p q := by
  intro x hx
  refine h x ?_
  rw [List.dropWhile_cons]
  split_ifs
  · exact hx
  · exact List.mem_cons_of_mem _ (List.dropWhile_sublist p |>.subset hx)

/-- Behind an element that is not urgent there is no urgent one. -/
theorem Sorted.cls_of_head (h : Sorted p (c :: q)) (hc : p c = false) : cls p true q = [] := by
  refine cls_of_ne fun x hx => ?_
  refine h x ?_
  rw [List.dropWhile_cons, if_neg (by rw [hc]; decide)]
  exact List.mem_cons_of_mem _ hx

/-- A request goes to the end of its class. -/
theorem cls_enqueue (h : Sorted p q) (b : Bool) (c : α) :
    cls p b (enqueue p c q) = cls p b q ++ cls p b [c] := by
  unfold enqueue
  split_ifs with hc
  · obtain ⟨htrue, hfalse⟩ := h.cls_eq
    have hcons : cls p b (c :: q.dropWhile p) = cls p b [c] ++ cls p b (q.dropWhile p) := by
      rw [← cls_append, List.singleton_append]
    rw [cls_append, hcons]
    cases b with
    | true =>
      rw [htrue, cls_of_forall (takeWhile_urgent p q), cls_of_ne (b := true) h, List.append_nil]
    | false =>
      have hnone : cls p false [c] = [] := cls_of_ne fun x hx => List.mem_singleton.mp hx ▸ hc
      rw [hfalse, cls_of_ne (b := false) (takeWhile_urgent p q), cls_of_forall h, hnone,
        List.append_nil, List.nil_append, List.nil_append]
  · rw [cls_append]

/-! ## The log -/

/-- What was requested, served, is in hand and waits: each class in the order of its requests. What
is urgent and waits behind an element in hand that is not was requested after it was taken. -/
structure Ordered (p : α → Bool) (issued served : List α) (hand : Option α) (q : List α) :
    Prop where
  sorted : Sorted p q
  order : ∀ b, cls p b issued = cls p b served ++ cls p b hand.toList ++ cls p b q
  barrier : ∀ c ∈ hand, p c = false →
    ∃ xs ys, issued = xs ++ ys ∧ c ∈ xs ∧ cls p true q = cls p true ys

theorem ordered_nil (p : α → Bool) : Ordered p [] [] none [] where
  sorted := sorted_nil
  order _ := rfl
  barrier := by simp

theorem Ordered.enqueue (h : Ordered p issued served hand q) (c : α) :
    Ordered p (issued ++ [c]) served hand (enqueue p c q) where
  sorted := h.sorted.enqueue c
  order b := by rw [cls_append, h.order b, cls_enqueue h.sorted, List.append_assoc _ _ (cls p b [c])]
  barrier := by
    intro x hx hurgent
    obtain ⟨xs, ys, rfl, hmem, hwait⟩ := h.barrier x hx hurgent
    refine ⟨xs, ys ++ [c], List.append_assoc _ _ _, hmem, ?_⟩
    rw [cls_enqueue h.sorted, hwait, cls_append]

theorem Ordered.take (h : Ordered p issued served none (c :: q)) :
    Ordered p issued served (some c) q where
  sorted := h.sorted.tail
  order b := by
    rw [h.order b, ← List.singleton_append, cls_append, Option.toList_none, Option.toList_some,
      ← List.append_assoc]
    simp [cls]
  barrier := by
    rintro x ⟨⟩ hurgent
    have hmem : c ∈ cls p false issued := by
      rw [h.order false]
      exact List.mem_append_right _ (mem_cls.mpr ⟨List.mem_cons_self, hurgent⟩)
    exact ⟨issued, [], (List.append_nil _).symm, (mem_cls.mp hmem).1, h.sorted.cls_of_head hurgent⟩

theorem Ordered.serve (h : Ordered p issued served (some c) q) :
    Ordered p issued (served ++ [c]) none q where
  sorted := h.sorted
  order b := by
    rw [h.order b, cls_append, Option.toList_none, Option.toList_some]
    simp [cls]
  barrier := by simp

/-- **What is served of a class** was requested first. -/
theorem Ordered.served_first (h : Ordered p issued served hand q) (b : Bool) :
    cls p b served <+: cls p b issued := by
  rw [h.order b, List.append_assoc]
  exact List.prefix_append _ _

/-- **An element that is not urgent is served after everything requested before it.** -/
theorem Ordered.served_before (h : Ordered p issued served (some c) q) (hc : p c = false)
    (hsplit : issued = xs ++ c :: ys) (hx : c ∉ xs) (hy : c ∉ ys) :
    cls p true xs <+: cls p true served ∧ cls p false xs = cls p false served := by
  have hnone : cls p true [c] = [] := cls_of_ne fun x hx => List.mem_singleton.mp hx ▸ hc
  have hsome : cls p false [c] = [c] := cls_of_forall fun x hx => List.mem_singleton.mp hx ▸ hc
  obtain ⟨us, vs, hissued, hmem, hwait⟩ := h.barrier c rfl hc
  constructor
  · -- the urgent elements that wait were requested after `c` was taken
    have hurgent := h.order true
    rw [Option.toList_some, hnone, List.append_nil, hissued, cls_append, hwait] at hurgent
    have hus := List.append_cancel_right hurgent
    have hinit : xs <+: us := by
      have hxs : xs <+: us ++ vs := ⟨c :: ys, hsplit.symm.trans hissued⟩
      obtain hle | hlt := le_or_gt xs.length us.length
      · exact List.prefix_of_prefix_length_le hxs (List.prefix_append us vs) hle
      · have hus' : us <+: xs :=
          List.prefix_of_prefix_length_le (List.prefix_append us vs) hxs hlt.le
        exact absurd (hus'.subset hmem) hx
    rw [← hus]
    exact hinit.filter _
  · have horder := h.order false
    rw [hsplit, ← List.singleton_append, cls_append, cls_append, Option.toList_some, hsome,
      List.append_assoc, List.singleton_append, List.singleton_append] at horder
    have hx' : c ∉ cls p false xs := fun hmem => hx (mem_cls.mp hmem).1
    have hy' : c ∉ cls p false ys := fun hmem => hy (mem_cls.mp hmem).1
    exact ((List.append_cons_inj_of_notMem hx' hy').mp horder).1

end Priority
