import Mathlib

/-!
# Order statistics of lists

The sorted list of a list, its elements at given positions and the sums of its smallest elements.  A
list that is split into smaller and larger elements at a position has the smallest elements in front
(`take_perm_of_split`); an element away from the ends of the sorted list is bounded when most values
are (`sorted_between`); the smallest elements have the smallest sum (`sum_take_sorted_le`).  A loop
that keeps the smallest value it has met finds one (`smallest_spec`).
-/

namespace ZeroTrustFL

section Order

variable {α : Type*} [LinearOrder α]

/-- The elements of a list in increasing order. -/
def sorted (xs : List α) : List α := xs.insertionSort (· ≤ ·)

theorem sorted_perm (xs : List α) : (sorted xs).Perm xs := List.perm_insertionSort _ xs

theorem pairwise_sorted (xs : List α) : (sorted xs).Pairwise (· ≤ ·) :=
  List.pairwise_insertionSort _ xs

@[simp] theorem length_sorted (xs : List α) : (sorted xs).length = xs.length :=
  (sorted_perm xs).length_eq

variable {xs ys : List α} {k : ℕ}

/-- A sorted rearrangement is the sorted list. -/
theorem eq_sorted (hperm : ys.Perm xs) (hsorted : ys.Pairwise (· ≤ ·)) : ys = sorted xs :=
  (hperm.trans (sorted_perm xs).symm).eq_of_pairwise' hsorted (pairwise_sorted xs)

theorem sorted_congr (h : xs.Perm ys) : sorted xs = sorted ys :=
  eq_sorted ((sorted_perm xs).trans h) (pairwise_sorted xs)

/-- When no element in front of a position exceeds one behind it, sorting sorts both parts. -/
theorem sorted_eq_append (h : ∀ x ∈ xs.take k, ∀ y ∈ xs.drop k, x ≤ y) :
    sorted xs = sorted (xs.take k) ++ sorted (xs.drop k) := by
  have hperm : (sorted (xs.take k) ++ sorted (xs.drop k)).Perm xs := by
    conv_rhs => rw [← List.take_append_drop k xs]
    exact (sorted_perm _).append (sorted_perm _)
  refine (eq_sorted hperm (List.pairwise_append.2 ⟨pairwise_sorted _, pairwise_sorted _, ?_⟩)).symm
  intro x hx y hy
  exact h x ((sorted_perm _).mem_iff.1 hx) y ((sorted_perm _).mem_iff.1 hy)

/-- The elements in front of such a position are the smallest ones. -/
theorem take_perm_of_split (hperm : ys.Perm xs) (hk : k ≤ xs.length)
    (h : ∀ x ∈ ys.take k, ∀ y ∈ ys.drop k, x ≤ y) : (ys.take k).Perm ((sorted xs).take k) := by
  have hlength : (sorted (ys.take k)).length = k := by
    rw [length_sorted, List.length_take, hperm.length_eq, min_eq_left hk]
  rw [← sorted_congr hperm, sorted_eq_append h, List.take_append_of_le_length hlength.ge,
    List.take_of_length_le hlength.le]
  exact (sorted_perm _).symm

/-! ## Positions and counts -/

theorem getElem_le_of_pairwise (h : xs.Pairwise (· ≤ ·)) {i j : ℕ} (hij : i ≤ j)
    (hj : j < xs.length) : xs[i] ≤ xs[j] := by
  rcases hij.eq_or_lt with rfl | hlt
  · exact le_refl _
  · exact List.pairwise_iff_getElem.1 h i j (by omega) hj hlt

/-- At least as many elements as stand before a position and at it are bounded by the element
there. -/
theorem lt_countP_of_pairwise (h : xs.Pairwise (· ≤ ·)) (hk : k < xs.length) {p : α → Bool}
    (hp : ∀ x, x ≤ xs[k] → p x = true) : k < xs.countP p := by
  have htake : (xs.take (k + 1)).countP p = k + 1 := by
    rw [List.countP_eq_length.2, List.length_take, min_eq_left (by omega)]
    intro x hx
    obtain ⟨i, hi, rfl⟩ := List.mem_iff_getElem.1 hx
    rw [List.length_take] at hi
    rw [List.getElem_take]
    exact hp _ (getElem_le_of_pairwise h (by omega) hk)
  have hle : (xs.take (k + 1)).countP p ≤ xs.countP p := (List.take_sublist _ _).countP_le
  omega

theorem lt_countP_add_of_pairwise (h : xs.Pairwise (· ≤ ·)) (hk : k < xs.length) {p : α → Bool}
    (hp : ∀ x, xs[k] ≤ x → p x = true) : xs.length ≤ xs.countP p + k := by
  have hdrop : (xs.drop k).countP p = xs.length - k := by
    rw [List.countP_eq_length.2, List.length_drop]
    intro x hx
    obtain ⟨i, hi, rfl⟩ := List.mem_iff_getElem.1 hx
    rw [List.length_drop] at hi
    rw [List.getElem_drop]
    exact hp _ (getElem_le_of_pairwise h (by omega) (by omega))
  have hle : (xs.drop k).countP p ≤ xs.countP p := (List.drop_sublist _ _).countP_le
  omega

/-- When all but `b` of some values lie between two bounds, so do the elements of the sorted list
that are at least `b` positions away from its ends. -/
theorem sorted_between {ι : Type*} (v : ι → α) (is : List ι) (bad : ι → Prop) [DecidablePred bad]
    {b : ℕ} (hb : is.countP (fun i => decide (bad i)) ≤ b) (hlow : b ≤ k)
    (hhigh : k + b < is.length) {lo hi : α} (h : ∀ i ∈ is, ¬ bad i → lo ≤ v i ∧ v i ≤ hi)
    (hk : k < (sorted (is.map v)).length) :
    lo ≤ (sorted (is.map v))[k] ∧ (sorted (is.map v))[k] ≤ hi := by
  have hcount (p : α → Bool) (hp : ∀ i ∈ is, p (v i) = true → bad i) :
      (sorted (is.map v)).countP p ≤ b := by
    rw [(sorted_perm _).countP_eq, List.countP_map]
    refine le_trans (List.countP_mono_left fun i hi hpi => ?_) hb
    exact decide_eq_true (hp i hi hpi)
  have hlength : (sorted (is.map v)).length = is.length := by rw [length_sorted, List.length_map]
  constructor
  · by_contra hlt
    rw [not_le] at hlt
    have hlt_count := lt_countP_of_pairwise (p := fun x => decide (x < lo))
      (pairwise_sorted (is.map v)) hk fun x hx => decide_eq_true (lt_of_le_of_lt hx hlt)
    have hle := hcount (fun x => decide (x < lo)) fun i hi hp => by
      by_contra hgood
      exact absurd (of_decide_eq_true hp) (not_lt.2 (h i hi hgood).1)
    omega
  · by_contra hlt
    rw [not_le] at hlt
    have hle_count := lt_countP_add_of_pairwise (p := fun x => decide (hi < x))
      (pairwise_sorted (is.map v)) hk fun x hx => decide_eq_true (lt_of_lt_of_le hlt hx)
    have hle := hcount (fun x => decide (hi < x)) fun i hi hp => by
      by_contra hgood
      exact absurd (of_decide_eq_true hp) (not_lt.2 (h i hi hgood).2)
    omega

end Order

/-! ## Sums -/

section Sum

variable {α : Type*} [AddCommMonoid α] [LinearOrder α] [IsOrderedAddMonoid α]

theorem sum_take_le_of_sublist {xs ys : List α} (hsorted : xs.Pairwise (· ≤ ·))
    (h : ys.Sublist xs) : (xs.take ys.length).sum ≤ ys.sum := by
  induction xs generalizing ys with
  | nil => simp [List.sublist_nil.1 h]
  | cons x xs ih =>
    rcases ys with _ | ⟨y, ys⟩
    · simp
    have hy : x ≤ y := by
      rcases List.mem_cons.1 (h.subset List.mem_cons_self) with rfl | hmem
      · exact le_refl _
      · exact (List.pairwise_cons.1 hsorted).1 y hmem
    simp only [List.length_cons, List.take_succ_cons, List.sum_cons]
    exact add_le_add hy (ih (List.pairwise_cons.1 hsorted).2 h.tail)

/-- The smallest elements have the smallest sum. -/
theorem sum_take_sorted_le {xs ys : List α} (h : ys.Subperm xs) :
    ((sorted xs).take ys.length).sum ≤ ys.sum := by
  have hsub : (sorted ys).Subperm (sorted xs) :=
    ((sorted_perm ys).subperm.trans h).trans (sorted_perm xs).symm.subperm
  have hle := sum_take_le_of_sublist (pairwise_sorted xs)
    (List.sublist_of_subperm_of_pairwise hsub (pairwise_sorted ys) (pairwise_sorted xs))
  rwa [length_sorted, (sorted_perm ys).sum_eq] at hle

end Sum

section Smallest

variable {α K : Type*} [LinearOrder K]

/-- The smallest value that the loop has met and where, `none` before the first element. -/
def smallest (f : α → K) (xs : List α) : Option (K × α) :=
  xs.foldl (fun best x =>
    match best with
    | none => some (f x, x)
    | some (value, y) => if f x < value then some (f x, x) else some (value, y)) none

theorem smallest_append_singleton (f : α → K) (xs : List α) (x : α) :
    smallest f (xs ++ [x]) =
      match smallest f xs with
      | none => some (f x, x)
      | some (value, y) => if f x < value then some (f x, x) else some (value, y) := by
  rw [smallest, List.foldl_append, ← smallest]
  rfl

theorem smallest_spec (f : α → K) {xs : List α} (h : xs ≠ []) :
    ∃ x ∈ xs, smallest f xs = some (f x, x) ∧ ∀ y ∈ xs, f x ≤ f y := by
  induction xs using List.reverseRecOn with
  | nil => exact absurd rfl h
  | append_singleton xs last ih =>
    have hlast : last ∈ xs ++ [last] := List.mem_append_right _ List.mem_cons_self
    rw [smallest_append_singleton]
    rcases eq_or_ne xs [] with rfl | hne
    · exact ⟨last, hlast, rfl, fun y hy => (congrArg f (List.mem_singleton.1 hy)).ge⟩
    obtain ⟨x, hx, hsmallest, hle⟩ := ih hne
    rw [hsmallest]
    dsimp only
    split_ifs with hlt
    · refine ⟨last, hlast, rfl, fun y hy => ?_⟩
      rcases List.mem_append.1 hy with hy | hy
      · exact hlt.le.trans (hle y hy)
      · exact (congrArg f (List.mem_singleton.1 hy)).ge
    · refine ⟨x, List.mem_append_left _ hx, rfl, fun y hy => ?_⟩
      rcases List.mem_append.1 hy with hy | hy
      · exact hle y hy
      · exact (not_lt.1 hlt).trans (congrArg f (List.mem_singleton.1 hy)).ge

end Smallest

end ZeroTrustFL
