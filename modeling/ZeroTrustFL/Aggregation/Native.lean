import Mathlib
import ZeroTrustFL.Lib.OrderStatistics
import ZeroTrustFL.Lib.FloatRound

/-!
# The native aggregators

`cpp/src/byzantine_aggregator.cpp` in exact arithmetic: the elements of updates are the rational
numbers that finite floats are, and sums, products and quotients are not rounded.  What the
algorithms of the standard library do beyond their specification is left open.
-/

namespace ZeroTrustFL

/-! ## The standard library -/

/-- `¬ less b a` is a total preorder of `a` and `b`. -/
structure StrictWeakOrder (less : ℕ → ℕ → Bool) : Prop where
  asymm : ∀ a b, less a b = true → less b a = false
  trans : ∀ a b c, less b a = false → less c b = false → less c a = false

/-- Algorithms of the C++ standard library that meet their specification. -/
structure StdAlgorithms where
  sort : List ℚ → List ℚ
  sort_perm : ∀ xs, (sort xs).Perm xs
  sort_pairwise : ∀ xs, (sort xs).Pairwise (· ≤ ·)
  nthElement : ℕ → List ℚ → List ℚ
  nthElement_perm : ∀ nth xs, (nthElement nth xs).Perm xs
  nthElement_nth : ∀ nth xs, (nthElement nth xs)[nth]? = (sorted xs)[nth]?
  nthElement_split : ∀ nth xs, ∀ x ∈ (nthElement nth xs).take nth,
    ∀ y ∈ (nthElement nth xs).drop nth, x ≤ y
  partialSort : (ℕ → ℕ → Bool) → ℕ → List ℕ → List ℕ
  partialSort_perm : ∀ less middle xs, (partialSort less middle xs).Perm xs
  partialSort_pairwise : ∀ less middle xs, StrictWeakOrder less →
    ((partialSort less middle xs).take middle).Pairwise fun x y => less y x = false
  partialSort_split : ∀ less middle xs, StrictWeakOrder less →
    ∀ x ∈ (partialSort less middle xs).take middle, ∀ y ∈ (partialSort less middle xs).drop middle,
      less y x = false

theorem pairwise_insertionSort_less {less : ℕ → ℕ → Bool} (h : StrictWeakOrder less) (xs : List ℕ) :
    (xs.insertionSort fun a b => less b a = false).Pairwise fun a b => less b a = false := by
  have : Std.Total fun a b : ℕ => less b a = false := ⟨fun a b => by
    rcases hab : less a b with _ | _
    · exact .inr rfl
    · exact .inl (h.asymm a b hab)⟩
  have : IsTrans ℕ fun a b => less b a = false := ⟨fun a b c => h.trans a b c⟩
  exact List.pairwise_insertionSort _ xs

/-- Sorting everything meets the specification of each algorithm. -/
def StdAlgorithms.reference : StdAlgorithms where
  sort := sorted
  sort_perm := sorted_perm
  sort_pairwise := pairwise_sorted
  nthElement _ := sorted
  nthElement_perm _ := sorted_perm
  nthElement_nth _ _ := rfl
  nthElement_split nth xs x hx y hy := by
    have h := pairwise_sorted xs
    rw [← List.take_append_drop nth (sorted xs)] at h
    exact (List.pairwise_append.1 h).2.2 x hx y hy
  partialSort less _ xs := xs.insertionSort fun a b => less b a = false
  partialSort_perm _ _ xs := List.perm_insertionSort _ xs
  partialSort_pairwise less middle xs h := (pairwise_insertionSort_less h xs).sublist
    (List.take_sublist _ _)
  partialSort_split less middle xs h x hx y hy := by
    have hsorted := pairwise_insertionSort_less h xs
    rw [← List.take_append_drop middle (xs.insertionSort fun a b => less b a = false)] at hsorted
    exact (List.pairwise_append.1 hsorted).2.2 x hx y hy

theorem StdAlgorithms.sort_eq (std : StdAlgorithms) (xs : List ℚ) : std.sort xs = sorted xs :=
  eq_sorted (std.sort_perm xs) (std.sort_pairwise xs)

/-! ## Updates -/

/-- `validate_updates`; the elements are finite. -/
def validateUpdates (updates : List (List ℚ)) : Except String ℕ :=
  match updates with
  | [] => .error "at least one model update is required"
  | front :: _ =>
    if front.length = 0 then .error "model updates must not be empty"
    else if updates.any fun update => update.length ≠ front.length then
      .error "all model updates must have the same number of elements"
    else .ok front.length

/-- The values of one coordinate. -/
def coordinate (updates : List (List ℚ)) (d : ℕ) : List ℚ :=
  updates.map fun update => update.getD d 0

/-! ## Krum -/

def squaredDistance (lhs rhs : List ℚ) : ℚ :=
  (List.zipWith (fun x y => (x - y) * (x - y)) lhs rhs).sum

/-- The matrix of distances: the ones above the diagonal are computed and copied below it. -/
def distance (updates : List (List ℚ)) (i j : ℕ) : ℚ :=
  if i < j then squaredDistance (updates.getD i []) (updates.getD j [])
  else if j < i then squaredDistance (updates.getD j []) (updates.getD i [])
  else 0

section

variable (std : StdAlgorithms) (updates : List (List ℚ))

/-- The sum of the distances to the nearest other updates. -/
def krumScore (neighborCount i : ℕ) : ℚ :=
  let nearest := ((List.range updates.length).filter fun j => i ≠ j).map (distance updates i)
  ((std.nthElement neighborCount nearest).take neighborCount).sum

def scoreOrder (scores : List ℚ) (lhs rhs : ℕ) : Bool :=
  if scores.getD lhs 0 = scores.getD rhs 0 then lhs < rhs else scores.getD lhs 0 < scores.getD rhs 0

/-- The indices of the updates with the lowest scores, in the order of selection. -/
def krumSelected (byzantineCount candidateCount : ℕ) : List ℕ :=
  let neighborCount := updates.length - byzantineCount - 2
  let scores := (List.range updates.length).map (krumScore std updates neighborCount)
  (std.partialSort (scoreOrder scores) candidateCount (List.range updates.length)).take
  candidateCount

/-- The mean of some updates. -/
def meanOf (dimension : ℕ) (selected : List (List ℚ)) : List ℚ :=
  (List.range dimension).map fun d => (coordinate selected d).sum / selected.length

def krumAggregate (byzantineCount candidateCount : ℕ) : Except String (List ℚ) :=
  match validateUpdates updates with
  | .error e => .error e
  | .ok dimension =>
    let n := updates.length
    if n < 2 * byzantineCount + 3 then .error "Krum requires n >= 2*f + 3"
    else
      let neighborCount := n - byzantineCount - 2
      if candidateCount = 0 ∨ candidateCount > neighborCount then
        .error "Multi-Krum candidate count k must satisfy 1 <= k <= n-f-2"
      else
        let selected := (krumSelected std updates byzantineCount candidateCount).map fun i =>
          updates.getD i []
        if candidateCount = 1 then .ok (selected.headD []) else .ok (meanOf dimension selected)

/-! ## Trimmed mean and median -/

/-- The number of values that are dropped at each end. -/
def trimCount (beta : ℚ) (n : ℕ) : ℕ := (beta * n).floor.toNat

/-- The trimmed mean of the values of one coordinate. -/
def trimmedMeanOf (trim : ℕ) (values : List ℚ) : ℚ :=
  let n := values.length
  (((std.sort values).take (n - trim)).drop trim).sum / (n - 2 * trim : ℕ)

def trimmedMeanAggregate (beta : Float32) : Except String (List ℚ) :=
  match validateUpdates updates with
  | .error e => .error e
  | .ok dimension =>
    let n := updates.length
    if beta.isFinite = false ∨ value32 beta < 0 ∨ 1 / 2 ≤ value32 beta then
      .error "trim ratio beta must satisfy 0 <= beta < 0.5"
    else
      let trim := trimCount (value32 beta) n
      if n ≤ 2 * trim then .error "trim ratio removes every model update"
      else .ok ((List.range dimension).map fun d => trimmedMeanOf std trim (coordinate updates d))

/-- `std::max_element` of a list that is not empty. -/
def maxElement : List ℚ → ℚ
  | [] => 0
  | x :: xs => xs.foldl max x

/-- The median of the values of one coordinate. -/
def medianOfValues (values : List ℚ) : ℚ :=
  let n := values.length
  let middle := n / 2
  let values := std.nthElement middle values
  let upper := values.getD middle 0
  if n % 2 ≠ 0 then upper
  else (maxElement (values.take middle) + upper) * (1 / 2)

def medianAggregate : Except String (List ℚ) :=
  match validateUpdates updates with
  | .error e => .error e
  | .ok dimension =>
    .ok ((List.range dimension).map fun d => medianOfValues std (coordinate updates d))

end

end ZeroTrustFL
