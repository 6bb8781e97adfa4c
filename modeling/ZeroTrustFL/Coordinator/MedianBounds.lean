import Mathlib
import ZeroTrustFL.Lib.FloatRound
import ZeroTrustFL.Aggregation.Breakdown
import ZeroTrustFL.Coordinator.ServiceProof

/-!
# Medians of floats

`aggregateMedianUpdates` sorts and averages in double precision and rounds to single precision.  For
finite vectors neither the sorting nor the rounding leaves the values of the updates: where fewer
than half of the updates are faulty, every coordinate of the aggregate is finite and lies between
two honest values (`aggregateMedian_between`).
-/

namespace ZeroTrustFL

theorem isFinite_of_isNonFinite {x : Float32} (h : isNonFinite x = false) : x.isFinite = true := by
  rw [isNonFinite, isNaN_or_isInf, isFinite_float64] at h
  simpa using h

theorem isNonFinite_of_isFinite {x : Float32} (h : x.isFinite = true) : isNonFinite x = false := by
  rw [isNonFinite, isNaN_or_isInf, isFinite_float64, h]
  rfl

/-! ## Sorting -/

/-- `sort.Float64s` orders finite floats by their values. -/
theorem float64Less_eq_false_iff {x y : Float} (hx : x.isFinite = true) (hy : y.isFinite = true) :
    float64Less y x = false ↔ value64 x ≤ value64 y := by
  have hnan : y.isNaN = false := by
    have hor := isNaN_or_isInf y
    rw [hy] at hor
    exact (Bool.or_eq_false_iff.1 hor).1
  rw [float64Less, hnan, Bool.false_and, Bool.or_false, decide_eq_false_iff_not,
    lt_iff_value64 hy hx, not_lt]

theorem sortFloat64s_perm (order : IterOrder) (values : List Float) :
    (sortFloat64s order values).Perm values :=
  (List.perm_insertionSort _ _).trans (order.perm values)

theorem map_sortFloat64s (order : IterOrder) {values : List Float}
    (h : ∀ x ∈ values, x.isFinite = true) :
    (sortFloat64s order values).map value64 = sorted (values.map value64) := by
  have hfinite : ∀ x ∈ order.arrange values, x.isFinite = true := fun x hx =>
    h x ((order.mem_arrange).1 hx)
  have hmap := List.map_insertionSort (fun x y => float64Less y x = false) (· ≤ ·) value64
    (order.arrange values) fun x hx y hy => float64Less_eq_false_iff (hfinite x hx) (hfinite y hy)
  rw [sortFloat64s, hmap]
  exact sorted_congr ((order.perm values).map value64)

section

variable {ι : Type} (v : ι → Float32) (is : List ι) (bad : ι → Prop) [DecidablePred bad] {b : ℕ}
  (hb : is.countP (fun i => decide (bad i)) ≤ b) (hfinite : ∀ i ∈ is, (v i).isFinite = true)

include hfinite

/-- The elements of the sorted column are values of the column, in increasing order. -/
theorem getD_sortFloat64s (order : IterOrder) {k : ℕ} (hk : k < is.length) :
    ∃ i ∈ is, (sortFloat64s order (is.map fun i => float64 (v i))).getD k 0 = float64 (v i) ∧
      value32 (v i) = (sorted (is.map fun i => value32 (v i))).getD k 0 := by
  have hcolumn : ∀ x ∈ is.map fun i => float64 (v i), x.isFinite = true := by
    intro x hx
    obtain ⟨i, hi, rfl⟩ := List.mem_map.1 hx
    exact (float64_finite (hfinite i hi)).1
  have hmap := map_sortFloat64s order hcolumn
  have hvalues : (is.map fun i => float64 (v i)).map value64 = is.map fun i => value32 (v i) := by
    rw [List.map_map]
    exact List.map_congr_left fun i hi => (float64_finite (hfinite i hi)).2
  rw [hvalues] at hmap
  have hlength : k < (sortFloat64s order (is.map fun i => float64 (v i))).length := by
    rw [← List.length_map value64, hmap, length_sorted, List.length_map]
    exact hk
  obtain ⟨i, hi, heq⟩ := List.mem_map.1
    ((sortFloat64s_perm _ _).mem_iff.1 (List.getElem_mem hlength))
  refine ⟨i, hi, by rw [List.getD_eq_getElem _ _ hlength, heq], ?_⟩
  have hsorted : k < (sorted (is.map fun i => value32 (v i))).length := by
    rw [length_sorted, List.length_map]
    exact hk
  rw [List.getD_eq_getElem _ _ hsorted, ← (float64_finite (hfinite i hi)).2, heq]
  simp only [← hmap, List.getElem_map]

include hb

/-- A median of finite floats, fewer than half of which are faulty, is finite and within the bounds
of the honest ones. -/
theorem medianOf_between (order : IterOrder) (hfew : 2 * b < is.length) :
    (medianOf (sortFloat64s order (is.map fun i => float64 (v i)))).isFinite = true ∧
      ∀ lo hi, (∀ i ∈ is, ¬ bad i → lo ≤ value32 (v i) ∧ value32 (v i) ≤ hi) →
        lo ≤ value64 (medianOf (sortFloat64s order (is.map fun i => float64 (v i)))) ∧
          value64 (medianOf (sortFloat64s order (is.map fun i => float64 (v i)))) ≤ hi := by
  have hlength : (sortFloat64s order (is.map fun i => float64 (v i))).length = is.length := by
    rw [(sortFloat64s_perm _ _).length_eq, List.length_map]
  have hbetween {lo hi : ℚ} (h : ∀ i ∈ is, ¬ bad i → lo ≤ value32 (v i) ∧
      value32 (v i) ≤ hi) {k : ℕ} (hlow : b ≤ k) (hhigh : k + b < is.length) :=
    getD_sorted_between (fun i => value32 (v i)) is bad hb h hlow hhigh
  obtain ⟨i, hi, hmiddle, hvalue⟩ := getD_sortFloat64s v is hfinite order (k := is.length / 2)
    (by omega)
  simp only [medianOf, hlength, hmiddle]
  split_ifs with hodd
  · obtain ⟨hfin, hval⟩ := float64_finite (hfinite i hi)
    refine ⟨hfin, fun lo hi h => ?_⟩
    rw [hval, hvalue]
    exact hbetween h (by omega) (by omega)
  · obtain ⟨j, hj, hbelow, hvalue'⟩ := getD_sortFloat64s v is hfinite order (k := is.length / 2 - 1)
      (by omega)
    rw [hbelow]
    have hle : value32 (v j) ≤ value32 (v i) := by
      rw [hvalue, hvalue', List.getD_eq_getElem _ _ (by simp; omega),
        List.getD_eq_getElem _ _ (by simp; omega)]
      exact getElem_le_of_pairwise (pairwise_sorted _) (Nat.sub_le _ _) (by simp; omega)
    obtain ⟨hfin, hlow, hhigh⟩ := midpoint_within (hfinite j hj) (hfinite i hi) hle
    refine ⟨hfin, fun lo hi h => ⟨le_trans ?_ hlow, le_trans hhigh ?_⟩⟩
    · rw [hvalue']
      exact (hbetween h (by omega) (by omega)).1
    · rw [hvalue]
      exact (hbetween h (by omega) (by omega)).2

/-- Rounded to single precision, it lies between two honest values. -/
theorem float32_medianOf_between (order : IterOrder) (hfew : 2 * b < is.length) [DecidableEq ι] :
    let median := float32 (medianOf (sortFloat64s order (is.map fun i => float64 (v i))))
    median.isFinite = true ∧ (∃ i ∈ is, ¬ bad i ∧ v i ≤ median) ∧ ∃ j ∈ is, ¬ bad j ∧
      median ≤ v j := by
  obtain ⟨hfin, hbounds⟩ := medianOf_between v is bad hb hfinite order hfew
  obtain ⟨⟨i, hi, higood, hlow⟩, j, hj, hjgood, hhigh⟩ :=
    exists_honest_bounds (fun i => value32 (v i)) is bad hb (by omega) hbounds
  obtain ⟨hfin', hlow', hhigh'⟩ := float32_within hfin (hfinite i hi) (hfinite j hj) hlow hhigh
  exact ⟨hfin', ⟨i, hi, higood, (le_iff_value32 (hfinite i hi) hfin').2 hlow'⟩, j, hj, hjgood,
    (le_iff_value32 hfin' (hfinite j hj)).2 hhigh'⟩

end

/-! ## The aggregate -/

theorem forM_eq_ok {α : Type} {check : α → Except String Unit} {xs : List α}
    (h : ∀ x ∈ xs, check x = .ok ()) : xs.forM check = .ok () := by
  induction xs with
  | nil => rfl
  | cons x xs ih =>
    rw [List.forM, h x List.mem_cons_self]
    exact ih fun y hy => h y (List.mem_cons_of_mem _ hy)

/-- The vectors are finite and have one length. -/
structure FiniteVectors (n : ℕ) (updates : List PendingUpdate) : Prop where
  length : ∀ u ∈ updates, u.values.length = n
  finite : ∀ u ∈ updates, ∀ v ∈ u.values, isNonFinite v = false

theorem checkMedianUpdate_ok {n : ℕ} {updates : List PendingUpdate} (h : FiniteVectors n updates)
    {u : PendingUpdate} (hu : u ∈ updates) : checkMedianUpdate n u = .ok () := by
  have hany : u.values.any isNonFinite = false := List.any_eq_false.2 fun v hv => by
    simp [h.finite u hu v hv]
  simp [checkMedianUpdate, h.length u hu, hany]

/-- A value between two values that nodes outside the set have at a coordinate. -/
def BetweenHonestValues (F : Finset String) (updates : List PendingUpdate) (index : ℕ)
    (v : Float32) : Prop :=
  (∃ u ∈ updates, u.nodeID ∉ F ∧ u.values.getD index 0 ≤ v) ∧ ∃ u ∈ updates, u.nodeID ∉ F ∧
    v ≤ u.values.getD index 0

/-- Fewer than half of the updates being faulty, the median is computed, and each of its coordinates
is finite and lies between two honest values. -/
theorem aggregateMedian_between (order : IterOrder) {updates : OrdMap String PendingUpdate} {n : ℕ}
    (hn : n ≠ 0) (hkeyed : updates.Keyed PendingUpdate.nodeID)
    (hvectors : FiniteVectors n updates.values) {F : Finset String}
    (hfew : 2 * F.card < updates.size) :
    ∃ aggregated, aggregateMedianUpdates order updates n = .ok aggregated ∧ aggregated.length = n ∧
      ∀ index < n, (aggregated.getD index 0).isFinite = true ∧
        BetweenHonestValues F updates.values index (aggregated.getD index 0) := by
  have hmem {u : PendingUpdate} : u ∈ order.arrange updates.values ↔ u ∈ updates.values :=
    order.mem_arrange
  have hchecks : (order.arrange updates.values).forM (checkMedianUpdate n) = .ok () :=
    forM_eq_ok fun u hu => checkMedianUpdate_ok hvectors (hmem.1 hu)
  have hnodup : ((order.arrange updates.values).map PendingUpdate.nodeID).Nodup :=
    ((order.perm updates.values).map _).nodup_iff.2 hkeyed.nodup_values
  have hlength : (order.arrange updates.values).length = updates.size := by
    rw [order.length_arrange, updates.length_values]
  have hmedian : aggregateMedianUpdates order updates n = .ok ((List.range n).map fun index =>
      float32 (medianOf (sortFloat64s order (column (order.arrange updates.values) index)))) := by
    simp only [aggregateMedianUpdates, if_neg (show ¬ (updates.size = 0 ∨ n = 0) by omega), hchecks]
  refine ⟨_, hmedian, by simp, fun index hindex => ?_⟩
  rw [List.getD_eq_getElem _ _ (by simpa using hindex), List.getElem_map, List.getElem_range]
  have hfinite : ∀ u ∈ order.arrange updates.values, (u.values.getD index 0).isFinite = true := by
    intro u hu
    have hlt : index < u.values.length := by rwa [hvectors.length u (hmem.1 hu)]
    rw [List.getD_eq_getElem _ _ hlt]
    exact isFinite_of_isNonFinite (hvectors.finite u (hmem.1 hu) _ (List.getElem_mem hlt))
  obtain ⟨hfin, ⟨i, hi, higood, hlow⟩, j, hj, hjgood, hhigh⟩ :=
    float32_medianOf_between (fun u : PendingUpdate => u.values.getD index 0)
      (order.arrange updates.values)
      (fun u => u.nodeID ∈ F) (countP_mem_le_card PendingUpdate.nodeID hnodup F) hfinite order
      (by omega)
  exact ⟨hfin, ⟨i, hmem.1 hi, higood, hlow⟩, j, hmem.1 hj, hjgood, hhigh⟩

/-- Vectors whose sums are finite are added. -/
theorem addVectors_succeeds {xs ys : List Float32} (hlength : ys.length = xs.length)
    (h : ∀ index < xs.length, (xs.getD index 0 + ys.getD index 0).isFinite = true) :
    ∃ zs, addVectors xs ys = some zs := by
  induction xs generalizing ys with
  | nil => exact ⟨[], rfl⟩
  | cons x xs ih =>
    rcases ys with _ | ⟨y, ys⟩
    · cases hlength
    obtain ⟨zs, hzs⟩ := ih (Nat.succ.inj hlength) fun index hindex =>
      h (index + 1) (Nat.succ_lt_succ hindex)
    have hsum : isNonFinite (x + y) = false := isNonFinite_of_isFinite (h 0 (Nat.succ_pos _))
    exact ⟨_, by simp only [addVectors, hsum, hzs]; rfl⟩

end ZeroTrustFL
