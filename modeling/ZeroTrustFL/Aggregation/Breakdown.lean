import Mathlib
import ZeroTrustFL.Lib.OrdMap
import ZeroTrustFL.Aggregation.Native

/-!
# Breakdown points

The coordinate-wise medians of the coordinator and of the native backend, and the native trimmed
mean, stay between the values of honest updates as long as few enough updates are Byzantine.
Arithmetic is exact.
-/

namespace ZeroTrustFL

/-! ## The median of the coordinator -/

/-- The median of a sorted column. -/
def exactMedianOf (values : List ℚ) : ℚ :=
  let middle := values.length / 2
  if values.length % 2 = 1 then values.getD middle 0
  else (values.getD (middle - 1) 0 + values.getD middle 0) / 2

/-- `aggregateMedianUpdates` of the coordinator, without rounding. -/
def exactMedianUpdates (order : IterOrder) (updates : OrdMap String (List ℚ)) (vectorLength : ℕ) :
    Except String (List ℚ) :=
  if updates.size = 0 ∨ vectorLength = 0 then .error "cannot aggregate an empty update set"
  else
    let listed := order.arrange updates.values
    if listed.any fun values => values.length ≠ vectorLength then
      .error "pending update vector lengths do not match"
    else .ok ((List.range vectorLength).map fun d => exactMedianOf (sorted (coordinate listed d)))

/-! ## Medians of sorted values -/

theorem foldl_max_spec (xs : List ℚ) (x : ℚ) :
    xs.foldl max x ∈ x :: xs ∧ ∀ y ∈ x :: xs, y ≤ xs.foldl max x := by
  induction xs generalizing x with
  | nil => simp
  | cons z xs ih =>
    obtain ⟨hmem, hle⟩ := ih (max x z)
    rw [List.foldl_cons]
    refine ⟨?_, fun y hy => ?_⟩
    · rcases List.mem_cons.1 hmem with h | h
      · rw [h]
        rcases max_choice x z with hmax | hmax <;> simp [hmax]
      · simp [h]
    · have hbound := hle (max x z) List.mem_cons_self
      rcases List.mem_cons.1 hy with rfl | hy
      · exact le_trans (le_max_left _ _) hbound
      rcases List.mem_cons.1 hy with rfl | hy
      · exact le_trans (le_max_right _ _) hbound
      · exact hle y (List.mem_cons_of_mem _ hy)

/-- The greatest of the smallest values is the last of them. -/
theorem maxElement_eq {xs ys : List ℚ} {k : ℕ} (hk : k < xs.length)
    (hperm : ys.Perm ((sorted xs).take (k + 1))) : maxElement ys = (sorted xs).getD k 0 := by
  have hlt : k < (sorted xs).length := by rwa [length_sorted]
  have hlast : (sorted xs)[k] ∈ ys := by
    rw [hperm.mem_iff]
    exact List.mem_take_iff_getElem.2 ⟨k, by omega, rfl⟩
  have hle : ∀ y ∈ ys, y ≤ (sorted xs)[k] := by
    intro y hy
    obtain ⟨i, hi, rfl⟩ := List.mem_take_iff_getElem.1 (hperm.mem_iff.1 hy)
    exact getElem_le_of_pairwise (pairwise_sorted xs) (by omega) hlt
  rw [List.getD_eq_getElem _ _ hlt]
  rcases ys with _ | ⟨y, ys⟩
  · cases hlast
  · obtain ⟨hmem, hmax⟩ := foldl_max_spec ys y
    exact le_antisymm (hle _ hmem) (hmax _ hlast)

/-- With `nth_element` the native backend finds the median of the sorted values. -/
theorem medianOfValues_eq (std : StdAlgorithms) {values : List ℚ} (hne : values ≠ []) :
    medianOfValues std values = exactMedianOf (sorted values) := by
  have hpos : 0 < values.length := List.length_pos_of_ne_nil hne
  have hupper : (std.nthElement (values.length / 2) values).getD (values.length / 2) 0 =
      (sorted values).getD (values.length / 2) 0 := by
    rw [List.getD_eq_getElem?_getD, List.getD_eq_getElem?_getD, std.nthElement_nth]
  simp only [medianOfValues, exactMedianOf, length_sorted, hupper]
  rcases Nat.mod_two_eq_zero_or_one values.length with heven | hodd
  · obtain ⟨k, hk⟩ : ∃ k, values.length / 2 = k + 1 := ⟨values.length / 2 - 1, by omega⟩
    have hfront := take_perm_of_split (std.nthElement_perm (k + 1) values) (by omega)
      (std.nthElement_split (k + 1) values)
    rw [heven, hk, maxElement_eq (by omega) hfront, Nat.add_sub_cancel]
    simp only [ne_eq, not_true_eq_false, if_false, zero_ne_one]
    ring
  · rw [hodd]
    simp

/-! ## Values between honest ones -/

section

variable {ι : Type*} (v : ι → ℚ) (is : List ι) (bad : ι → Prop) [DecidablePred bad] {b : ℕ}
  (hb : is.countP (fun i => decide (bad i)) ≤ b) {lo hi : ℚ} (h : ∀ i ∈ is, ¬ bad i →
    lo ≤ v i ∧ v i ≤ hi)

include hb h

theorem getD_sorted_between {k : ℕ} (hlow : b ≤ k) (hhigh : k + b < is.length) :
    lo ≤ (sorted (is.map v)).getD k 0 ∧ (sorted (is.map v)).getD k 0 ≤ hi := by
  have hk : k < (sorted (is.map v)).length := by
    rw [length_sorted, List.length_map]
    omega
  rw [List.getD_eq_getElem _ _ hk]
  exact sorted_between v is bad hb hlow hhigh h hk

theorem exactMedianOf_between (hfew : 2 * b < is.length) :
    lo ≤ exactMedianOf (sorted (is.map v)) ∧ exactMedianOf (sorted (is.map v)) ≤ hi := by
  have hmiddle := getD_sorted_between v is bad hb h (k := is.length / 2) (by omega) (by omega)
  simp only [exactMedianOf, length_sorted, List.length_map]
  split_ifs with hodd
  · exact hmiddle
  · have hbelow := getD_sorted_between v is bad hb h (k := is.length / 2 - 1) (by omega) (by omega)
    constructor <;> linarith [hmiddle.1, hmiddle.2, hbelow.1, hbelow.2]

theorem trimmedMeanOf_between (std : StdAlgorithms) {trim : ℕ} (htrim : b ≤ trim)
    (hleft : 2 * trim < is.length) :
    lo ≤ trimmedMeanOf std trim (is.map v) ∧ trimmedMeanOf std trim (is.map v) ≤ hi := by
  have hlength : (((sorted (is.map v)).take (is.length - trim)).drop trim).length =
      is.length - 2 * trim := by
    rw [List.length_drop, List.length_take, length_sorted, List.length_map]
    omega
  have hkept : ∀ x ∈ ((sorted (is.map v)).take (is.length - trim)).drop trim, lo ≤ x ∧ x ≤ hi := by
    intro x hx
    obtain ⟨i, hi, rfl⟩ := List.mem_iff_getElem.1 hx
    have hk : trim + i < (sorted (is.map v)).length := by
      rw [length_sorted, List.length_map]
      omega
    rw [List.getElem_drop, List.getElem_take]
    exact sorted_between v is bad hb (by omega) (by omega) h hk
  simp only [trimmedMeanOf, std.sort_eq, List.length_map]
  generalize ((sorted (is.map v)).take (is.length - trim)).drop trim = kept at hlength hkept
  have hpos : (0 : ℚ) < (is.length - 2 * trim : ℕ) := by
    exact_mod_cast (by omega : 0 < is.length - 2 * trim)
  rw [le_div_iff₀ hpos, div_le_iff₀ hpos, ← hlength]
  have hsum_low := List.card_nsmul_le_sum kept lo fun x hx => (hkept x hx).1
  have hsum_high := List.sum_le_card_nsmul kept hi fun x hx => (hkept x hx).2
  rw [nsmul_eq_mul] at hsum_low hsum_high
  exact ⟨by linarith, by linarith⟩

end

/-- What lies between every pair of bounds of the honest values lies between two honest values. -/
theorem exists_honest_bounds {ι : Type*} [DecidableEq ι] (v : ι → ℚ) (is : List ι) (bad : ι → Prop)
    [DecidablePred bad] {b : ℕ} (hb : is.countP (fun i => decide (bad i)) ≤ b) (hlt : b < is.length)
    {r : ℚ} (h : ∀ lo hi, (∀ i ∈ is, ¬ bad i → lo ≤ v i ∧ v i ≤ hi) → lo ≤ r ∧ r ≤ hi) :
    (∃ i ∈ is, ¬ bad i ∧ v i ≤ r) ∧ ∃ j ∈ is, ¬ bad j ∧ r ≤ v j := by
  have hnonempty : (is.filter fun i => ¬ bad i).toFinset.Nonempty := by
    rw [List.toFinset_nonempty_iff]
    intro hnil
    have hall : ∀ i ∈ is, bad i := by
      intro i hi
      by_contra hgood
      exact List.not_mem_nil (hnil ▸ List.mem_filter.2 ⟨hi, decide_eq_true hgood⟩)
    rw [List.countP_eq_length.2 fun i hi => decide_eq_true (hall i hi)] at hb
    omega
  obtain ⟨i, hi, hmin⟩ := Finset.exists_min_image _ v hnonempty
  obtain ⟨j, hj, hmax⟩ := Finset.exists_max_image _ v hnonempty
  simp only [List.mem_toFinset, List.mem_filter, decide_eq_true_eq] at hi hj hmin hmax
  obtain ⟨hlow, hhigh⟩ := h (v i) (v j) fun k hk hgood => ⟨hmin k ⟨hk, hgood⟩, hmax k ⟨hk, hgood⟩⟩
  exact ⟨⟨i, hi.1, hi.2, hlow⟩, ⟨j, hj.1, hj.2, hhigh⟩⟩

/-- Of elements with distinct keys, no more have their key in a set than the set has elements. -/
theorem countP_mem_le_card {ι κ : Type*} [DecidableEq κ] (key : ι → κ) {is : List ι}
    (hkeys : (is.map key).Nodup) (s : Finset κ) :
    is.countP (fun i => decide (key i ∈ s)) ≤ s.card := by
  have hnodup : ((is.filter fun i => decide (key i ∈ s)).map key).Nodup :=
    hkeys.sublist (List.filter_sublist.map key)
  rw [List.countP_eq_length_filter, ← List.length_map key, ← List.toFinset_card_of_nodup hnodup]
  refine Finset.card_le_card fun k hk => ?_
  obtain ⟨i, hi, rfl⟩ := List.mem_map.1 (List.mem_toFinset.1 hk)
  exact of_decide_eq_true (List.mem_filter.1 hi).2

theorem countP_range_le_card (n : ℕ) (s : Finset ℕ) :
    (List.range n).countP (fun i => decide (i ∈ s)) ≤ s.card :=
  countP_mem_le_card id (by simpa using List.nodup_range) s

/-! ## The aggregators -/

theorem coordinate_eq_map_range (updates : List (List ℚ)) (d : ℕ) :
    coordinate updates d = (List.range updates.length).map fun i =>
      (updates.getD i []).getD d 0 := by
  refine List.ext_getElem (by simp [coordinate]) fun i h₁ h₂ => ?_
  have hi : i < updates.length := by simpa [coordinate] using h₁
  simp [coordinate, List.getElem?_eq_getElem hi]

variable {updates : List (List ℚ)} {dimension : ℕ}

/-- Updates of one length pass the comparison with the first one. -/
theorem any_length_ne_false (hlength : ∀ u ∈ updates, u.length = dimension) {front : List ℚ}
    (hfront : front.length = dimension) :
    ¬ (updates.any fun update => update.length ≠ front.length) = true := by
  simp only [List.any_eq_true, decide_eq_true_eq, not_exists, not_and, not_not]
  exact fun u hu => (hlength u hu).trans hfront.symm

theorem validateUpdates_eq (hne : updates ≠ []) (hlength : ∀ u ∈ updates, u.length = dimension)
    (hdim : 0 < dimension) : validateUpdates updates = .ok dimension := by
  rcases updates with _ | ⟨front, rest⟩
  · exact absurd rfl hne
  have hfront := hlength front List.mem_cons_self
  rw [validateUpdates, if_neg (by omega), if_neg (any_length_ne_false hlength hfront), hfront]

theorem medianAggregate_eq (std : StdAlgorithms) (hne : updates ≠ [])
    (hlength : ∀ u ∈ updates, u.length = dimension) (hdim : 0 < dimension) :
    medianAggregate std updates =
      .ok ((List.range dimension).map fun d => medianOfValues std (coordinate updates d)) := by
  rw [medianAggregate, validateUpdates_eq hne hlength hdim]

theorem trimmedMeanAggregate_eq (std : StdAlgorithms) (hne : updates ≠ [])
    (hlength : ∀ u ∈ updates, u.length = dimension) (hdim : 0 < dimension) {beta : Float32}
    (hfinite : beta.isFinite = true) (hnonneg : 0 ≤ value32 beta) (hhalf : value32 beta < 1 / 2)
    (hleft : 2 * trimCount (value32 beta) updates.length < updates.length) :
    trimmedMeanAggregate std updates beta = .ok ((List.range dimension).map fun d =>
      trimmedMeanOf std (trimCount (value32 beta) updates.length) (coordinate updates d)) := by
  have hbeta : ¬ (beta.isFinite = false ∨ value32 beta < 0 ∨ 1 / 2 ≤ value32 beta) := by
    rintro (h | h | h)
    · rw [hfinite] at h
      cases h
    · exact absurd h (not_lt.2 hnonneg)
    · exact absurd h (not_le.2 hhalf)
  simp only [trimmedMeanAggregate, validateUpdates_eq hne hlength hdim, if_neg hbeta,
    if_neg (not_le.2 hleft)]

theorem getD_map_range {f : ℕ → ℚ} {n d : ℕ} (h : d < n) :
    ((List.range n).map f).getD d 0 = f d := by
  rw [List.getD_eq_getElem _ _ (by simpa using h)]
  simp

section Native

variable {updates : List (List ℚ)} {byzantine : Finset ℕ} {d : ℕ} {r : ℚ}

/-- The value lies between values of updates outside the set. -/
def BetweenHonest (updates : List (List ℚ)) (byzantine : Finset ℕ) (d : ℕ) (r : ℚ) : Prop :=
  (∃ i < updates.length, i ∉ byzantine ∧ (updates.getD i []).getD d 0 ≤ r) ∧
    ∃ j < updates.length, j ∉ byzantine ∧ r ≤ (updates.getD j []).getD d 0

theorem betweenHonest_of_bounds (hlt : byzantine.card < updates.length)
    (h : ∀ lo hi, (∀ i ∈ List.range updates.length, ¬ i ∈ byzantine →
        lo ≤ (updates.getD i []).getD d 0 ∧ (updates.getD i []).getD d 0 ≤ hi) → lo ≤ r ∧ r ≤ hi) :
    BetweenHonest updates byzantine d r := by
  have hcount := countP_range_le_card updates.length byzantine
  have hbounds := exists_honest_bounds (fun i => (updates.getD i []).getD d 0)
    (List.range updates.length) (· ∈ byzantine) hcount (by simpa using hlt) h
  simp only [List.mem_range] at hbounds
  exact hbounds

theorem betweenHonest_median (std : StdAlgorithms) (hfew : 2 * byzantine.card < updates.length) :
    BetweenHonest updates byzantine d (medianOfValues std (coordinate updates d)) := by
  have hcount := countP_range_le_card updates.length byzantine
  have hne : coordinate updates d ≠ [] := by
    rw [← List.length_pos_iff, coordinate, List.length_map]
    omega
  refine betweenHonest_of_bounds (by omega) fun lo hi h => ?_
  rw [medianOfValues_eq std hne, coordinate_eq_map_range]
  exact exactMedianOf_between _ _ (· ∈ byzantine) hcount h (by simpa using hfew)

theorem betweenHonest_trimmedMean (std : StdAlgorithms) {trim : ℕ} (htrim : byzantine.card ≤ trim)
    (hleft : 2 * trim < updates.length) :
    BetweenHonest updates byzantine d (trimmedMeanOf std trim (coordinate updates d)) := by
  have hcount := countP_range_le_card updates.length byzantine
  refine betweenHonest_of_bounds (by omega) fun lo hi h => ?_
  rw [coordinate_eq_map_range]
  exact trimmedMeanOf_between _ _ (· ∈ byzantine) hcount h std htrim (by simpa using hleft)

end Native

/-- The values of a coordinate, in the order of the nodes, have the median of the listed ones. -/
theorem sorted_coordinate_arrange (order : IterOrder) (updates : OrdMap String (List ℚ)) (d : ℕ) :
    sorted (coordinate (order.arrange updates.values) d) =
      sorted (updates.entries.map fun e => e.2.getD d 0) := by
  refine sorted_congr (((order.perm updates.values).map _).trans ?_)
  rw [OrdMap.values, List.map_map]
  exact List.Perm.refl _

theorem exactMedianUpdates_eq (order : IterOrder) {updates : OrdMap String (List ℚ)} {dimension : ℕ}
    (hlength : ∀ k u, updates.get? k = some u → u.length = dimension) (hsize : 0 < updates.size)
    (hdim : 0 < dimension) :
    exactMedianUpdates order updates dimension = .ok ((List.range dimension).map fun d =>
      exactMedianOf (sorted (updates.entries.map fun e => e.2.getD d 0))) := by
  have hlisted : ((order.arrange updates.values).any fun u => decide (u.length ≠ dimension)) =
      false := by
    rw [List.any_eq_false]
    intro u hu
    obtain ⟨k, hk⟩ := updates.mem_values_iff.1 ((order.mem_arrange).1 hu)
    simp [hlength k u hk]
  simp only [exactMedianUpdates, if_neg (show ¬ (updates.size = 0 ∨ dimension = 0) by omega),
    hlisted, Bool.false_eq_true, if_false, sorted_coordinate_arrange]

/-- The medians lie between honest values when fewer than half of the updates are Byzantine, and the
trimmed mean does when at most as many are Byzantine as it trims at each end. -/
theorem breakdown_point (std : StdAlgorithms) (order : IterOrder) (dimension : ℕ)
    (hdim : 0 < dimension) :
    (∀ (updates : OrdMap String (List ℚ)) (byzantine : Finset String),
      (∀ k u, updates.get? k = some u → u.length = dimension) → 2 * byzantine.card < updates.size →
      ∃ result, exactMedianUpdates order updates dimension = .ok result ∧
        result.length = dimension ∧
        ∀ d < dimension,
          (∃ k u, updates.get? k = some u ∧ k ∉ byzantine ∧ u.getD d 0 ≤ result.getD d 0) ∧
            ∃ k u, updates.get? k = some u ∧ k ∉ byzantine ∧ result.getD d 0 ≤ u.getD d 0) ∧
    ∀ (updates : List (List ℚ)) (byzantine : Finset ℕ), updates ≠ [] →
      (∀ u ∈ updates, u.length = dimension) →
      (2 * byzantine.card < updates.length →
        ∃ result, medianAggregate std updates = .ok result ∧ result.length = dimension ∧
          ∀ d < dimension, BetweenHonest updates byzantine d (result.getD d 0)) ∧
      ∀ beta : Float32, beta.isFinite = true → 0 ≤ value32 beta → value32 beta < 1 / 2 →
        byzantine.card ≤ trimCount (value32 beta) updates.length →
        2 * trimCount (value32 beta) updates.length < updates.length →
        ∃ result, trimmedMeanAggregate std updates beta = .ok result ∧ result.length = dimension ∧
          ∀ d < dimension, BetweenHonest updates byzantine d (result.getD d 0) := by
  refine ⟨fun updates byzantine hlength hfew => ?_, fun updates byzantine hne hlength =>
    ⟨fun hfew => ?_, ?_⟩⟩
  · refine ⟨_, exactMedianUpdates_eq order hlength (by omega) hdim, by simp, fun d hd => ?_⟩
    have hcount := countP_mem_le_card Prod.fst updates.nodup_keys byzantine
    obtain ⟨⟨i, hi, hgood, hle⟩, j, hj, hgood', hle'⟩ := exists_honest_bounds
      (fun e : String × List ℚ => e.2.getD d 0) updates.entries (fun e => e.1 ∈ byzantine) hcount
      (show _ < updates.size by omega)
      (fun lo hi h => exactMedianOf_between _ _ _ hcount h (show _ < updates.size from hfew))
    rw [getD_map_range hd]
    exact ⟨⟨i.1, i.2, updates.get?_eq_some_iff.2 hi, hgood, hle⟩,
      ⟨j.1, j.2, updates.get?_eq_some_iff.2 hj, hgood', hle'⟩⟩
  · refine ⟨_, medianAggregate_eq std hne hlength hdim, by simp, fun d hd => ?_⟩
    rw [getD_map_range hd]
    exact betweenHonest_median std hfew
  · intro beta hfinite hnonneg hhalf htrim hleft
    refine ⟨_, trimmedMeanAggregate_eq std hne hlength hdim hfinite hnonneg hhalf hleft, by simp,
      fun d hd => ?_⟩
    rw [getD_map_range hd]
    exact betweenHonest_trimmedMean std htrim hleft

/-- One of three updates is far off. -/
theorem breakdown_point_outlier :
    ∃ result, medianAggregate .reference [[1], [1000], [2]] = .ok result ∧ result.length = 1 ∧
      ∀ d < 1, BetweenHonest [[1], [1000], [2]] {1} d (result.getD d 0) :=
  ((breakdown_point .reference .listed 1 (by decide)).2 [[1], [1000], [2]] {1} (by decide)
    (by decide)).1 (by decide)

end ZeroTrustFL
