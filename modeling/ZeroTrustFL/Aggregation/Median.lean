import Mathlib
import ZeroTrustFL.Aggregation.Breakdown

/-!
# The three medians

The coordinate-wise medians of the coordinator, of the torch backend and of the native backend.  The
first two sort; the third partitions around the middle and takes the greatest element of the left
part.  On vectors with at least one element they are the same function, which does not depend on the
order of the updates.
-/

namespace ZeroTrustFL

/-- `_torch_aggregate` with the method `median`. -/
def torchMedian (updates : List (List ℚ)) : Except String (List ℚ) :=
  match updates with
  | [] => .error "cannot aggregate an empty update list"
  | reference :: _ =>
    if updates.any fun update => update.length ≠ reference.length then
      .error "all model updates must have the same shape"
    else .ok ((List.range reference.length).map fun d =>
      let sortedValues := sorted (coordinate updates d)
      let count := sortedValues.length
      let middle := count / 2
      if count % 2 ≠ 0 then sortedValues.getD middle 0
      else (sortedValues.getD (middle - 1) 0 + sortedValues.getD middle 0) * (1 / 2))

theorem torchMedian_eq {updates : List (List ℚ)} {dimension : ℕ} (hne : updates ≠ [])
    (hlength : ∀ u ∈ updates, u.length = dimension) :
    torchMedian updates =
      .ok ((List.range dimension).map fun d => exactMedianOf (sorted (coordinate updates d))) := by
  rcases updates with _ | ⟨front, rest⟩
  · exact absurd rfl hne
  have hfront := hlength front List.mem_cons_self
  rw [torchMedian, if_neg (any_length_ne_false hlength hfront), hfront]
  refine congrArg Except.ok (List.map_congr_left fun d _ => ?_)
  simp only [exactMedianOf, length_sorted]
  rcases Nat.mod_two_eq_zero_or_one (coordinate (front :: rest) d).length with heven | hodd
  · rw [heven, if_neg (not_not.2 rfl), if_neg zero_ne_one]
    ring
  · rw [hodd, if_pos one_ne_zero, if_pos rfl]

/-- The values of a coordinate have one sorted order. -/
theorem sorted_coordinate_congr {updates updates' : List (List ℚ)} (h : updates'.Perm updates)
    (d : ℕ) : sorted (coordinate updates' d) = sorted (coordinate updates d) :=
  sorted_congr (h.map _)

theorem coordinate_ne_nil {updates : List (List ℚ)} (hne : updates ≠ []) (d : ℕ) :
    coordinate updates d ≠ [] :=
  fun h => hne (List.map_eq_nil_iff.1 h)

/-- The median of the coordinator depends on the vectors of the map only. -/
theorem exactMedianUpdates_of_values (order : IterOrder) {updates : OrdMap String (List ℚ)}
    {vectors : List (List ℚ)} {dimension : ℕ} (hvalues : updates.values.Perm vectors)
    (hne : vectors ≠ []) (hlength : ∀ u ∈ vectors, u.length = dimension) (hdim : 0 < dimension) :
    exactMedianUpdates order updates dimension =
      .ok ((List.range dimension).map fun d => exactMedianOf (sorted (coordinate vectors d))) := by
  have hsize : 0 < updates.size := by
    rw [← OrdMap.length_values, hvalues.length_eq]
    exact List.length_pos_of_ne_nil hne
  rw [exactMedianUpdates_eq order (fun k u hk => ?_) hsize hdim]
  · refine congrArg Except.ok (List.map_congr_left fun d _ => congrArg exactMedianOf ?_)
    rw [← sorted_coordinate_congr hvalues, coordinate, OrdMap.values, List.map_map]
    rfl
  · exact hlength u (hvalues.mem_iff.1 (updates.mem_values_iff.2 ⟨k, hk⟩))

/-- On vectors with at least one element the three medians are the same function of the vectors, in
whatever order these come. -/
theorem medians_agree (vectors : List (List ℚ)) (dimension : ℕ) (hne : vectors ≠ [])
    (hlength : ∀ u ∈ vectors, u.length = dimension) (hdim : 0 < dimension) :
    ∃ result : List ℚ, result.length = dimension ∧
      (∀ (order : IterOrder) (updates : OrdMap String (List ℚ)), updates.values.Perm vectors →
        exactMedianUpdates order updates dimension = .ok result) ∧
      ∀ vectors' : List (List ℚ), vectors'.Perm vectors →
        torchMedian vectors' = .ok result ∧
          ∀ std : StdAlgorithms, medianAggregate std vectors' = .ok result := by
  refine ⟨(List.range dimension).map fun d =>
    exactMedianOf (sorted (coordinate vectors d)), by simp,
    fun order updates hvalues => exactMedianUpdates_of_values order hvalues hne hlength hdim,
    fun vectors' hperm => ?_⟩
  have hne' : vectors' ≠ [] := by
    rintro rfl
    exact hne hperm.nil_eq.symm
  have hlength' : ∀ u ∈ vectors', u.length = dimension := fun u hu => hlength u (hperm.mem_iff.1 hu)
  have hsorted (d : ℕ) := sorted_coordinate_congr hperm d
  refine ⟨?_, fun std => ?_⟩
  · rw [torchMedian_eq hne' hlength']
    simp only [hsorted]
  · rw [medianAggregate_eq std hne' hlength' hdim]
    simp only [medianOfValues_eq std (coordinate_ne_nil hne' _), hsorted]

/-- Four updates, two of which are the same. -/
def repeatedUpdates : OrdMap String (List ℚ) :=
  (((OrdMap.empty.insert "a" [3]).insert "b" [1]).insert "c" [1]).insert "d" [2]

theorem medians_agree_repeatedUpdates :
    exactMedianUpdates .reversed repeatedUpdates 1 = .ok [3 / 2] ∧
      torchMedian [[2], [1], [3], [1]] = .ok [3 / 2] ∧
      medianAggregate .reference [[1], [3], [1], [2]] = .ok [3 / 2] := by
  obtain ⟨result, -, hmap, hlist⟩ := medians_agree [[3], [1], [1], [2]] 1 (by decide) (by decide)
    (by decide)
  have htorch := hlist [[3], [1], [1], [2]] (.refl _)
  have hresult : torchMedian [[3], [1], [1], [2]] = .ok [3 / 2] := by decide +kernel
  rw [hresult] at htorch
  obtain rfl := Except.ok.inj htorch.1
  exact ⟨hmap .reversed repeatedUpdates (by decide), (hlist _ (by decide)).1,
    (hlist _ (by decide)).2 .reference⟩

/-- Vectors without elements have an empty median for torch; the coordinator and the native backend
refuse them. -/
theorem medians_differ_without_elements :
    torchMedian [[]] = .ok [] ∧
      medianAggregate .reference [[]] = .error "model updates must not be empty" ∧
      exactMedianUpdates .listed (OrdMap.empty.insert "a" []) 0 =
        .error "cannot aggregate an empty update set" := by
  decide +kernel

end ZeroTrustFL
