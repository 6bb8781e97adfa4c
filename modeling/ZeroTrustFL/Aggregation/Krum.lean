import Mathlib
import ZeroTrustFL.Aggregation.Breakdown

/-!
# Krum and Multi-Krum

A selected update has a score no greater than that of some honest update that was not selected, and
so one of its nearest neighbours is honest and close to it, whatever the Byzantine updates are.
-/

namespace ZeroTrustFL

/-! ## Distances -/

theorem squaredDistance_comm (x y : List ℚ) : squaredDistance x y = squaredDistance y x := by
  rw [squaredDistance, squaredDistance, List.zipWith_comm]
  congr 2
  funext a b
  ring

theorem squaredDistance_nonneg (x y : List ℚ) : 0 ≤ squaredDistance x y := by
  refine List.sum_nonneg fun z hz => ?_
  obtain ⟨i, hi, rfl⟩ := List.mem_iff_getElem.1 hz
  rw [List.getElem_zipWith]
  exact mul_self_nonneg _

theorem squaredDistance_self (x : List ℚ) : squaredDistance x x = 0 := by
  rw [squaredDistance, List.zipWith_self]
  simp

section

variable {updates : List (List ℚ)}

theorem distance_of_ne {i j : ℕ} (h : i ≠ j) :
    distance updates i j = squaredDistance (updates.getD i []) (updates.getD j []) := by
  unfold distance
  split_ifs with h₁ h₂
  · rfl
  · exact squaredDistance_comm _ _
  · omega

theorem distance_nonneg (i j : ℕ) : 0 ≤ distance updates i j := by
  unfold distance
  split_ifs
  · exact squaredDistance_nonneg _ _
  · exact squaredDistance_nonneg _ _
  · exact le_refl 0

/-! ## Scores -/

/-- The indices of the other updates. -/
def others (n i : ℕ) : List ℕ := (List.range n).filter fun j => i ≠ j

theorem mem_others {n i j : ℕ} : j ∈ others n i ↔ j < n ∧ i ≠ j := by simp [others]

theorem nodup_others (n i : ℕ) : (others n i).Nodup := List.nodup_range.filter _

theorem length_others {n i : ℕ} (hi : i < n) : (others n i).length = n - 1 := by
  have hset : (others n i).toFinset = (Finset.range n).erase i := by
    ext j
    simp only [List.mem_toFinset, mem_others, Finset.mem_erase, Finset.mem_range]
    constructor <;> rintro ⟨h₁, h₂⟩ <;> exact ⟨by omega, by omega⟩
  rw [← List.toFinset_card_of_nodup (nodup_others n i), hset,
    Finset.card_erase_of_mem (Finset.mem_range.2 hi), Finset.card_range]

/-- The distances from an update to the others. -/
def nearest (updates : List (List ℚ)) (i : ℕ) : List ℚ :=
  (others updates.length i).map (distance updates i)

/-- A score is the sum of the smallest distances. -/
theorem krumScore_eq (std : StdAlgorithms) {m i : ℕ} (hi : i < updates.length)
    (hm : m ≤ updates.length - 1) :
    krumScore std updates m i = ((sorted (nearest updates i)).take m).sum := by
  have hlength : m ≤ (nearest updates i).length := by
    rwa [nearest, List.length_map, length_others hi]
  exact (take_perm_of_split (std.nthElement_perm m _) hlength (std.nthElement_split m _)).sum_eq

/-- The score of an update is at most that of any choice of as many neighbours. -/
theorem krumScore_le (std : StdAlgorithms) {i : ℕ} (hi : i < updates.length) {neighbours : Finset ℕ}
    (hsub : ∀ j ∈ neighbours, j < updates.length ∧ i ≠ j) {D2 : ℚ}
    (hD2 : ∀ j ∈ neighbours, distance updates i j ≤ D2) :
    krumScore std updates neighbours.card i ≤ neighbours.card * D2 := by
  have hsubset : neighbours.toList.Subperm (others updates.length i) :=
    (Finset.nodup_toList neighbours).subperm fun j hj =>
      mem_others.2 (hsub j (Finset.mem_toList.1 hj))
  have hcard : neighbours.card ≤ updates.length - 1 := by
    rw [← length_others hi, ← Finset.length_toList]
    exact hsubset.length_le
  obtain ⟨js, hperm, hsublist⟩ := hsubset
  have hsubperm : (neighbours.toList.map (distance updates i)).Subperm (nearest updates i) :=
    ⟨js.map (distance updates i), hperm.map _, hsublist.map _⟩
  have hle := sum_take_sorted_le hsubperm
  have hsum := List.sum_le_card_nsmul (neighbours.toList.map (distance updates i)) D2 fun x hx => by
    obtain ⟨j, hj, rfl⟩ := List.mem_map.1 hx
    exact hD2 j (Finset.mem_toList.1 hj)
  rw [List.length_map, Finset.length_toList] at hle hsum
  rw [krumScore_eq std hi hcard, ← nsmul_eq_mul]
  exact hle.trans hsum

/-- When the score of an update is low and most others are in a set, one of the set is near. -/
theorem exists_near_of_krumScore (std : StdAlgorithms) {honest : Finset ℕ}
    (hhonest : ∀ j ∈ honest, j < updates.length) {m i : ℕ} (hi : i < updates.length)
    (hnot : i ∉ honest) (hpos : 0 < m) (hm : m ≤ updates.length - 1)
    (hmost : updates.length - honest.card ≤ m) {bound : ℚ}
    (hscore : krumScore std updates m i ≤ bound) :
    ∃ h ∈ honest, squaredDistance (updates.getD i []) (updates.getD h []) ≤ bound := by
  have hlength : (sorted (nearest updates i)).length = updates.length - 1 := by
    rw [length_sorted, nearest, List.length_map, length_others hi]
  have hlast : m - 1 < (sorted (nearest updates i)).length := by omega
  have hnonneg : ∀ x ∈ (sorted (nearest updates i)).take m, 0 ≤ x := by
    intro x hx
    obtain ⟨j, -, rfl⟩ := List.mem_map.1 ((sorted_perm _).mem_iff.1 (List.mem_of_mem_take hx))
    exact distance_nonneg i j
  have hle : (sorted (nearest updates i))[m - 1] ≤ bound := by
    refine le_trans (List.single_le_sum hnonneg _ ?_) (krumScore_eq std hi hm ▸ hscore)
    exact List.mem_take_iff_getElem.2 ⟨m - 1, by omega, rfl⟩
  by_contra hfar
  push Not at hfar
  -- all updates within the bound are Byzantine, and there are fewer of them than neighbours
  let byzantine := (Finset.range updates.length \ honest).erase i
  have hcount := lt_countP_of_pairwise (p := fun x => decide (x ≤ bound))
    (pairwise_sorted (nearest updates i)) hlast fun x hx => decide_eq_true (hx.trans hle)
  have hfew : (sorted (nearest updates i)).countP (fun x => decide (x ≤ bound)) ≤
      byzantine.card := by
    rw [(sorted_perm _).countP_eq, nearest, List.countP_map]
    refine le_trans (List.countP_mono_left fun j hj hp => ?_)
      (countP_mem_le_card id (by simpa using nodup_others updates.length i) byzantine)
    obtain ⟨hlt, hne⟩ := mem_others.1 hj
    have hnear : distance updates i j ≤ bound := of_decide_eq_true hp
    rw [distance_of_ne hne] at hnear
    refine decide_eq_true (Finset.mem_erase.2
      ⟨hne.symm, Finset.mem_sdiff.2 ⟨Finset.mem_range.2 hlt, fun hj => ?_⟩⟩)
    exact absurd hnear (not_le.2 (hfar j hj))
  have hcard : byzantine.card = updates.length - honest.card - 1 := by
    rw [Finset.card_erase_of_mem (Finset.mem_sdiff.2 ⟨Finset.mem_range.2 hi, hnot⟩),
      Finset.card_sdiff_of_subset fun j hj => Finset.mem_range.2 (hhonest j hj), Finset.card_range]
  omega

/-! ## Selection -/

theorem strictWeakOrder_scoreOrder (scores : List ℚ) : StrictWeakOrder (scoreOrder scores) := by
  refine ⟨fun a b hab => ?_, fun a b c hab hbc => ?_⟩
  · unfold scoreOrder at hab ⊢
    split_ifs at hab ⊢ with h₁ h₂ h₂
    · simp only [decide_eq_true_eq, decide_eq_false_iff_not] at hab ⊢
      omega
    · exact absurd h₁.symm h₂
    · exact absurd h₂.symm h₁
    · simp only [decide_eq_true_eq, decide_eq_false_iff_not] at hab ⊢
      exact not_lt.2 hab.le
  · have hle {x y : ℕ} : scoreOrder scores y x = false ↔
        scores.getD x 0 < scores.getD y 0 ∨ scores.getD x 0 = scores.getD y 0 ∧ x ≤ y := by
      unfold scoreOrder
      split_ifs with h
      · simp only [decide_eq_false_iff_not, not_lt, h, lt_irrefl, true_and, false_or]
      · simp only [decide_eq_false_iff_not, not_lt, Ne.symm h, false_and, or_false]
        exact ⟨fun hxy => lt_of_le_of_ne hxy (Ne.symm h), le_of_lt⟩
    rw [hle] at hab hbc ⊢
    rcases hab with hab | ⟨hab, hab'⟩ <;> rcases hbc with hbc | ⟨hbc, hbc'⟩
    · exact .inl (hab.trans hbc)
    · exact .inl (hbc ▸ hab)
    · exact .inl (hab ▸ hbc)
    · exact .inr ⟨hab.trans hbc, hab'.trans hbc'⟩

variable {std : StdAlgorithms} {f k : ℕ}

theorem nodup_krumSelected : (krumSelected std updates f k).Nodup :=
  ((std.partialSort_perm _ _ _).nodup_iff.2 List.nodup_range).sublist (List.take_sublist _ _)

theorem length_krumSelected (hk : k ≤ updates.length) :
    (krumSelected std updates f k).length = k := by
  rw [krumSelected, List.length_take, (std.partialSort_perm _ _ _).length_eq, List.length_range,
    min_eq_left hk]

theorem lt_of_mem_krumSelected {i : ℕ} (h : i ∈ krumSelected std updates f k) :
    i < updates.length :=
  List.mem_range.1 ((std.partialSort_perm _ _ _).mem_iff.1 (List.mem_of_mem_take h))

/-- No update has a lower score than a selected one without being selected. -/
theorem krumScore_le_of_selected {i j : ℕ} (hi : i ∈ krumSelected std updates f k)
    (hj : j < updates.length) (hnot : j ∉ krumSelected std updates f k) :
    krumScore std updates (updates.length - f - 2) i ≤ krumScore std updates
      (updates.length - f - 2) j := by
  have hilt := lt_of_mem_krumSelected hi
  set scores := (List.range updates.length).map
    (krumScore std updates (updates.length - f - 2)) with hscores
  have hget {x : ℕ} (hx : x < updates.length) :
      scores.getD x 0 = krumScore std updates (updates.length - f - 2) x := getD_map_range hx
  have hdrop : j ∈ (std.partialSort (scoreOrder scores) k (List.range updates.length)).drop k := by
    have hmem : j ∈ std.partialSort (scoreOrder scores) k (List.range updates.length) :=
      (std.partialSort_perm _ _ _).mem_iff.2 (List.mem_range.2 hj)
    rw [← List.take_append_drop k (std.partialSort _ _ _), List.mem_append] at hmem
    exact hmem.resolve_left hnot
  have hless := std.partialSort_split (scoreOrder scores) k _ (strictWeakOrder_scoreOrder scores) i
    hi j hdrop
  unfold scoreOrder at hless
  rw [hget hilt, hget hj] at hless
  split_ifs at hless with heq
  · exact heq.ge
  · exact not_lt.1 (of_decide_eq_false hless)

end

/-- Every update that Krum or Multi-Krum selects is near an honest update; Krum returns the selected
update and Multi-Krum the mean of the selected ones. -/
theorem krum_resilience (std : StdAlgorithms) (updates : List (List ℚ)) (dimension f k : ℕ)
    (hlength : ∀ u ∈ updates, u.length = dimension) (hn : 2 * f + 3 ≤ updates.length) (hk : 1 ≤ k)
    (hk' : k ≤ updates.length - f - 2) (honest : Finset ℕ)
    (hhonest : ∀ j ∈ honest, j < updates.length) (hcard : updates.length - f ≤ honest.card) (D2 : ℚ)
    (hD2 : ∀ i ∈ honest, ∀ j ∈ honest, squaredDistance (updates.getD i [])
      (updates.getD j []) ≤ D2) :
    (krumSelected std updates f k).length = k ∧ (krumSelected std updates f k).Nodup ∧
      (∀ i ∈ krumSelected std updates f k, i < updates.length ∧ ∃ h ∈ honest,
        squaredDistance (updates.getD i []) (updates.getD h []) ≤
        (updates.length - f - 2 : ℕ) * D2) ∧
      (0 < dimension →
        (k = 1 → ∃ i, krumSelected std updates f k = [i] ∧
          krumAggregate std updates f k = .ok (updates.getD i [])) ∧
        (1 < k → krumAggregate std updates f k =
          .ok (meanOf dimension ((krumSelected std updates f k).map fun i =>
            updates.getD i [])))) := by
  have hsize : (krumSelected std updates f k).length = k := length_krumSelected (by omega)
  refine ⟨hsize, nodup_krumSelected, fun i hi => ⟨lt_of_mem_krumSelected hi, ?_⟩, fun hdim => ?_⟩
  · -- some honest update is not selected, and the selected one has no higher score
    obtain ⟨j, hj, hnot⟩ : ∃ j ∈ honest, j ∉ (krumSelected std updates f k).toFinset := by
      refine Finset.exists_mem_notMem_of_card_lt_card ?_
      rw [List.toFinset_card_of_nodup nodup_krumSelected, hsize]
      omega
    obtain ⟨neighbours, hsub, hneighbours⟩ := Finset.exists_subset_card_eq
      (show updates.length - f - 2 ≤
        (honest.erase j).card by rw [Finset.card_erase_of_mem hj]; omega)
    have hscore : krumScore std updates (updates.length - f - 2) j ≤
        (updates.length - f - 2 : ℕ) * D2 := by
      rw [← hneighbours]
      refine krumScore_le std (hhonest j hj) (fun l hl => ?_) fun l hl => ?_
      · obtain ⟨hne, hl⟩ := Finset.mem_erase.1 (hsub hl)
        exact ⟨hhonest l hl, hne.symm⟩
      · obtain ⟨hne, hl⟩ := Finset.mem_erase.1 (hsub hl)
        rw [distance_of_ne hne.symm]
        exact hD2 j hj l hl
    have hselected := (krumScore_le_of_selected hi (hhonest j hj) fun h =>
      hnot (List.mem_toFinset.2 h)).trans hscore
    by_cases hhon : i ∈ honest
    · refine ⟨i, hhon, ?_⟩
      have hnonneg : 0 ≤ D2 := squaredDistance_self (updates.getD i []) ▸ hD2 i hhon i hhon
      rw [squaredDistance_self]
      positivity
    · exact exists_near_of_krumScore std hhonest (lt_of_mem_krumSelected hi) hhon (by omega)
        (by omega) (by omega) hselected
  · have hvalid := validateUpdates_eq (List.ne_nil_of_length_pos (show 0 < updates.length by omega))
      hlength hdim
    have haggregate : krumAggregate std updates f k =
        if k = 1 then .ok (((krumSelected std updates f k).map fun i => updates.getD i []).headD [])
        else .ok (meanOf dimension ((krumSelected std updates f k).map fun i =>
            updates.getD i [])) := by
      simp only [krumAggregate, hvalid, if_neg (not_lt.2 hn),
        if_neg (show ¬ (k = 0 ∨ k > updates.length - f - 2) by omega)]
    refine ⟨fun hone => ?_, fun hmany => ?_⟩
    · obtain ⟨i, hi⟩ := List.length_eq_one_iff.1 (hsize.trans hone)
      refine ⟨i, hi, ?_⟩
      rw [haggregate, if_pos hone, hi]
      rfl
    · rw [haggregate, if_neg (by omega)]

theorem krum_resilience_outlier :
    (krumSelected .reference [[0], [1], [2], [1000], [3]] 1 2).length = 2 ∧
    ∀ i ∈ krumSelected .reference [[0], [1], [2], [1000], [3]] 1 2, i < 5 ∧
      ∃ h ∈ ({0, 1, 2, 4} : Finset ℕ),
      squaredDistance ([[0], [1], [2], [1000], [3]].getD i [])
        ([[0], [1], [2], [1000], [3]].getD h []) ≤ (2 : ℕ) * 9 :=
  have h := krum_resilience .reference [[0], [1], [2], [1000], [3]] 1 1 2 (by decide) (by decide)
    (by decide) (by decide) {0, 1, 2, 4} (by decide) (by decide) 9 (by decide +kernel)
  ⟨h.1, h.2.2.1⟩

end ZeroTrustFL
