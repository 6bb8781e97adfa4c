import Mathlib
import ZeroTrustFL.Lib.FloatExact
import ZeroTrustFL.Coordinator.Service

/-!
# The weighted mean and the order of the updates

`aggregateWeightedUpdates` adds up products in the order in which a map is iterated, and every step
rounds.  When no sum of products of some of the updates needs rounding, the order does not matter,
and a round that is closed again from the same updates gives the same model.
-/

namespace ZeroTrustFL

/-- The product that an update adds to a running sum. -/
def PendingUpdate.product (u : PendingUpdate) (index : ℕ) : ℚ :=
  value32 (u.values.getD index 0) * u.sampleCount.toNat

def sumOf (updates : List PendingUpdate) (index : ℕ) : ℚ :=
  (updates.map fun u => u.product index).sum

def totalCount (updates : List PendingUpdate) : ℕ := (updates.map fun u => u.sampleCount.toNat).sum

/-- An update with integer-valued entries and a sample count that is accepted. -/
structure IntegerUpdate (u : PendingUpdate) : Prop where
  finite : ∀ v ∈ u.values, v.isFinite = true
  integer : ∀ v ∈ u.values, ∃ z : ℤ, value32 v = z
  pos : 1 ≤ u.sampleCount.toNat
  le : u.sampleCount ≤ maxReportedSampleCount

/-- The samples, and in each coordinate the products of any of the updates, add up without
rounding. -/
structure ExactSums (updates : List PendingUpdate) (vectorLength : ℕ) : Prop where
  total : totalCount updates ≤ 2 ^ 53
  sums : ∀ index < vectorLength, ∀ part, part.Subperm updates →
    SignificantBits 53 (sumOf part index)

/-! ## Bounds -/

theorem sumOf_append (l l' : List PendingUpdate) (index : ℕ) :
    sumOf (l ++ l') index = sumOf l index + sumOf l' index := by
  rw [sumOf, List.map_append, List.sum_append]
  rfl

theorem totalCount_append (l l' : List PendingUpdate) :
    totalCount (l ++ l') = totalCount l + totalCount l' := by
  rw [totalCount, List.map_append, List.sum_append]
  rfl

theorem totalCount_le_of_subperm {l l' : List PendingUpdate} (h : l.Subperm l') :
    totalCount l ≤ totalCount l' := by
  obtain ⟨part, hperm, hsub⟩ := h
  have hsum := (hperm.map fun u : PendingUpdate => u.sampleCount.toNat).sum_eq
  rw [totalCount, ← hsum]
  exact (hsub.map _).sum_le_sum fun _ _ => Nat.zero_le _

namespace IntegerUpdate

variable {u : PendingUpdate} (h : IntegerUpdate u)
include h

theorem count_le : u.sampleCount.toNat ≤ 2 ^ 24 :=
  (UInt64.le_iff_toNat_le.1 h.le).trans (by decide)

theorem isFinite_getD (index : ℕ) : (u.values.getD index 0).isFinite = true := by
  rcases lt_or_ge index u.values.length with hlt | hge
  · rw [List.getD_eq_getElem _ _ hlt]
    exact h.finite _ (List.getElem_mem hlt)
  · rw [List.getD_eq_default _ _ hge]
    rfl

theorem abs_product_le (index : ℕ) : |u.product index| ≤ 2 ^ 128 * u.sampleCount.toNat := by
  rw [PendingUpdate.product, abs_mul, Nat.abs_cast]
  exact mul_le_mul_of_nonneg_right (representable32 (h.isFinite_getD index)).2.le
    (Nat.cast_nonneg _)

/-- The product is computed without rounding. -/
theorem product_exact (index : ℕ) :
    (float64 (u.values.getD index 0) * u.sampleCount.toFloat).isFinite = true ∧
      value64 (float64 (u.values.getD index 0) * u.sampleCount.toFloat) = u.product index := by
  obtain ⟨hfinite, hvalue⟩ := float64_finite (h.isFinite_getD index)
  have hcount := hasValue_toFloat (h.count_le.trans (by norm_num))
  have hrep := (representable32 (h.isFinite_getD index)).mul_natCast h.count_le
  rw [← hvalue, ← hcount.value] at hrep
  obtain ⟨hmul, hproduct⟩ := mul_exact hfinite hcount.finite hrep
  refine ⟨hmul, hproduct.trans ?_⟩
  rw [hvalue, hcount.value]
  rfl

theorem not_toFloat_le_zero : ¬ u.sampleCount.toFloat ≤ 0 := by
  have hcount := hasValue_toFloat (h.count_le.trans (by norm_num))
  have hpos : (1 : ℚ) ≤ u.sampleCount.toNat := by exact_mod_cast h.pos
  rw [le_iff_value64 hcount.finite HasValue.zero.finite, hcount.value, HasValue.zero.value]
  linarith

end IntegerUpdate

variable {n index : ℕ} {l updates : List PendingUpdate}

theorem abs_sumOf_le (h : ∀ u ∈ l, IntegerUpdate u) (index : ℕ) :
    |sumOf l index| ≤ 2 ^ 128 * totalCount l := by
  induction l with
  | nil => simp [sumOf, totalCount]
  | cons u l ih =>
    have hu := (h u List.mem_cons_self).abs_product_le index
    have hl := ih fun v hv => h v (List.mem_cons_of_mem u hv)
    have hsum : sumOf (u :: l) index = u.product index + sumOf l index := rfl
    have hcount : (totalCount (u :: l) : ℚ) = u.sampleCount.toNat + totalCount l := by
      rw [← Nat.cast_add]
      rfl
    rw [hsum, hcount, mul_add]
    exact (abs_add_le _ _).trans (add_le_add hu hl)

theorem ExactSums.representable {part : List PendingUpdate} (h : ExactSums updates n)
    (hupdates : ∀ u ∈ updates, IntegerUpdate u) (hpart : part.Subperm updates)
    (hindex : index < n) : Representable .binary64 (sumOf part index) := by
  refine (h.sums index hindex part hpart).representable ?_
  have hcount : (totalCount part : ℚ) ≤ 2 ^ 53 := by
    exact_mod_cast (totalCount_le_of_subperm hpart).trans h.total
  calc |sumOf part index| ≤ 2 ^ 128 * totalCount part :=
    abs_sumOf_le (fun u hu => hupdates u (hpart.subset hu)) index
    _ ≤ 2 ^ 128 * 2 ^ 53 := mul_le_mul_of_nonneg_left hcount (by positivity)
    _ = 2 ^ (128 + 53) := (pow_add 2 128 53).symm
    _ < 2 ^ 1024 := pow_lt_pow_right₀ (by norm_num) (by norm_num)

theorem sumOf_eq_mul {k : ℕ} (h : ∀ u ∈ updates, ∃ z : ℤ, u.product index = z * 2 ^ k) :
    ∃ z : ℤ, sumOf updates index = z * 2 ^ k := by
  induction updates with
  | nil => exact ⟨0, by simp [sumOf]⟩
  | cons u updates ih =>
    obtain ⟨z, hz⟩ := h u List.mem_cons_self
    obtain ⟨z', hz'⟩ := ih fun v hv => h v (List.mem_cons_of_mem u hv)
    have hsum : sumOf (u :: updates) index = u.product index + sumOf updates index := rfl
    refine ⟨z + z', ?_⟩
    rw [hsum, hz, hz']
    push_cast
    ring

/-- Multiples of a power of two whose absolute values add up to at most `2 ^ 53` times that power
need no rounding. -/
theorem significantBits_sumOf {part : List PendingUpdate} {k : ℕ}
    (hmultiple : ∀ u ∈ updates, ∃ z : ℤ, u.product index = z * 2 ^ k)
    (hbound : (updates.map fun u => |u.product index|).sum ≤ 2 ^ 53 * 2 ^ k)
    (hpart : part.Subperm updates) : SignificantBits 53 (sumOf part index) := by
  obtain ⟨z, hz⟩ := sumOf_eq_mul fun u hu => hmultiple u (hpart.subset hu)
  have habs : |sumOf part index| ≤ (part.map fun u => |u.product index|).sum := by
    have h := @Multiset.abs_sum_le_sum_abs ℚ _ _ _ (part.map fun u => u.product index : List ℚ)
    rwa [Multiset.sum_coe, Multiset.map_coe, Multiset.sum_coe, List.map_map] at h
  have hle : (part.map fun u => |u.product index|).sum ≤
      (updates.map fun u => |u.product index|).sum := by
    obtain ⟨part', hperm, hsub⟩ := hpart
    rw [← (hperm.map fun u : PendingUpdate => |u.product index|).sum_eq]
    refine (hsub.map _).sum_le_sum fun x hx => ?_
    obtain ⟨u, -, rfl⟩ := List.mem_map.1 hx
    exact abs_nonneg _
  have hnat : z.natAbs ≤ 2 ^ 53 := by
    have h := (habs.trans hle).trans hbound
    rw [hz, abs_mul, abs_of_pos (by positivity : (0 : ℚ) < 2 ^ k)] at h
    have hz53 := le_of_mul_le_mul_right h (by positivity)
    rw [← Int.cast_abs, Int.abs_eq_natAbs] at hz53
    exact_mod_cast hz53
  obtain ⟨m, j, hm, hj⟩ := significantBits_natCast hnat (by norm_num)
  refine ⟨m, j + k, hm, ?_⟩
  rw [hz, abs_mul, abs_of_pos (by positivity : (0 : ℚ) < 2 ^ k), pow_add, ← mul_assoc, ← hj,
    Nat.abs_cast, ← Int.cast_abs, Int.abs_eq_natAbs, Int.cast_natCast]

/-! ## The running sums -/

/-- The running sums hold the exact sums. -/
structure Accumulates (n : ℕ) (l : List PendingUpdate) (acc : WeightedSums) : Prop where
  length : acc.sums.length = n
  sums : ∀ index < n, HasValue (acc.sums.getD index 0) (sumOf l index)
  total : HasValue acc.totalWeight (totalCount l)

theorem accumulates_nil (n : ℕ) : Accumulates n [] ⟨List.replicate n 0, 0⟩ := by
  refine ⟨List.length_replicate, fun index hindex => ?_, ?_⟩
  · rw [List.getD_replicate _ hindex]
    exact HasValue.zero
  · exact_mod_cast HasValue.zero

theorem Accumulates.unique {l' : List PendingUpdate} {acc acc' : WeightedSums} (hperm : l.Perm l')
    (h : Accumulates n l acc) (h' : Accumulates n l' acc') : acc = acc' := by
  rcases acc with ⟨sums, total⟩
  rcases acc' with ⟨sums', total'⟩
  have hcount : totalCount l = totalCount l' := (hperm.map _).sum_eq
  have htotal := h.total
  rw [hcount] at htotal
  have hsums : sums = sums' := by
    refine List.ext_getElem (h.length.trans h'.length.symm) fun index h₁ h₂ => ?_
    have hindex : index < n := h.length ▸ h₁
    have hsum : sumOf l index = sumOf l' index := (hperm.map _).sum_eq
    have hleft := h.sums index hindex
    rw [hsum] at hleft
    rw [← List.getD_eq_getElem _ 0 h₁, ← List.getD_eq_getElem _ 0 h₂]
    exact hleft.unique (h'.sums index hindex)
  have hweight : total = total' := htotal.unique h'.total
  rw [hsums, hweight]

theorem addWeightedUpdate_ok {u : PendingUpdate} (hu : IntegerUpdate u)
    (hlength : u.values.length = n) (acc : WeightedSums) :
    addWeightedUpdate n acc u = .ok
      { sums := List.zipWith (fun sum value => sum + float64 value * u.sampleCount.toFloat)
          acc.sums u.values
        totalWeight := acc.totalWeight + u.sampleCount.toFloat } := by
  rw [addWeightedUpdate, if_neg (not_not.2 hlength)]
  exact if_neg hu.not_toFloat_le_zero

theorem Accumulates.step {u : PendingUpdate} {acc : WeightedSums} (h : Accumulates n l acc)
    (hexact : ExactSums updates n) (hupdates : ∀ u ∈ updates, IntegerUpdate u)
    (hpart : (l ++ [u]).Subperm updates) (hlength : u.values.length = n) :
    ∃ acc', addWeightedUpdate n acc u = .ok acc' ∧ Accumulates n (l ++ [u]) acc' := by
  have hu : IntegerUpdate u :=
    hupdates u (hpart.subset (List.mem_append_right _ List.mem_cons_self))
  have hcount := hasValue_toFloat (hu.count_le.trans (by norm_num))
  have hone : totalCount [u] = u.sampleCount.toNat := Nat.add_zero _
  refine ⟨_, addWeightedUpdate_ok hu hlength acc, ⟨?_, fun index hindex => ?_, ?_⟩⟩
  · rw [List.length_zipWith, h.length, hlength, Nat.min_self]
  · obtain ⟨hfinite, hvalue⟩ := hu.product_exact index
    have hsum : sumOf (l ++ [u]) index = sumOf l index + u.product index := by
      rw [sumOf_append]
      exact congrArg _ (add_zero _)
    have hrep := hexact.representable hupdates hpart hindex
    have hget :
        (List.zipWith (fun sum value => sum + float64 value * u.sampleCount.toFloat)
          acc.sums u.values).getD index 0 =
        acc.sums.getD index 0 + float64 (u.values.getD index 0) * u.sampleCount.toFloat := by
      have h₁ : index < acc.sums.length := h.length ▸ hindex
      have h₂ : index < u.values.length := hlength ▸ hindex
      rw [List.getD_eq_getElem _ _ (by rw [List.length_zipWith]; omega), List.getElem_zipWith,
        List.getD_eq_getElem _ _ h₁, List.getD_eq_getElem _ _ h₂]
    rw [hsum] at hrep ⊢
    dsimp only
    rw [hget]
    exact (h.sums index hindex).add hfinite hvalue hrep
  · have htotal : (totalCount (l ++ [u]) : ℚ) = totalCount l + u.sampleCount.toNat := by
      rw [totalCount_append, hone, Nat.cast_add]
    have hle : totalCount (l ++ [u]) ≤ 2 ^ 53 := (totalCount_le_of_subperm hpart).trans hexact.total
    have hrep : Representable .binary64 (totalCount (l ++ [u])) := by
      refine (significantBits_natCast hle (by norm_num)).representable ?_
      rw [Nat.abs_cast]
      calc (totalCount (l ++ [u]) : ℚ) ≤ 2 ^ 53 := by exact_mod_cast hle
        _ < 2 ^ 1024 := pow_lt_pow_right₀ (by norm_num) (by norm_num)
    rw [htotal] at hrep ⊢
    exact h.total.add hcount.finite hcount.value hrep

/-- The loop over updates of one length adds up exactly. -/
theorem foldlM_accumulates (hexact : ExactSums updates n)
    (hupdates : ∀ u ∈ updates, IntegerUpdate u) (hpart : l.Subperm updates)
    (hlength : ∀ u ∈ l, u.values.length = n) :
    ∃ acc, l.foldlM (addWeightedUpdate n) ⟨List.replicate n 0, 0⟩ = .ok acc ∧
      Accumulates n l acc := by
  induction l using List.reverseRecOn with
  | nil => exact ⟨_, rfl, accumulates_nil n⟩
  | append_singleton l u ih =>
    obtain ⟨acc, hfold, hacc⟩ :=
      ih ((List.sublist_append_left l [u]).subperm.trans hpart) fun v hv =>
      hlength v (List.mem_append_left _ hv)
    obtain ⟨acc', hstep, hacc'⟩ := hacc.step hexact hupdates hpart
      (hlength u (List.mem_append_right _ List.mem_cons_self))
    refine ⟨acc', ?_, hacc'⟩
    rw [List.foldlM_append, hfold]
    exact (congrArg (· >>= _) hstep).trans rfl

/-- A vector of another length ends the loop with one error. -/
theorem foldlM_error (hupdates : ∀ u ∈ l, IntegerUpdate u) (hlength : ∃ u ∈ l, u.values.length ≠ n)
    (acc : WeightedSums) :
    l.foldlM (addWeightedUpdate n) acc = .error "pending update vector lengths do not match" := by
  induction l generalizing acc with
  | nil =>
    obtain ⟨u, hu, -⟩ := hlength
    exact absurd hu List.not_mem_nil
  | cons u l ih =>
    rw [List.foldlM_cons]
    by_cases hu : u.values.length = n
    · rw [addWeightedUpdate_ok (hupdates u List.mem_cons_self) hu]
      refine ih (fun v hv => hupdates v (List.mem_cons_of_mem u hv)) ?_ _
      obtain ⟨v, hv, hne⟩ := hlength
      rcases List.mem_cons.1 hv with rfl | hv
      · exact absurd hu hne
      · exact ⟨v, hv, hne⟩
    · rw [addWeightedUpdate, if_pos hu]
      rfl

/-- The running sums do not depend on the order of the updates. -/
theorem foldlM_perm {l' : List PendingUpdate} (hexact : ExactSums updates n)
    (hupdates : ∀ u ∈ updates, IntegerUpdate u) (hl : l.Perm updates) (hl' : l'.Perm updates) :
    l.foldlM (addWeightedUpdate n) ⟨List.replicate n 0, 0⟩ =
      l'.foldlM (addWeightedUpdate n) ⟨List.replicate n 0, 0⟩ := by
  by_cases hlength : ∀ u ∈ updates, u.values.length = n
  · obtain ⟨acc, hfold, hacc⟩ := foldlM_accumulates hexact hupdates hl.subperm fun u hu =>
      hlength u (hl.mem_iff.1 hu)
    obtain ⟨acc', hfold', hacc'⟩ := foldlM_accumulates hexact hupdates hl'.subperm fun u hu =>
      hlength u (hl'.mem_iff.1 hu)
    rw [hfold, hfold', hacc.unique (hl.trans hl'.symm) hacc']
  · push Not at hlength
    obtain ⟨u, hu, hne⟩ := hlength
    rw [foldlM_error (fun v hv => hupdates v (hl.mem_iff.1 hv)) ⟨u, hl.mem_iff.2 hu, hne⟩,
      foldlM_error (fun v hv => hupdates v (hl'.mem_iff.1 hv)) ⟨u, hl'.mem_iff.2 hu, hne⟩]

theorem aggregateWeightedUpdates_order {updates : OrdMap String PendingUpdate}
    (hexact : ExactSums updates.values n) (hupdates : ∀ u ∈ updates.values, IntegerUpdate u)
    (order order' : IterOrder) :
    aggregateWeightedUpdates order updates n = aggregateWeightedUpdates order' updates n := by
  rw [aggregateWeightedUpdates, aggregateWeightedUpdates,
    foldlM_perm hexact hupdates (order.perm updates.values) (order'.perm updates.values)]

/-- The weighted mean of updates that add up without rounding, and the model of a round that is
closed with them, do not depend on the order in which the pending updates are iterated. -/
theorem weightedMean_order_independent (updates : OrdMap String PendingUpdate) (vectorLength : ℕ)
    (hupdates : ∀ u ∈ updates.values, IntegerUpdate u)
    (hexact : ExactSums updates.values vectorLength) (order order' : IterOrder) :
    aggregateWeightedUpdates order updates vectorLength =
      aggregateWeightedUpdates order' updates vectorLength ∧
    ∀ s : Service, s.pending = updates → s.settings.aggregationMethod = "weighted_mean" →
      ∀ nodeID updateID currentValues now, currentValues.length = vectorLength →
        s.closeRound nodeID updateID currentValues now order =
        s.closeRound nodeID updateID currentValues now order' := by
  have hmean := aggregateWeightedUpdates_order hexact hupdates order order'
  refine ⟨hmean, ?_⟩
  rintro s rfl hmethod nodeID updateID currentValues now rfl
  have hpending (order : IterOrder) :
    aggregatePendingUpdates order s.pending currentValues.length "weighted_mean" =
      aggregateWeightedUpdates order s.pending currentValues.length := rfl
  rw [Service.closeRound, Service.closeRound, hmethod, hpending, hpending, hmean]

/-- Three updates of one element each, from one sample each. -/
def sampleUpdates (x y z : Float32) : OrdMap String PendingUpdate :=
  ((OrdMap.empty.insert "worker-1" ⟨"worker-1", "update-1", [x], 1⟩).insert "worker-2"
    ⟨"worker-2", "update-2", [y], 1⟩).insert "worker-3" ⟨"worker-3", "update-3", [z], 1⟩

theorem values_sampleUpdates (x y z : Float32) : (sampleUpdates x y z).values =
    [⟨"worker-1", "update-1", [x], 1⟩, ⟨"worker-2", "update-2", [y], 1⟩,
      ⟨"worker-3", "update-3", [z], 1⟩] := rfl

theorem integerUpdate_sample {nodeID updateID : String} {v : Float32} (hfinite : v.isFinite = true)
    {z : ℤ} (hv : value32 v = z) : IntegerUpdate ⟨nodeID, updateID, [v], 1⟩ where
  finite := by simpa using hfinite
  integer := by simpa using ⟨z, hv⟩
  pos := (by decide : 1 ≤ (1 : UInt64).toNat)
  le := (by decide : 1 ≤ maxReportedSampleCount)

theorem value32_one : value32 1 = (1 : ℤ) := by decide +kernel

theorem value32_large : value32 1152921504606846976 = (2 ^ 60 : ℤ) := by decide +kernel

theorem value32_neg_large : value32 (-1152921504606846976) = (-2 ^ 60 : ℤ) := by decide +kernel

/-- Large numbers with a common power of two. -/
theorem weightedMean_order_independent_large :
    aggregateWeightedUpdates .listed
      (sampleUpdates 1152921504606846976 1152921504606846976 (-1152921504606846976)) 1 =
      aggregateWeightedUpdates .reversed
        (sampleUpdates 1152921504606846976 1152921504606846976 (-1152921504606846976)) 1 := by
  have hupdates : ∀ u ∈ (sampleUpdates 1152921504606846976 1152921504606846976
      (-1152921504606846976)).values, IntegerUpdate u := by
    rw [values_sampleUpdates]
    simp only [List.forall_mem_cons, List.not_mem_nil, false_imp_iff, implies_true, and_true]
    exact ⟨integerUpdate_sample rfl value32_large, integerUpdate_sample rfl value32_large,
      integerUpdate_sample rfl value32_neg_large⟩
  refine (weightedMean_order_independent _ 1 hupdates ⟨by decide, ?_⟩ _ _).1
  intro index hindex part hpart
  obtain rfl : index = 0 := by omega
  rw [values_sampleUpdates] at hpart
  have hproduct {nodeID updateID : String} {v : Float32} {z : ℤ} (hv : value32 v = z) :
      PendingUpdate.product ⟨nodeID, updateID, [v], 1⟩ 0 = z := by
    rw [← hv]
    exact mul_one _
  refine @significantBits_sumOf 0 _ _ 60 ?_ ?_ hpart
  · simp only [List.forall_mem_cons, List.not_mem_nil, false_imp_iff, implies_true, and_true,
      hproduct value32_large, hproduct value32_neg_large]
    exact ⟨⟨1, by norm_num⟩, ⟨1, by norm_num⟩, ⟨-1, by norm_num⟩⟩
  · simp only [List.map_cons, List.map_nil, List.sum_cons, List.sum_nil, hproduct value32_large,
      hproduct value32_neg_large]
    norm_num

/-- A small number gets lost next to large ones, or not. -/
theorem weightedMean_depends_on_order :
    (∀ u ∈ (sampleUpdates 1 1152921504606846976 (-1152921504606846976)).values, IntegerUpdate u) ∧
    aggregateWeightedUpdates .listed
      (sampleUpdates 1 1152921504606846976 (-1152921504606846976)) 1 ≠
      aggregateWeightedUpdates .reversed
        (sampleUpdates 1 1152921504606846976 (-1152921504606846976)) 1 := by
  refine ⟨?_, by decide +kernel⟩
  rw [values_sampleUpdates]
  simp only [List.forall_mem_cons, List.not_mem_nil, false_imp_iff, implies_true, and_true]
  exact ⟨integerUpdate_sample rfl value32_one, integerUpdate_sample rfl value32_large,
    integerUpdate_sample rfl value32_neg_large⟩

end ZeroTrustFL
