import Mathlib
import ZeroTrustFL.Aggregation.Breakdown

/-!
# The trimmed mean of the two backends

The torch backend computes how many values to drop from a double-precision `beta`.  The binding of
the native backend takes a single-precision one, and so the two may drop different numbers of
values.
-/

namespace ZeroTrustFL

/-! ## The backends -/

/-- The check of `beta` in `AggregationConfig`. -/
def acceptsBeta (beta : Float) : Bool := decide ((0.0 : Float) ≤ beta) && decide (beta < 0.5)

/-- The rows `trim : -trim` of a tensor, or all of them. -/
def trimmedRows (trim : ℕ) (values : List ℚ) : List ℚ :=
  if 0 < trim then (values.take (values.length - trim)).drop trim else values

/-- `_torch_aggregate` with the method `trimmed_mean`. -/
def torchTrimmedMean (updates : List (List ℚ)) (beta : Float) : Except String (List ℚ) :=
  match updates with
  | [] => .error "cannot aggregate an empty update list"
  | reference :: _ =>
    if updates.any fun update => update.length ≠ reference.length then
      .error "all model updates must have the same shape"
    else
      let trim := trimCount (value64 beta) updates.length
      if 2 * trim ≥ updates.length then .error "trimmed mean would remove every update"
      else .ok ((List.range reference.length).map fun d =>
        let selected := trimmedRows trim (sorted (coordinate updates d))
        selected.sum / selected.length)

/-- `_to_numpy_updates`. -/
def toNumpyUpdates (updates : List (List ℚ)) : Except String (List (List ℚ)) :=
  match updates with
  | [] => .error "at least one model update is required"
  | reference :: _ =>
    if updates.any fun update => update.length ≠ reference.length then
      .error "all model updates must have the same shape"
    else .ok updates

/-- `prepare_updates` of the binding. -/
def prepareUpdates (updates : List (List ℚ)) : Except String (List (List ℚ)) :=
  match updates with
  | [] => .error "at least one model update is required"
  | first :: _ =>
    if first.length = 0 then .error "model updates must not be empty"
    else if updates.any fun update => update.length ≠ first.length then
      .error "all model updates must have the same shape"
    else .ok updates

/-- `trimmed_mean_binding`; the conversion of the argument to a `float` rounds it. -/
def trimmedMeanBinding (std : StdAlgorithms) (updates : List (List ℚ)) (beta : Float) :
    Except String (List ℚ) :=
  match prepareUpdates updates with
  | .error e => .error e
  | .ok views => trimmedMeanAggregate std views (float32 beta)

/-- `CppByzantineAggregator.trimmed_mean`. -/
def nativeTrimmedMean (std : StdAlgorithms) (updates : List (List ℚ)) (beta : Float) :
    Except String (List ℚ) :=
  match toNumpyUpdates updates with
  | .error e => .error e
  | .ok arrays => trimmedMeanBinding std arrays beta

/-- The backends drop equally many values, and both reject the updates or return the same means. -/
structure TrimmedMeanParity (std : StdAlgorithms) (updates : List (List ℚ)) (beta : Float) :
    Prop where
  trim : trimCount (value64 beta) updates.length = trimCount (value32 (float32 beta)) updates.length
  outcome :
    (∃ e e', torchTrimmedMean updates beta = .error e ∧
      nativeTrimmedMean std updates beta = .error e') ∨
    ∃ result, torchTrimmedMean updates beta = .ok result ∧
      nativeTrimmedMean std updates beta = .ok result

/-! ## Accepted values of `beta` -/

theorem value64_half : value64 0.5 = 1 / 2 := by decide +kernel

theorem value64_zero : value64 0.0 = 0 := by decide +kernel

theorem acceptsBeta_spec {beta : Float} (h : acceptsBeta beta = true) :
    beta.isFinite = true ∧ 0 ≤ value64 beta ∧ value64 beta < 1 / 2 := by
  obtain ⟨hle, hlt⟩ := Bool.and_eq_true_iff.1 h
  have hle := of_decide_eq_true hle
  have hlt := of_decide_eq_true hlt
  have hzero : (0.0 : Float).isFinite = true := by decide +kernel
  have hhalf : (0.5 : Float).isFinite = true := by decide +kernel
  have hfinite := isFinite_of_between hzero hhalf hle hlt
  refine ⟨hfinite, ?_, ?_⟩
  · rw [← value64_zero]
    exact (le_iff_value64 hzero hfinite).1 hle
  · rw [← value64_half]
    exact (lt_iff_value64 hfinite hhalf).1 hlt

/-- Rounding an accepted value can reach one half, but not leave the interval. -/
theorem float32_accepted {beta : Float} (h : acceptsBeta beta = true) :
    (float32 beta).isFinite = true ∧ 0 ≤ value32 (float32 beta) := by
  obtain ⟨hfinite, hnonneg, hlt⟩ := acceptsBeta_spec h
  have hzero : value32 0.0 = 0 := by decide +kernel
  have hhalf : value32 0.5 = 1 / 2 := by decide +kernel
  have hwithin := @float32_within beta hfinite 0.0 0.5 (by decide +kernel) (by decide +kernel)
    (hzero ▸ hnonneg) (hhalf ▸ hlt.le)
  exact ⟨hwithin.1, hzero ▸ hwithin.2.1⟩

/-! ## Trimming -/

theorem le_trimCount_iff {beta : ℚ} (hnonneg : 0 ≤ beta) {n : ℕ} (hn : 0 < n) (k : ℕ) :
    k ≤ trimCount beta n ↔ (k : ℚ) / n ≤ beta := by
  have hpos : (0 : ℚ) < n := Nat.cast_pos.2 hn
  change k ≤ ⌊beta * n⌋.toNat ↔ _
  rw [div_le_iff₀ hpos, Int.le_toNat (Int.floor_nonneg.2 (by positivity)), Int.le_floor]
  rfl

theorem two_mul_trimCount_lt {beta : ℚ} {n : ℕ} (hnonneg : 0 ≤ beta) (hhalf : beta < 1 / 2)
    (hn : 0 < n) : 2 * trimCount beta n < n := by
  have hpos : (0 : ℚ) < n := Nat.cast_pos.2 hn
  have hlt := lt_of_le_of_lt ((le_trimCount_iff hnonneg hn _).1 le_rfl) hhalf
  rw [div_lt_iff₀ hpos] at hlt
  have hcast : ((2 * trimCount beta n : ℕ) : ℚ) < n := by
    push_cast
    linarith
  exact_mod_cast hcast

/-- Two ratios drop equally many of `n` values when no multiple of `1 / n` separates them. -/
theorem trimCount_eq_iff {a b : ℚ} (ha : 0 ≤ a) (hb : 0 ≤ b) {n : ℕ} (hn : 0 < n) :
    trimCount a n = trimCount b n ↔ ∀ k : ℕ, (k : ℚ) / n ≤ a ↔ (k : ℚ) / n ≤ b := by
  refine ⟨fun h k => ?_, fun h => le_antisymm ?_ ?_⟩
  · rw [← le_trimCount_iff ha hn, ← le_trimCount_iff hb hn, h]
  · exact (le_trimCount_iff hb hn _).2 ((h _).1 ((le_trimCount_iff ha hn _).1 le_rfl))
  · exact (le_trimCount_iff ha hn _).2 ((h _).2 ((le_trimCount_iff hb hn _).1 le_rfl))

theorem trimmedRows_eq (trim : ℕ) (values : List ℚ) :
    trimmedRows trim values = (values.take (values.length - trim)).drop trim := by
  unfold trimmedRows
  split_ifs with h
  · rfl
  · simp [Nat.eq_zero_of_not_pos h]

/-- The mean of the selected rows is the trimmed mean of the native backend. -/
theorem mean_trimmedRows (std : StdAlgorithms) (trim : ℕ) (values : List ℚ) :
    (trimmedRows trim (sorted values)).sum / (trimmedRows trim (sorted values)).length =
      trimmedMeanOf std trim values := by
  have hlength : (trimmedRows trim (sorted values)).length = values.length - 2 * trim := by
    rw [trimmedRows_eq, List.length_drop, List.length_take, length_sorted]
    omega
  rw [hlength, trimmedRows_eq, length_sorted, trimmedMeanOf, std.sort_eq]

section

variable {updates : List (List ℚ)} {dimension : ℕ} {beta : Float}

theorem torchTrimmedMean_eq (std : StdAlgorithms) (hne : updates ≠ [])
    (hlength : ∀ u ∈ updates, u.length = dimension) (hbeta : acceptsBeta beta = true) :
    torchTrimmedMean updates beta = .ok ((List.range dimension).map fun d =>
      trimmedMeanOf std (trimCount (value64 beta) updates.length) (coordinate updates d)) := by
  obtain ⟨-, hnonneg, hhalf⟩ := acceptsBeta_spec hbeta
  have htrim := two_mul_trimCount_lt hnonneg hhalf (List.length_pos_of_ne_nil hne)
  rcases updates with _ | ⟨reference, rest⟩
  · exact absurd rfl hne
  · have hreference := hlength reference List.mem_cons_self
    simp only [torchTrimmedMean, mean_trimmedRows std]
    rw [if_neg (any_length_ne_false hlength hreference), if_neg (not_le.2 htrim), hreference]

theorem nativeTrimmedMean_eq (std : StdAlgorithms) (hne : updates ≠ [])
    (hlength : ∀ u ∈ updates, u.length = dimension) :
    nativeTrimmedMean std updates beta =
      if dimension = 0 then .error "model updates must not be empty"
      else trimmedMeanAggregate std updates (float32 beta) := by
  rcases updates with _ | ⟨reference, rest⟩
  · exact absurd rfl hne
  · have hreference := hlength reference List.mem_cons_self
    have hnumpy : toNumpyUpdates (reference :: rest) = .ok (reference :: rest) :=
      if_neg (any_length_ne_false hlength hreference)
    have hprepare : prepareUpdates (reference :: rest) =
        if dimension = 0 then .error "model updates must not be empty"
        else .ok (reference :: rest) := by
      rw [prepareUpdates, if_neg (any_length_ne_false hlength hreference), hreference]
    rw [nativeTrimmedMean, hnumpy]
    simp only [trimmedMeanBinding, hprepare]
    split_ifs <;> rfl

end

/-- The backends agree exactly when the updates have elements and rounding `beta` to single
precision neither reaches one half nor crosses a multiple of `1 / n`. -/
theorem trimmedMeanParity_iff (std : StdAlgorithms) (updates : List (List ℚ)) (dimension : ℕ)
    (beta : Float) (hne : updates ≠ []) (hlength : ∀ u ∈ updates, u.length = dimension)
    (hbeta : acceptsBeta beta = true) :
    TrimmedMeanParity std updates beta ↔
      0 < dimension ∧ value32 (float32 beta) < 1 / 2 ∧
        ∀ k : ℕ, (k : ℚ) / updates.length ≤ value64 beta ↔
        (k : ℚ) / updates.length ≤ value32 (float32 beta) := by
  obtain ⟨-, hnonneg, -⟩ := acceptsBeta_spec hbeta
  obtain ⟨hfinite, hnonneg'⟩ := float32_accepted hbeta
  have hn := List.length_pos_of_ne_nil hne
  have htorch := torchTrimmedMean_eq std hne hlength hbeta
  have hnative : nativeTrimmedMean std updates beta = _ := nativeTrimmedMean_eq std hne hlength
  rw [← trimCount_eq_iff hnonneg hnonneg' hn]
  constructor
  · rintro ⟨htrim, ⟨e, e', herror, -⟩ | ⟨result, -, hok⟩⟩
    · cases htorch.symm.trans herror
    · rw [hnative] at hok
      split_ifs at hok with hdim
      refine ⟨Nat.pos_of_ne_zero hdim, ?_, htrim⟩
      by_contra hhalf
      rw [trimmedMeanAggregate, validateUpdates_eq hne hlength (Nat.pos_of_ne_zero hdim)] at hok
      simp only [if_pos (show _ ∨ _ ∨ _ from .inr (.inr (not_lt.1 hhalf)))] at hok
      cases hok
  · rintro ⟨hdim, hhalf, htrim⟩
    refine ⟨htrim, .inr ⟨_, htorch, ?_⟩⟩
    have hleft := two_mul_trimCount_lt hnonneg' hhalf hn
    rw [hnative, if_neg hdim.ne', htrim]
    exact trimmedMeanAggregate_eq std hne hlength hdim hfinite hnonneg' hhalf hleft

/-- Twenty updates of one element each. -/
def squareUpdates : List (List ℚ) := (List.range 20).map fun i => [(i : ℚ) * i]

theorem trimmedMeanParity_squareUpdates : TrimmedMeanParity .reference squareUpdates 0.25 :=
  (trimmedMeanParity_iff .reference squareUpdates 1 0.25 (by decide) (by decide)
    (by decide +kernel)).2
    ⟨by decide, by decide +kernel, fun k => by
      have hexact : value64 0.25 = value32 (float32 0.25) := by decide +kernel
      rw [hexact]⟩

theorem trimmedMeanParity_fails :
    acceptsBeta 0.45 = true ∧ torchTrimmedMean squareUpdates 0.45 = .ok [181 / 2] ∧
      nativeTrimmedMean .reference squareUpdates 0.45 = .ok [183 / 2] ∧
      ¬ TrimmedMeanParity .reference squareUpdates 0.45 := by
  have hdiffer : trimCount (value64 0.45) 20 ≠ trimCount (value32 (float32 0.45)) 20 := by
    decide +kernel
  exact ⟨by decide +kernel, by decide +kernel, by decide +kernel, fun h => hdiffer h.trim⟩

end ZeroTrustFL
