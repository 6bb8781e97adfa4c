import Mathlib
import ZeroTrustFL.Aggregation.Median
import ZeroTrustFL.Lib.CheckedFold
import ZeroTrustFL.Aggregation.Parity

/-!
# The aggregation backends of the simulation

`_torch_aggregate` and `CppByzantineAggregator.aggregate` as functions of an `AggregationConfig`.
`CountPreconditions` collects what they require of the number of updates; updates of one shape that
meet it are aggregated.
-/

namespace ZeroTrustFL

namespace Simulation

inductive Method where
  | mean | krum | multiKrum | trimmedMean | median
  deriving DecidableEq, Repr

/-- An `AggregationConfig` that passes the checks of its constructor. -/
structure AggregationConfig where
  method : Method
  f : ℕ
  k : ℕ
  beta : Float
  k_pos : 0 < k
  beta_accepted : acceptsBeta beta = true

/-- How many updates the two variants of Krum select. -/
def AggregationConfig.candidates (config : AggregationConfig) : ℕ :=
  if config.method = .krum then 1 else config.k

/-- `math.floor(beta * count)` in double precision. -/
def floorTrim (beta : Float) (count : ℕ) : ℕ := (value64 (beta * Float.ofNat count)).floor.toNat

/-! ## Torch -/

/-- `torch.topk` with `largest=False`: the positions of the smallest values. -/
structure TopK where
  smallest : ℕ → List ℚ → List ℕ
  length_smallest : ∀ k values, k ≤ values.length → (smallest k values).length = k
  nodup_smallest : ∀ k values, (smallest k values).Nodup
  lt_of_mem : ∀ k values, ∀ i ∈ smallest k values, i < values.length
  smallest_le : ∀ k values, ∀ i ∈ smallest k values, ∀ j < values.length, j ∉ smallest k values →
    values.getD i 0 ≤ values.getD j 0

/-- A call of `torch.topk`, which fails if there are not enough values. -/
def TopK.call (topk : TopK) (k : ℕ) (values : List ℚ) : Except String (List ℕ) :=
  if values.length < k then .error "selected index k out of range" else .ok (topk.smallest k values)

/-- The score of an update: the distances to the nearest others. -/
def torchScore (topk : TopK) (updates : List (List ℚ)) (neighborCount index : ℕ) :
    Except String ℚ :=
  let distances := (List.range updates.length).map fun j => squaredDistance (updates.getD index [])
    (updates.getD j [])
  let row := distances.take index ++ distances.drop (index + 1)
  (topk.call neighborCount row).map fun nearest => (nearest.map fun j => row.getD j 0).sum

/-- `_torch_aggregate` with the methods `krum` and `multi_krum`. -/
def torchKrum (topk : TopK) (updates : List (List ℚ)) (f k : ℕ) : Except String (List ℚ) :=
  match updates with
  | [] => .error "cannot aggregate an empty update list"
  | reference :: _ =>
    if updates.any fun update => update.length ≠ reference.length then
      .error "all model updates must have the same shape"
    else
      let count := updates.length
      if count < 2 * f + 3 then .error "Krum requires n >= 2*f + 3"
      else
        let neighborCount := count - f - 2
        match (List.range count).mapM (torchScore topk updates neighborCount) with
        | .error e => .error e
        | .ok scores =>
          if k = 0 ∨ neighborCount < k then .error "Multi-Krum k must satisfy 1 <= k <= n-f-2"
          else
            (topk.call k scores).map fun selected =>
              meanOf reference.length (selected.map fun i => updates.getD i [])

/-- `_torch_aggregate` with the method `mean`. -/
def torchMean (updates : List (List ℚ)) : Except String (List ℚ) :=
  match updates with
  | [] => .error "cannot aggregate an empty update list"
  | reference :: _ =>
    if updates.any fun update => update.length ≠ reference.length then
      .error "all model updates must have the same shape"
    else .ok (meanOf reference.length updates)

/-- `_torch_aggregate`. -/
def torchAggregate (topk : TopK) (config : AggregationConfig) (updates : List (List ℚ)) :
    Except String (List ℚ) :=
  match config.method with
  | .median => torchMedian updates
  | .trimmedMean => torchTrimmedMean updates config.beta
  | .krum | .multiKrum => torchKrum topk updates config.f config.candidates
  | .mean => torchMean updates

/-! ## The extension -/

/-- `CppByzantineAggregator.krum` and `krum_binding`. -/
def nativeKrum (std : StdAlgorithms) (updates : List (List ℚ)) (f k : ℕ) : Except String (List ℚ) :=
  match toNumpyUpdates updates with
  | .error e => .error e
  | .ok arrays =>
    if k = 0 then .error "candidate count k must be positive"
    else
      match prepareUpdates arrays with
      | .error e => .error e
      | .ok views => krumAggregate std views f k

/-- `CppByzantineAggregator.median` and `median_binding`. -/
def nativeMedian (std : StdAlgorithms) (updates : List (List ℚ)) : Except String (List ℚ) :=
  match toNumpyUpdates updates with
  | .error e => .error e
  | .ok arrays =>
    match prepareUpdates arrays with
    | .error e => .error e
    | .ok views => medianAggregate std views

/-- `CppByzantineAggregator.aggregate`. -/
def nativeAggregate (std : StdAlgorithms) (config : AggregationConfig) (updates : List (List ℚ)) :
    Except String (List ℚ) :=
  match config.method with
  | .krum => nativeKrum std updates config.f 1
  | .multiKrum => nativeKrum std updates config.f config.k
  | .trimmedMean => nativeTrimmedMean std updates config.beta
  | .median => nativeMedian std updates
  | .mean => .error "unsupported aggregation method: 'mean'"

/-! ## Counts -/

/-- What the methods require of the number of updates. -/
structure CountPreconditions (config : AggregationConfig) (count : ℕ) : Prop where
  updates : 0 < count
  krum : config.method = .krum ∨ config.method = .multiKrum →
    2 * config.f + 3 ≤ count ∧ 1 ≤ config.candidates ∧ config.candidates ≤ count - config.f - 2
  trimmedMean : config.method = .trimmedMean → 2 * floorTrim config.beta count < count

section

variable {updates : List (List ℚ)} {dimension f k : ℕ}

theorem TopK.call_ok (topk : TopK) {values : List ℚ} (h : k ≤ values.length) :
    topk.call k values = .ok (topk.smallest k values) := if_neg h.not_gt

theorem torchScore_ok (topk : TopK) {neighborCount index : ℕ} (hindex : index < updates.length)
    (h : neighborCount < updates.length) :
    ∃ score, torchScore topk updates neighborCount index = .ok score := by
  simp only [torchScore]
  rw [topk.call_ok]
  · exact ⟨_, rfl⟩
  · simp only [List.length_append, List.length_take, List.length_drop, List.length_map,
      List.length_range]
    omega

theorem torchKrum_ok (topk : TopK) (hlength : ∀ u ∈ updates, u.length = dimension)
    (hf : 2 * f + 3 ≤ updates.length) (hpos : 1 ≤ k) (hle : k ≤ updates.length - f - 2) :
    ∃ result, torchKrum topk updates f k = .ok result := by
  rcases updates with _ | ⟨front, rest⟩
  · exact absurd hf (by simp)
  have hfront := hlength front List.mem_cons_self
  have hok (index : ℕ) (hindex : index ∈ List.range (front :: rest).length) :
      ∃ score, torchScore topk (front :: rest) ((front :: rest).length - f - 2) index = .ok score :=
    torchScore_ok topk (List.mem_range.1 hindex) (by omega)
  choose! score hscore using hok
  have hk : ¬ (k = 0 ∨ (front :: rest).length - f - 2 < k) := by omega
  simp only [torchKrum, any_length_ne_false hlength hfront, if_neg hf.not_gt, mapM_eq_map hscore,
    if_neg hk]
  rw [topk.call_ok (by rw [List.length_map, List.length_range]; omega)]
  exact ⟨_, rfl⟩

theorem toNumpyUpdates_eq (hne : updates ≠ []) (hlength : ∀ u ∈ updates, u.length = dimension) :
    toNumpyUpdates updates = .ok updates := by
  obtain ⟨front, rest, rfl⟩ := List.exists_cons_of_ne_nil hne
  exact if_neg (any_length_ne_false hlength (hlength front List.mem_cons_self))

theorem prepareUpdates_eq (hne : updates ≠ []) (hlength : ∀ u ∈ updates, u.length = dimension)
    (hdim : 0 < dimension) : prepareUpdates updates = .ok updates := by
  obtain ⟨front, rest, rfl⟩ := List.exists_cons_of_ne_nil hne
  have hfront := hlength front List.mem_cons_self
  rw [prepareUpdates, if_neg (by rw [hfront]; exact hdim.ne'),
    if_neg (any_length_ne_false hlength hfront)]

theorem nativeKrum_ok (std : StdAlgorithms) (hlength : ∀ u ∈ updates, u.length = dimension)
    (hdim : 0 < dimension) (hf : 2 * f + 3 ≤ updates.length) (hpos : 1 ≤ k)
    (hle : k ≤ updates.length - f - 2) : ∃ result, nativeKrum std updates f k = .ok result := by
  have hne : updates ≠ [] := fun h => by
    rw [h] at hf
    exact absurd hf (by simp)
  have hk : ¬ (k = 0 ∨ k > updates.length - f - 2) := by omega
  simp only [nativeKrum, toNumpyUpdates_eq hne hlength, prepareUpdates_eq hne hlength hdim,
    krumAggregate, validateUpdates_eq hne hlength hdim, if_neg hf.not_gt, if_neg hk,
    if_neg (Nat.one_le_iff_ne_zero.1 hpos)]
  split_ifs
  · exact ⟨_, rfl⟩
  · exact ⟨_, rfl⟩

/-- Enough updates of one shape are aggregated by torch. -/
theorem CountPreconditions.torchAggregate_ok {config : AggregationConfig}
    (h : CountPreconditions config updates.length) (topk : TopK)
    (hlength : ∀ u ∈ updates, u.length = dimension) :
    ∃ result, torchAggregate topk config updates = .ok result := by
  have hne : updates ≠ [] := List.length_pos_iff_ne_nil.1 h.updates
  rcases hmethod : config.method
  · obtain ⟨front, rest, rfl⟩ := List.exists_cons_of_ne_nil hne
    simp only [torchAggregate, hmethod, torchMean]
    rw [if_neg (any_length_ne_false hlength (hlength front List.mem_cons_self))]
    exact ⟨_, rfl⟩
  · simp only [torchAggregate, hmethod]
    obtain ⟨hf, hpos, hle⟩ := h.krum (.inl hmethod)
    exact torchKrum_ok topk hlength hf hpos hle
  · simp only [torchAggregate, hmethod]
    obtain ⟨hf, hpos, hle⟩ := h.krum (.inr hmethod)
    exact torchKrum_ok topk hlength hf hpos hle
  · simp only [torchAggregate, hmethod]
    exact ⟨_, torchTrimmedMean_eq .reference hne hlength config.beta_accepted⟩
  · simp only [torchAggregate, hmethod]
    exact ⟨_, torchMedian_eq hne hlength⟩

/-- Enough updates of one shape are aggregated by the extension, unless the method is a mean. -/
theorem CountPreconditions.nativeAggregate_ok {config : AggregationConfig}
    (h : CountPreconditions config updates.length) (std : StdAlgorithms)
    (hlength : ∀ u ∈ updates, u.length = dimension) (hdim : 0 < dimension)
    (hmethod : config.method = .krum ∨ config.method = .multiKrum ∨ config.method = .median) :
    ∃ result, nativeAggregate std config updates = .ok result := by
  have hne : updates ≠ [] := List.length_pos_iff_ne_nil.1 h.updates
  rcases hmethod with hmethod | hmethod | hmethod
  · obtain ⟨hf, hpos, hle⟩ := h.krum (.inl hmethod)
    rw [AggregationConfig.candidates, if_pos hmethod] at hpos hle
    simp only [nativeAggregate, hmethod]
    exact nativeKrum_ok std hlength hdim hf hpos hle
  · obtain ⟨hf, hpos, hle⟩ := h.krum (.inr hmethod)
    rw [AggregationConfig.candidates, if_neg (by rw [hmethod]; decide)] at hpos hle
    simp only [nativeAggregate, hmethod]
    exact nativeKrum_ok std hlength hdim hf hpos hle
  · simp only [nativeAggregate, hmethod, nativeMedian, toNumpyUpdates_eq hne hlength,
      prepareUpdates_eq hne hlength hdim]
    exact ⟨_, medianAggregate_eq std hne hlength hdim⟩

end

end Simulation

end ZeroTrustFL
