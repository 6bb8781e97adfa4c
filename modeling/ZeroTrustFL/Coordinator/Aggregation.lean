import Mathlib.Data.String.Basic
import Mathlib.Tactic
import ZeroTrustFL.Lib.OrdMap
import ZeroTrustFL.Coordinator.Npy

/-!
# Aggregation of pending updates

The coordinate-wise median and the weighted mean of the pending updates of a round, as
`pkg/coordinator/service.go` computes them: in double precision, over a map whose entries come in
any order.
-/

namespace ZeroTrustFL

/-- An accepted update that waits for its round to close. -/
structure PendingUpdate where
  nodeID : String
  updateID : String
  values : List Float32
  sampleCount : UInt64
deriving DecidableEq

def defaultAggregationMethod : String := "median"

/-- The name of a method in its normal form. -/
def normalizedMethod (value : String) : String :=
  let normalized := toLower (trimSpace value)
  if normalized = "" then defaultAggregationMethod else normalized

def normalizeAggregationMethod (value : String) : Except String String :=
  if normalizedMethod value = "median" ∨ normalizedMethod value = "weighted_mean" then
    .ok (normalizedMethod value)
  else .error ("unsupported aggregation method " ++ quote value ++
    "; expected median or weighted_mean")

/-! ## Median -/

/-- The order of `sort.Float64s`. -/
def float64Less (x y : Float) : Bool := decide (x < y) || (x.isNaN && !y.isNaN)

/-- `sort.Float64s` of values that come in any order. -/
def sortFloat64s (order : IterOrder) (values : List Float) : List Float :=
  (order.arrange values).insertionSort fun x y => float64Less y x = false

/-- The median of a sorted column. -/
def medianOf (values : List Float) : Float :=
  let middle := values.length / 2
  if values.length % 2 = 1 then values.getD middle 0
  else (values.getD (middle - 1) 0 + values.getD middle 0) / 2

/-- The checks on one update while the columns are collected. -/
def checkMedianUpdate (vectorLength : ℕ) (update : PendingUpdate) : Except String Unit :=
  if update.values.length ≠ vectorLength then .error "pending update vector lengths do not match"
  else if update.values.any isNonFinite then .error "pending update contains non-finite values"
  else .ok ()

/-- The values of one coordinate. -/
def column (updates : List PendingUpdate) (index : ℕ) : List Float :=
  updates.map fun update => float64 (update.values.getD index 0)

def aggregateMedianUpdates (order : IterOrder) (updates : OrdMap String PendingUpdate)
    (vectorLength : ℕ) : Except String (List Float32) :=
  if updates.size = 0 ∨ vectorLength = 0 then .error "cannot aggregate an empty update set"
  else
    let listed := order.arrange updates.values
    match listed.forM (checkMedianUpdate vectorLength) with
    | .error e => .error e
    | .ok () => .ok ((List.range vectorLength).map fun index =>
        float32 (medianOf (sortFloat64s order (column listed index))))

/-! ## Weighted mean -/

/-- The running sums of a weighted mean. -/
structure WeightedSums where
  sums : List Float
  totalWeight : Float

/-- Adds one update to the running sums. -/
def addWeightedUpdate (vectorLength : ℕ) (acc : WeightedSums) (update : PendingUpdate) :
    Except String WeightedSums :=
  if update.values.length ≠ vectorLength then .error "pending update vector lengths do not match"
  else
    let weight := update.sampleCount.toFloat
    if weight ≤ 0 then .error "pending update has invalid sample count"
    else .ok
      { sums := List.zipWith (fun sum value => sum + float64 value * weight) acc.sums update.values
        totalWeight := acc.totalWeight + weight }

/-- One coordinate of a weighted mean. -/
def weightedValue (totalWeight sum : Float) : Except String Float32 :=
  let value := sum / totalWeight
  if value.isNaN || value.isInf then .error "aggregated update contains non-finite values"
  else .ok (float32 value)

def aggregateWeightedUpdates (order : IterOrder) (updates : OrdMap String PendingUpdate)
    (vectorLength : ℕ) : Except String (List Float32) :=
  if updates.size = 0 ∨ vectorLength = 0 then .error "cannot aggregate an empty update set"
  else
    match (order.arrange updates.values).foldlM (addWeightedUpdate vectorLength)
      ⟨List.replicate vectorLength 0, 0⟩ with
    | .error e => .error e
    | .ok acc =>
      if acc.totalWeight ≤ 0 ∨ acc.totalWeight.isInf ∨ acc.totalWeight.isNaN then
        .error "aggregate sample weight is invalid"
      else acc.sums.mapM (weightedValue acc.totalWeight)

def aggregatePendingUpdates (order : IterOrder) (updates : OrdMap String PendingUpdate)
    (vectorLength : ℕ) (method : String) : Except String (List Float32) :=
  match normalizeAggregationMethod method with
  | .error e => .error e
  | .ok normalized =>
    if normalized = "median" then aggregateMedianUpdates order updates vectorLength
    else if normalized = "weighted_mean" then aggregateWeightedUpdates order updates vectorLength
    else .error ("unsupported aggregation method " ++ quote normalized)

/-! ## The length of an aggregate -/

theorem length_mapM_weightedValue {totalWeight : Float} {sums : List Float} {values : List Float32}
    (h : sums.mapM (weightedValue totalWeight) = .ok values) : values.length = sums.length := by
  induction sums generalizing values with
  | nil =>
    cases h
    rfl
  | cons x sums ih =>
    rw [List.mapM_cons] at h
    rcases hx : weightedValue totalWeight x with e | v
    · rw [hx] at h
      cases h
    · rcases hs : sums.mapM (weightedValue totalWeight) with e | vs
      · rw [hx, hs] at h
        cases h
      · rw [hx, hs] at h
        cases h
        rw [List.length_cons, List.length_cons, ih hs]

theorem length_foldlM_addWeightedUpdate {n : ℕ} {updates : List PendingUpdate}
    {acc acc' : WeightedSums} (h : updates.foldlM (addWeightedUpdate n) acc = .ok acc')
    (hacc : acc.sums.length = n) : acc'.sums.length = n := by
  induction updates generalizing acc with
  | nil =>
    cases h
    exact hacc
  | cons u updates ih =>
    rw [List.foldlM_cons] at h
    rcases hu : addWeightedUpdate n acc u with e | acc₁
    · rw [hu] at h
      cases h
    · rw [hu] at h
      refine ih h ?_
      simp only [addWeightedUpdate] at hu
      split_ifs at hu with h₁
      cases hu
      simp [hacc, not_not.1 h₁]

theorem length_aggregatePendingUpdates {order : IterOrder} {updates : OrdMap String PendingUpdate}
    {n : ℕ} {method : String} {values : List Float32}
    (h : aggregatePendingUpdates order updates n method = .ok values) : values.length = n := by
  unfold aggregatePendingUpdates at h
  rcases hm : normalizeAggregationMethod method with e | m
  · rw [hm] at h
    cases h
  · rw [hm] at h
    simp only at h
    split_ifs at h with h₁ h₂
    · simp only [aggregateMedianUpdates] at h
      split_ifs at h
      rcases hf : (order.arrange updates.values).forM (checkMedianUpdate n) with e | _
      · rw [hf] at h
        cases h
      · rw [hf] at h
        cases h
        simp
    · unfold aggregateWeightedUpdates at h
      split_ifs at h
      rcases hf : (order.arrange updates.values).foldlM (addWeightedUpdate n)
        ⟨List.replicate n 0, 0⟩ with e | acc
      · rw [hf] at h
        cases h
      · rw [hf] at h
        simp only at h
        split_ifs at h
        rw [length_mapM_weightedValue h]
        exact length_foldlM_addWeightedUpdate hf (by simp)

end ZeroTrustFL
