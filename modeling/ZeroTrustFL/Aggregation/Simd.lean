import Mathlib
import ZeroTrustFL.Aggregation.Native

/-!
# Vectorised distances

The distance functions of `cpp/src/simd_distance.cpp`; an array is a function of the index.  The
scalar loop and `squared_distance_avx512` widen the elements before they subtract them, and agree in
exact arithmetic.  `squared_distance_neon` subtracts in single precision, and so its vector loop
sees rounded differences; it is modelled on integers, with a difference rounded to 24 significant
bits and sums that are exact.
-/

namespace ZeroTrustFL

namespace Simd

/-! ## Loops -/

section Loops

variable {σ : Type*}

/-- `for (; i + width <= size; i += width)`; the index and the accumulator at the end. -/
def vectorLoop (width size : ℕ) (step : ℕ → σ → σ) (i : ℕ) (accumulator : σ) : ℕ × σ :=
  if _h : 0 < width ∧ i + width ≤ size then vectorLoop width size step (i + width)
    (step i accumulator)
  else (i, accumulator)
  termination_by size - i

/-- A property that a step keeps holds at the end of the loop, where no full vector is left. -/
theorem vectorLoop_invariant {width size : ℕ} {step : ℕ → σ → σ} {P : ℕ → σ → Prop}
    (hwidth : 0 < width)
    (hstep : ∀ i accumulator, i + width ≤ size → P i accumulator →
      P (i + width) (step i accumulator)) {i : ℕ} {accumulator : σ} (h : P i accumulator) :
    P (vectorLoop width size step i accumulator).1 (vectorLoop width size step i accumulator).2 ∧
      size < (vectorLoop width size step i accumulator).1 + width := by
  fun_induction vectorLoop width size step i accumulator with
  | case1 i accumulator hi ih => exact ih (hstep i accumulator hi.2 h)
  | case2 i accumulator hi => exact ⟨h, by omega⟩

end Loops

section Exact

variable {K : Type*} [CommRing K] (lhs rhs : ℕ → K) (size : ℕ)

/-- `for (; i < size; ++i)` with `sum += delta * delta`. -/
def addSquares (i : ℕ) (sum : K) : K :=
  if i < size then
    let delta := lhs i - rhs i
    addSquares (i + 1) (sum + delta * delta)
  else sum
  termination_by size - i

def squaredDistanceScalar : K := addSquares lhs rhs size 0 0

/-- `_mm512_fmadd_pd` and `vfmaq_f64` with a difference as both factors. -/
def fmaSquares {width : ℕ} (delta accumulator : Fin width → K) (lane : Fin width) : K :=
  delta lane * delta lane + accumulator lane

def squaredDistanceAvx512 : K :=
  let loop := vectorLoop 8 size
    (fun i accumulator => fmaSquares
      (fun lane : Fin 8 => lhs (i + lane) - rhs (i + lane)) accumulator) 0 fun _ => 0
  let sum := (List.ofFn loop.2).foldl (· + ·) 0
  addSquares lhs rhs size loop.1 sum

theorem addSquares_eq (i : ℕ) (sum : K) :
    addSquares lhs rhs size i sum = sum + ∑ j ∈ Finset.Ico i size, (lhs j - rhs j) ^ 2 := by
  fun_induction addSquares lhs rhs size i sum with
  | case1 i sum hi delta ih =>
    rw [ih, Finset.sum_eq_sum_Ico_succ_bot hi, ← add_assoc, sq]
  | case2 i sum hi => rw [Finset.Ico_eq_empty_of_le (not_lt.1 hi), Finset.sum_empty, add_zero]

theorem squaredDistanceScalar_eq :
    squaredDistanceScalar lhs rhs size = ∑ i ∈ Finset.range size, (lhs i - rhs i) ^ 2 := by
  rw [squaredDistanceScalar, addSquares_eq, zero_add, Finset.range_eq_Ico]

theorem sum_fmaSquares {width : ℕ} (delta accumulator : Fin width → K) :
    ∑ lane, fmaSquares delta accumulator lane = ∑ lane, accumulator lane + ∑ lane,
      delta lane ^ 2 := by
  simp only [fmaSquares, Finset.sum_add_distrib, sq]
  rw [add_comm]

theorem sum_lanes (f : ℕ → K) (i width : ℕ) :
    ∑ lane : Fin width, f (i + lane) = ∑ j ∈ Finset.Ico i (i + width), f j := by
  rw [Finset.sum_Ico_eq_sum_range, Nat.add_sub_cancel_left, ← Fin.sum_univ_eq_sum_range]

/-- The vector loop and the loop after it see every coordinate once. -/
theorem squaredDistanceAvx512_eq : squaredDistanceAvx512 lhs rhs size =
    squaredDistanceScalar lhs rhs size := by
  -- The lanes together hold the sum of the squares before the index.
  have hloop := @vectorLoop_invariant _ 8 size
    (fun i accumulator => fmaSquares
      (fun lane : Fin 8 => lhs (i + lane) - rhs (i + lane)) accumulator)
    (fun i accumulator => i ≤ size ∧ ∑ lane, accumulator lane = ∑ j ∈ Finset.Ico 0 i,
      (lhs j - rhs j) ^ 2)
    (by norm_num) (fun i accumulator hi h => ⟨hi, by
      rw [sum_fmaSquares, h.2, sum_lanes fun j => (lhs j - rhs j) ^ 2,
        Finset.sum_Ico_consecutive _ (Nat.zero_le i) (Nat.le_add_right i 8)]⟩)
    0 (fun _ => 0) ⟨Nat.zero_le size, by simp⟩
  rw [squaredDistanceScalar_eq, squaredDistanceAvx512, addSquares_eq, ← List.sum_eq_foldl,
    List.sum_ofFn, hloop.1.2, Finset.sum_Ico_consecutive _ (Nat.zero_le _) hloop.1.1,
    Finset.range_eq_Ico]

end Exact

/-- The distance of Krum is that of the scalar loop. -/
theorem squaredDistance_eq_scalar {lhs rhs : List ℚ} (h : lhs.length = rhs.length) :
    squaredDistance lhs rhs =
      squaredDistanceScalar (fun i => lhs.getD i 0) (fun i => rhs.getD i 0) lhs.length := by
  rw [squaredDistanceScalar_eq]
  induction lhs generalizing rhs with
  | nil => rfl
  | cons x lhs ih =>
    rcases rhs with _ | ⟨y, rhs⟩
    · cases h
    rw [List.length_cons, Finset.sum_range_succ', squaredDistance, List.zipWith_cons_cons,
      List.sum_cons, ← squaredDistance, ih (Nat.succ.inj h), add_comm, sq]
    rfl

/-! ## Rounding to significant bits -/

/-- A number divided by a power of two and rounded to an integer, to the even one of two that are as
near. -/
def roundHalfEven (n k : ℕ) : ℕ :=
  let q := n / 2 ^ k
  let r := n % 2 ^ k
  if 2 * r < 2 ^ k ∨ 2 * r = 2 ^ k ∧ q % 2 = 0 then q else q + 1

/-- A number rounded to `precision` significant bits. -/
def roundNat (precision n : ℕ) : ℕ :=
  let k := n.size - precision
  roundHalfEven n k * 2 ^ k

def roundInt (precision : ℕ) (z : ℤ) : ℤ := z.sign * roundNat precision z.natAbs

theorem roundNat_of_lt {precision n : ℕ} (h : n < 2 ^ precision) : roundNat precision n = n := by
  have hsize : n.size - precision = 0 := Nat.sub_eq_zero_of_le (Nat.size_le.2 h)
  simp [roundNat, hsize, roundHalfEven, Nat.mod_one]

/-- With one bit too many, an odd number goes to the neighbour that is a multiple of four. -/
theorem roundNat_24 {n : ℕ} (h : n ≤ 2 ^ 25) :
    roundNat 24 n = if 2 ^ 24 < n ∧ n % 2 = 1 then if n % 4 = 3 then n + 1 else n - 1 else n := by
  rcases lt_or_ge n (2 ^ 24) with hlt | hge
  · rw [roundNat_of_lt hlt, if_neg (by omega)]
  rcases h.lt_or_eq with hlt | rfl
  · have hsize : n.size = 25 := le_antisymm (Nat.size_le.2 hlt) (Nat.lt_size.2 hge)
    simp only [roundNat, hsize, roundHalfEven]
    split_ifs <;> omega
  · have hsize : (2 ^ 25).size = 26 := Nat.size_pow
    rw [roundNat, hsize, if_neg (by norm_num)]
    norm_num [roundHalfEven]

/-! ## The distance on ARM -/

/-- The body of the vector loop: the differences of four elements are subtracted as single-precision
floats, and the two accumulators hold two lanes each. -/
def neonStep (lhs rhs : ℕ → ℤ) (i : ℕ) (accumulator : (Fin 2 → ℤ) × (Fin 2 → ℤ)) :
    (Fin 2 → ℤ) × (Fin 2 → ℤ) :=
  let delta (lane : ℕ) : ℤ := roundInt 24 (lhs (i + lane) - rhs (i + lane))
  (fmaSquares (fun lane => delta lane) accumulator.1,
    fmaSquares (fun lane => delta (2 + lane)) accumulator.2)

def squaredDistanceNeon (lhs rhs : ℕ → ℤ) (size : ℕ) : ℤ :=
  let loop := vectorLoop 4 size (neonStep lhs rhs) 0 (fun _ => 0, fun _ => 0)
  let sum := loop.2.1 0 + loop.2.1 1 + loop.2.2 0 + loop.2.2 1
  addSquares lhs rhs size loop.1 sum

/-- The lanes together hold the squares of the rounded differences before the index. -/
structure NeonSum (lhs rhs : ℕ → ℤ) (size i : ℕ) (accumulator : (Fin 2 → ℤ) × (Fin 2 → ℤ)) :
    Prop where
  aligned : i % 4 = 0
  le : i ≤ size
  sum : accumulator.1 0 + accumulator.1 1 + accumulator.2 0 + accumulator.2 1 =
    ∑ j ∈ Finset.range i, roundInt 24 (lhs j - rhs j) ^ 2

theorem NeonSum.step {lhs rhs : ℕ → ℤ} {size i : ℕ} {accumulator : (Fin 2 → ℤ) × (Fin 2 → ℤ)}
    (h : NeonSum lhs rhs size i accumulator) (hi : i + 4 ≤ size) :
    NeonSum lhs rhs size (i + 4) (neonStep lhs rhs i accumulator) := by
  have haligned := h.aligned
  refine ⟨by omega, hi, ?_⟩
  simp only [neonStep, Finset.sum_range_succ, ← h.sum, fmaSquares, Fin.val_zero, Fin.val_one,
    Nat.add_zero]
  ring

/-- The squares of the rounded differences in the vector loop, and of the differences behind it. -/
theorem squaredDistanceNeon_eq (lhs rhs : ℕ → ℤ) (size : ℕ) :
    squaredDistanceNeon lhs rhs size = ∑ i ∈ Finset.range (size / 4 * 4),
      roundInt 24 (lhs i - rhs i) ^ 2 +
      ∑ i ∈ Finset.Ico (size / 4 * 4) size, (lhs i - rhs i) ^ 2 := by
  have hstart : NeonSum lhs rhs size 0 (fun _ => 0, fun _ => 0) := ⟨rfl, Nat.zero_le size, by simp⟩
  have hloop := vectorLoop_invariant (by norm_num)
    (fun i accumulator hi h => NeonSum.step h hi) hstart
  rw [squaredDistanceNeon, addSquares_eq]
  generalize vectorLoop 4 size (neonStep lhs rhs) 0 (fun _ => 0, fun _ => 0) = loop at hloop ⊢
  obtain ⟨⟨haligned, hle, hsum⟩, hlt⟩ := hloop
  have hindex : loop.1 = size / 4 * 4 := by omega
  rw [hsum, hindex]

/-- By how much the square of the rounded difference exceeds that of the difference. -/
def correction (d : ℤ) : ℤ :=
  if 2 ^ 24 < d.natAbs ∧ d.natAbs % 2 = 1 then
    if d.natAbs % 4 = 3 then 2 * d.natAbs + 1 else 1 - 2 * d.natAbs
  else 0

theorem sq_roundInt_24 {d : ℤ} (h : |d| ≤ 2 ^ 25) : roundInt 24 d ^ 2 = d ^ 2 + correction d := by
  have hnat : d.natAbs ≤ 2 ^ 25 := by
    rw [abs_le] at h
    omega
  have hsq : d ^ 2 = (d.natAbs : ℤ) ^ 2 := by rw [Int.natCast_natAbs, sq_abs]
  rcases eq_or_ne d 0 with rfl | hne
  · rfl
  have hsign : d.sign ^ 2 = 1 := by
    rcases lt_or_gt_of_ne hne with hneg | hpos
    · rw [Int.sign_eq_neg_one_of_neg hneg, neg_one_sq]
    · rw [Int.sign_eq_one_of_pos hpos, one_pow]
  rw [roundInt, mul_pow, hsign, one_mul, hsq, correction, roundNat_24 hnat]
  have hpos : 0 < d.natAbs := Int.natAbs_pos.2 hne
  split_ifs with h₁ h₂
  · push_cast
    ring
  · rw [Nat.cast_pred hpos]
    ring
  · ring

/-- Integer-valued arrays of single-precision floats whose distance is exact in double precision. -/
structure ExactRange (lhs rhs : ℕ → ℤ) (size : ℕ) : Prop where
  lhs_le : ∀ i < size, |lhs i| ≤ 2 ^ 24
  rhs_le : ∀ i < size, |rhs i| ≤ 2 ^ 24
  sum_lt : ∑ i ∈ Finset.range size, (lhs i - rhs i) ^ 2 < 2 ^ 53

/-- The two distances agree exactly when the corrections in the vector loop cancel; only odd
differences above `2 ^ 24` have one. -/
theorem squaredDistanceNeon_eq_scalar_iff {lhs rhs : ℕ → ℤ} {size : ℕ}
    (h : ExactRange lhs rhs size) :
    squaredDistanceNeon lhs rhs size = squaredDistanceScalar lhs rhs size ↔
      ∑ i ∈ Finset.range (size / 4 * 4), correction (lhs i - rhs i) = 0 := by
  have hrounded : ∑ i ∈ Finset.range (size / 4 * 4), roundInt 24 (lhs i - rhs i) ^ 2 =
      ∑ i ∈ Finset.range (size / 4 * 4), ((lhs i - rhs i) ^ 2 + correction (lhs i - rhs i)) := by
    refine Finset.sum_congr rfl fun i hi => sq_roundInt_24 ?_
    have hi : i < size := by
      have := Finset.mem_range.1 hi
      omega
    have hl := h.lhs_le i hi
    have hr := h.rhs_le i hi
    rw [abs_le] at hl hr ⊢
    omega
  rw [squaredDistanceNeon_eq, squaredDistanceScalar_eq, hrounded, Finset.sum_add_distrib,
    ← Finset.sum_range_add_sum_Ico _ (Nat.div_mul_le_self size 4)]
  constructor
  · intro heq
    linarith
  · intro hzero
    linarith

/-- An array with one element that is not zero. -/
def single (position : ℕ) (value : ℤ) (i : ℕ) : ℤ := if i = position then value else 0

theorem exactRange_single : ExactRange (single 4 (2 ^ 24)) (single 4 (-1)) 5 :=
  ⟨by decide, by decide, by decide⟩

/-- Behind the vector loop a difference of `2 ^ 24 + 1` is exact. -/
theorem squaredDistanceNeon_eq_scalar_single :
    squaredDistanceNeon (single 4 (2 ^ 24)) (single 4 (-1)) 5 =
      squaredDistanceScalar (single 4 (2 ^ 24)) (single 4 (-1)) 5 :=
  (squaredDistanceNeon_eq_scalar_iff exactRange_single).2 (by decide)

/-- In the vector loop it is rounded to `2 ^ 24`. -/
theorem squaredDistanceNeon_ne_scalar :
    ExactRange (single 0 (2 ^ 24)) (single 0 (-1)) 4 ∧
    squaredDistanceNeon (single 0 (2 ^ 24)) (single 0 (-1)) 4 = 2 ^ 48 ∧
    squaredDistanceScalar (single 0 (2 ^ 24)) (single 0 (-1)) 4 = 2 ^ 48 + 2 ^ 25 + 1 ∧
    squaredDistanceNeon (single 0 (2 ^ 24)) (single 0 (-1)) 4 ≠
      squaredDistanceScalar (single 0 (2 ^ 24)) (single 0 (-1)) 4 := by
  have hneon : squaredDistanceNeon (single 0 (2 ^ 24)) (single 0 (-1)) 4 = 2 ^ 48 := by
    rw [squaredDistanceNeon_eq]
    decide
  have hscalar : squaredDistanceScalar (single 0 (2 ^ 24)) (single 0 (-1)) 4 =
      2 ^ 48 + 2 ^ 25 + 1 := by
    rw [squaredDistanceScalar_eq]
    decide
  refine ⟨⟨by decide, by decide, by decide⟩, hneon, hscalar, ?_⟩
  rw [hneon, hscalar]
  decide

end Simd

end ZeroTrustFL
