import Mathlib
import ZeroTrustFL.Lib.FloatSub

/-!
# Exact operations

Sums, products and conversions of integers whose results the format can hold are exact.  A float
that is finite and not the negative zero is determined by its value, and so a sum that is exact at
every step does not depend on the order of the summands.
-/

namespace ZeroTrustFL

open Float.Model (Format UnpackedFloat totalExponent)
open Float.Model.UnpackedFloat

/-! ## Products -/

theorem apply_mul (s₁ s₂ : Sign) : ((s₁ * s₂).apply 1 : ℤ) = s₁.apply 1 * s₂.apply 1 := by
  cases s₁ <;> cases s₂ <;> rfl

variable {spec : Format} {v : ℚ} {x y : Float} {f : UnpackedFloat}

/-- The exponent of a product of mantissas does not exceed the one that it is rounded to. -/
theorem add_le_targetExponent (hmin : spec.minExponent ≤ 0) {m₁ m₂ : ℕ} {e₁ e₂ : ℤ}
    (h₁ : Fits spec m₁ e₁) (h₂ : Fits spec m₂ e₂) (hm₁ : 0 < m₁) (hm₂ : 0 < m₂) :
    e₁ + e₂ ≤ spec.targetExponent (totalExponent (m₁ * m₂) (e₁ + e₂)) := by
  have hmax : spec.targetExponent (totalExponent (m₁ * m₂) (e₁ + e₂)) =
      max (totalExponent (m₁ * m₂) (e₁ + e₂) - spec.mantissaBits) spec.minExponent := rfl
  have hlog (h : 2 ^ spec.mantissaBitsWithoutImplicit ≤ m₁ * m₂) :
      e₁ + e₂ ≤ totalExponent (m₁ * m₂) (e₁ + e₂) - spec.mantissaBits := by
    have hlog2 := (Nat.le_log2 (Nat.mul_pos hm₁ hm₂).ne').2 h
    rw [mantissaBits_eq, totalExponent]
    omega
  rw [hmax]
  rcases h₁.normal with h | h
  · exact le_max_of_le_left (hlog (h.trans (Nat.le_mul_of_pos_right m₁ hm₂)))
  rcases h₂.normal with h' | h'
  · exact le_max_of_le_left (hlog (h'.trans (Nat.le_mul_of_pos_left m₂ hm₁)))
  · exact le_max_of_le_right (by omega)

/-- A product that lies between two numbers of the format. -/
theorem mul_within (h2 : 2 ≤ spec.exponentBits) (hmin : spec.minExponent ≤ 0) {g : UnpackedFloat}
    (hf : f.isFinite = true) (hg : g.isFinite = true) (hcf : Canonical spec f)
    (hcg : Canonical spec g) {lo hi : ℚ} (hlo : Representable spec lo) (hhi : Representable spec hi)
    (hlox : lo ≤ value f * value g) (hxhi : value f * value g ≤ hi) :
    Within spec (mul spec f g) lo hi := by
  rcases f with _ | _ | s₁ | ⟨s₁, m₁, e₁, hm₁⟩ <;> try (cases hf)
  all_goals rcases g with _ | _ | s₂ | ⟨s₂, m₂, e₂, hm₂⟩ <;> try (cases hg)
  · exact ⟨rfl, trivial, hlox.trans_eq (zero_mul _), (zero_mul _).symm.trans_le hxhi⟩
  · exact ⟨rfl, trivial, hlox.trans_eq (zero_mul _), (zero_mul _).symm.trans_le hxhi⟩
  · exact ⟨rfl, trivial, hlox.trans_eq (mul_zero _), (mul_zero _).symm.trans_le hxhi⟩
  · have hproduct : value (.finite s₁ m₁ e₁ hm₁) * value (.finite s₂ m₂ e₂ hm₂) =
        (s₁ * s₂).apply 1 * ((m₁ * m₂ : ℕ) * 2 ^ (e₁ + e₂)) := by
      rw [value_eq, value_eq, apply_mul, zpow_add₀ (by norm_num)]
      push_cast
      ring
    rw [hproduct] at hlox hxhi
    refine roundWithAccuracy_within h2 (s₁ * s₂)
      (add_le_targetExponent hmin hcf hcg hm₁ hm₂) le_rfl ?_ (fun _ => rfl) hlo hhi hlox hxhi
    refine mul_lt_mul_of_pos_right ?_ (by positivity)
    exact_mod_cast Nat.lt_succ_self _

/-! ## Double precision -/

/-- The float is finite and has the value; zero is the positive one. -/
structure HasValue (x : Float) (v : ℚ) : Prop where
  finite : x.isFinite = true
  value : value64 x = v
  positiveZero : x.toModel.unpack ≠ .zero .negative

theorem Within.value_eq (h : Within spec f v v) : ZeroTrustFL.value f = v :=
  le_antisymm h.le_hi h.lo_le

/-- A float that unpacks to an exact result is finite and has its value. -/
theorem Within.exact64 (h : Within .binary64 f v v) (hunpack : x.toModel.unpack = f) :
    x.isFinite = true ∧ value64 x = v := by
  refine ⟨?_, ?_⟩
  · change (Float.Model.unpack _).isFinite = true
    rw [hunpack]
    exact h.finite
  · rw [value64, hunpack]
    exact h.value_eq

theorem unpack64_inj (h : x.toModel.unpack = y.toModel.unpack) : x = y := by
  rcases x with ⟨⟨bits, valid⟩⟩
  rcases y with ⟨⟨bits', valid'⟩⟩
  have hx := pack_unpack (by decide) valid
  have hy := pack_unpack (by decide) valid'
  have hbits : bits = bits' := by
    apply UInt64.toBitVec_inj.1
    rw [← hx, ← hy]
    exact congrArg (pack .binary64) h
  subst hbits
  rfl

/-- The value determines the float. -/
theorem HasValue.unique (hx : HasValue x v) (hy : HasValue y v) : x = y := by
  refine unpack64_inj ?_
  rcases eq_or_zero_of_value_eq hx.finite hy.finite (canonical64 x) (canonical64 y)
    (hx.value.trans hy.value.symm) with
    h | ⟨s, s', hs, hs'⟩
  · exact h
  · cases s
    · exact absurd hs hx.positiveZero
    · cases s'
      · exact absurd hs' hy.positiveZero
      · rw [hs, hs']

theorem normalize_ne_negativeZero (h2 : 2 ≤ spec.exponentBits) {k e : ℤ}
    (h : Representable spec (k * 2 ^ e)) :
    UnpackedFloat.normalize spec k e .positive ≠ .zero .negative := by
  intro hzero
  have hvalue := (normalize_within h2 h h le_rfl le_rfl).value_eq
  rw [hzero] at hvalue
  have hk : k = 0 := by
    rcases mul_eq_zero.1 hvalue.symm with hk | hpow
    · exact_mod_cast hk
    · exact absurd hpow (by positivity)
  subst hk
  cases hzero

theorem add_ne_negativeZero (h2 : 2 ≤ spec.exponentBits) {g : UnpackedFloat}
    (hf : f.isFinite = true) (hg : g.isFinite = true) (h : Representable spec (value f + value g))
    (hne : f ≠ .zero .negative) : add spec f g ≠ .zero .negative := by
  rcases f with _ | _ | s₁ | ⟨s₁, m₁, e₁, hm₁⟩ <;> try (cases hf)
  all_goals rcases g with _ | _ | s₂ | ⟨s₂, m₂, e₂, hm₂⟩ <;> try (cases hg)
  · cases s₁
    · exact absurd rfl hne
    · cases s₂ <;> intro hzero <;> cases hzero
  · intro hzero
    cases hzero
  · intro hzero
    cases hzero
  · rw [← aligned_sum hm₁ hm₂] at h
    exact normalize_ne_negativeZero h2 h

theorem HasValue.zero : HasValue 0 0 := ⟨rfl, rfl, by intro h; cases h⟩

/-- A sum that the format can hold is exact. -/
theorem HasValue.add {w : ℚ} (hx : HasValue x v) (hy : y.isFinite = true) (hw : value64 y = w)
    (h : Representable .binary64 (v + w)) : HasValue (x + y) (v + w) := by
  obtain ⟨hfinite, rfl, hzero⟩ := hx
  subst hw
  have hwithin := add_within (by decide) hfinite hy (canonical64 x)
    (canonical64 y) h h le_rfl le_rfl
  have hunpack : (x + y).toModel.unpack = _ := unpack_pack64 hwithin.canonical
  obtain ⟨hsum, hvalue⟩ := hwithin.exact64 hunpack
  refine ⟨hsum, hvalue, ?_⟩
  rw [hunpack]
  exact add_ne_negativeZero (by decide) hfinite hy h hzero

/-- A product that the format can hold is exact. -/
theorem mul_exact (hx : x.isFinite = true) (hy : y.isFinite = true)
    (h : Representable .binary64 (value64 x * value64 y)) :
    (x * y).isFinite = true ∧ value64 (x * y) = value64 x * value64 y := by
  have hwithin := mul_within (by decide) (by decide) hx hy (canonical64 x)
    (canonical64 y) h h le_rfl le_rfl
  exact hwithin.exact64 (unpack_pack64 hwithin.canonical)

/-! ## Integers -/

/-- An integer that needs at most `p` significant bits. -/
def SignificantBits (p : ℕ) (x : ℚ) : Prop := ∃ m k : ℕ, m < 2 ^ p ∧ |x| = m * 2 ^ k

theorem SignificantBits.representable {x : ℚ} (h : SignificantBits 53 x) (hlt : |x| < 2 ^ 1024) :
    Representable .binary64 x := by
  obtain ⟨m, k, hm, hx⟩ := h
  refine ⟨⟨m, k, hm, ?_, by rw [hx, zpow_natCast]⟩, hlt⟩
  exact le_trans (by decide) (Int.natCast_nonneg k)

theorem significantBits_natCast {n p : ℕ} (h : n ≤ 2 ^ p) (hp : 0 < p) : SignificantBits p n := by
  rcases h.lt_or_eq with hlt | rfl
  · exact ⟨n, 0, hlt, by simp⟩
  · refine ⟨1, p, Nat.one_lt_two_pow hp.ne', by simp⟩

/-- A number of at most 53 bits is converted exactly. -/
theorem hasValue_toFloat {n : UInt64} (h : n.toNat ≤ 2 ^ 53) : HasValue n.toFloat n.toNat := by
  have hrep : Representable .binary64 n.toNat := by
    refine (significantBits_natCast h (by norm_num)).representable ?_
    rw [Nat.abs_cast]
    calc (n.toNat : ℚ) ≤ 2 ^ 53 := by exact_mod_cast h
      _ < 2 ^ 1024 := pow_lt_pow_right₀ (by norm_num) (by norm_num)
  have hcast : (n.toNat : ℚ) = ((n.toNat : ℤ) : ℚ) * 2 ^ (0 : ℤ) := by simp
  rw [hcast] at hrep ⊢
  have hwithin := normalize_within (by decide) hrep hrep le_rfl le_rfl
  have hunpack : n.toFloat.toModel.unpack = UnpackedFloat.normalize .binary64 n.toNat 0 .positive :=
    unpack_pack64 hwithin.canonical
  obtain ⟨hfinite, hvalue⟩ := hwithin.exact64 hunpack
  refine ⟨hfinite, hvalue, ?_⟩
  rw [hunpack]
  exact normalize_ne_negativeZero (by decide) hrep

/-- A single-precision float times a number of at most 24 bits fits double precision. -/
theorem Representable.mul_natCast (h : Representable .binary32 v) {n : ℕ} (hn : n ≤ 2 ^ 24) :
    Representable .binary64 (v * n) := by
  obtain ⟨⟨k, j, hk, hj, hv⟩, hlt⟩ := h
  have habs : |v * n| = |v| * n := by rw [abs_mul, Nat.abs_cast]
  have hkn : k * n < 2 ^ 53 :=
    calc k * n ≤ 2 ^ 24 * 2 ^ 24 := Nat.mul_le_mul hk.le hn
      _ < 2 ^ 53 := by norm_num
  rw [Representable, habs]
  refine ⟨⟨k * n, j, hkn, le_trans (by decide) hj, ?_⟩, ?_⟩
  · rw [hv]
    push_cast
    ring
  · have hnq : (n : ℚ) ≤ 2 ^ 24 := by exact_mod_cast hn
    calc |v| * n ≤ 2 ^ 128 * 2 ^ 24 := mul_le_mul hlt.le hnq (Nat.cast_nonneg n) (by positivity)
      _ = 2 ^ (128 + 24) := (pow_add 2 128 24).symm
      _ < 2 ^ 1024 := pow_lt_pow_right₀ (by norm_num) (by norm_num)

end ZeroTrustFL
