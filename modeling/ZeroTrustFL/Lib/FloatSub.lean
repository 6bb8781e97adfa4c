import Mathlib
import ZeroTrustFL.Lib.FloatRound

/-!
# Differences of floats

Subtraction rounds, but it does not lose a difference: `x - y` is zero for finite floats only if
their values are equal.  Hence `x - x = x - y` determines `y` up to the sign of zero.
-/

namespace ZeroTrustFL

open Float.Model (Format UnpackedFloat totalExponent)
open Float.Model.UnpackedFloat

section Format

variable {spec : Format}

/-- A positive magnitude on the grid of the format; its exponent may be too large. -/
structure OnGrid (spec : Format) (m : ℕ) (e : ℤ) : Prop where
  pos : 0 < m
  lt : m < 2 ^ spec.mantissaBits
  min_le : spec.minExponent ≤ e
  normal : 2 ^ spec.mantissaBitsWithoutImplicit ≤ m ∨ e = spec.minExponent

variable {e : ℤ} {f g : UnpackedFloat} {s : Sign} {m : ℕ}

theorem unpack_pack_ne_zero (h2 : 2 ≤ spec.exponentBits) (h : OnGrid spec m e) (s' : Sign) :
    unpack spec (pack spec (.finite s m e h.pos)) ≠ .zero s' := by
  by_cases hrange : e + spec.exponentBias + spec.mantissaBitsWithoutImplicit + 1 <
    2 ^ spec.exponentBits
  · have hfits : Fits spec m e := ⟨h.lt, h.min_le, h.normal, hrange⟩
    rw [unpack_pack h2 (show Canonical spec (.finite s m e h.pos) from hfits)]
    simp
  · have hbig : 2 ^ spec.exponentBits ≤
        (e + spec.exponentBias + spec.mantissaBitsWithoutImplicit).toNat + 1 := by
      zify
      have := Int.self_le_toNat (e + spec.exponentBias + spec.mantissaBitsWithoutImplicit)
      omega
    simp [pack, hbig, packedInfinity, unpack_packComponents]

theorem round_onGrid (s : Sign) (hm : 0 < m) (he : spec.minExponent ≤ e) :
    ∃ m' e', ∃ h : OnGrid spec m' e', round spec s m e = .finite s m' e' h.pos := by
  simp only [UnpackedFloat.round, decreaseExponent]
  set d := (e - spec.targetExponent (totalExponent m e)).toNat with hd
  have hval := shiftLeft_mul_zpow m e d
  have hte : e - d ≤ spec.targetExponent (totalExponent (m <<< d) (e - d)) := by
    rw [totalExponent_shiftLeft hm]
    omega
  obtain ⟨n, hn⟩ := Int.le.dest hte
  have hhigh : (m : ℚ) * 2 ^ e < (m <<< d + 1 : ℕ) * 2 ^ (e - d) := by
    rw [← hval]
    refine mul_lt_mul_of_pos_right ?_ (by positivity)
    exact_mod_cast Nat.lt_succ_self _
  obtain ⟨m', e', heq, h₁, h₂, h₃, hbelow, -⟩ :=
    roundWithAccuracy_between spec s rfl hn.symm hval.le hhigh fun _ => rfl
  -- The smallest positive number of the format is not above the rounded magnitude.
  have hunit : Grid spec ((1 : ℕ) * 2 ^ spec.minExponent) :=
    ⟨1, spec.minExponent, Nat.one_lt_two_pow (by rw [mantissaBits_eq]; omega), le_rfl, rfl⟩
  have hle := hbelow _ hunit (by
    refine mul_le_mul ?_ (zpow_le_zpow_right₀ (by norm_num) he) (by positivity) (by positivity)
    exact_mod_cast hm)
  have hpos : m' ≠ 0 := by
    rintro rfl
    rw [Nat.cast_zero, zero_mul, Nat.cast_one, one_mul] at hle
    exact absurd hle (not_le.2 (by positivity))
  exact ⟨m', e', ⟨Nat.pos_of_ne_zero hpos, h₁, h₂, h₃⟩, by rw [heq, dif_neg hpos]⟩

theorem normalize_onGrid {k : ℤ} (hk : k ≠ 0) (he : spec.minExponent ≤ e) (zeroSign : Sign) :
    ∃ s m e', ∃ h : OnGrid spec m e', UnpackedFloat.normalize spec k e zeroSign =
      .finite s m e' h.pos := by
  unfold UnpackedFloat.normalize
  rcases lt_or_gt_of_ne hk with hk | hk
  · rw [compare_lt_iff_lt.2 hk]
    exact ⟨.negative, round_onGrid .negative (by omega) he⟩
  · rw [compare_gt_iff_gt.2 hk]
    exact ⟨.positive, round_onGrid .positive (by omega) he⟩

/-- The difference of two finite floats of a format is zero only if their values are equal. -/
theorem value_eq_of_sub (h2 : 2 ≤ spec.exponentBits) (hf : f.isFinite = true)
    (hg : g.isFinite = true) (hcf : Canonical spec f) (hcg : Canonical spec g)
    (h : unpack spec (pack spec (sub spec f g)) = .zero s) : value f = value g := by
  rcases f with _ | _ | s₁ | ⟨s₁, m₁, e₁, hm₁⟩ <;> try (cases hf)
  all_goals rcases g with _ | _ | s₂ | ⟨s₂, m₂, e₂, hm₂⟩ <;> try (cases hg)
  · rfl
  · exact absurd h (unpack_pack_ne_zero h2 ⟨hm₂, hcg.lt, hcg.min_le, hcg.normal⟩ s)
  · exact absurd h (unpack_pack_ne_zero h2 ⟨hm₁, hcf.lt, hcf.min_le, hcf.normal⟩ s)
  · by_contra hne
    have hk : s₁.apply (m₁ <<< (e₁ - min e₁ e₂).toNat : ℕ) -
        s₂.apply (m₂ <<< (e₂ - min e₁ e₂).toNat : ℕ) ≠ 0 := by
      intro hk
      refine hne ?_
      have h₁ := shiftLeft_mul_zpow m₁ e₁ (e₁ - min e₁ e₂).toNat
      have h₂ := shiftLeft_mul_zpow m₂ e₂ (e₂ - min e₁ e₂).toNat
      rw [show e₁ - ((e₁ - min e₁ e₂).toNat : ℤ) = min e₁ e₂ by omega] at h₁
      rw [show e₂ - ((e₂ - min e₁ e₂).toNat : ℤ) = min e₁ e₂ by omega] at h₂
      have hq := congrArg (fun k : ℤ => (k : ℚ) * 2 ^ min e₁ e₂) (sub_eq_zero.1 hk)
      rw [value_eq, value_eq, ← h₁, ← h₂]
      generalize m₁ <<< (e₁ - min e₁ e₂).toNat = a, m₂ <<< (e₂ - min e₁ e₂).toNat = b at hq
      cases s₁ <;> cases s₂ <;> simpa [Sign.apply] using hq
    have hmin : spec.minExponent ≤ min e₁ e₂ := le_min hcf.min_le hcg.min_le
    obtain ⟨s', m', e', hgrid, heq⟩ := normalize_onGrid hk hmin .positive
    have hsub : sub spec (.finite s₁ m₁ e₁ hm₁) (.finite s₂ m₂ e₂ hm₂) =
      .finite s' m' e' hgrid.pos := heq
    rw [hsub] at h
    exact unpack_pack_ne_zero h2 hgrid s h

/-- Finite floats of a format with the same value are equal or both zero. -/
theorem eq_or_zero_of_value_eq (hf : f.isFinite = true) (hg : g.isFinite = true)
    (hcf : Canonical spec f) (hcg : Canonical spec g) (h : value f = value g) :
    f = g ∨ ∃ s s', f = .zero s ∧ g = .zero s' := by
  have hcmp := compare_eq_compare_value hf hg hcf hcg
  rw [h, compare_eq_iff_eq.2 rfl] at hcmp
  rcases f with _ | _ | s₁ | ⟨s₁, m₁, e₁, hm₁⟩ <;> try (cases hf)
  all_goals rcases g with _ | _ | s₂ | ⟨s₂, m₂, e₂, hm₂⟩ <;> try (cases hg)
  · exact .inr ⟨s₁, s₂, rfl, rfl⟩
  · cases s₂ <;> cases hcmp
  · cases s₁ <;> cases hcmp
  · left
    have hthen : (compare e₁ e₂).then (compare m₁ m₂) = .eq → e₁ = e₂ ∧ m₁ = m₂ := by
      rw [Ordering.then_eq_eq, compare_eq_iff_eq, compare_eq_iff_eq]
      exact id
    cases s₁ <;> cases s₂ <;>
      simp only [UnpackedFloat.compare, Option.some.injEq, Ordering.swap_eq_eq,
        reduceCtorEq] at hcmp
    · obtain ⟨rfl, rfl⟩ := hthen hcmp
      rfl
    · obtain ⟨rfl, rfl⟩ := hthen hcmp
      rfl

/-- What is left of a difference after rounding and packing. -/
def difference (spec : Format) (f g : UnpackedFloat) : UnpackedFloat :=
  unpack spec (pack spec (sub spec f g))

theorem difference_eq {h : UnpackedFloat} (h2 : 2 ≤ spec.exponentBits) (hsub : sub spec f g = h)
    (hc : Canonical spec h) : difference spec f g = h := by
  rw [difference, hsub, unpack_pack h2 hc]

theorem difference_finite_self (h2 : 2 ≤ spec.exponentBits) (hm : 0 < m) :
    difference spec (.finite s m e hm) (.finite s m e hm) = .zero .positive := by
  refine difference_eq h2 ?_ trivial
  simp only [sub, sub_self, UnpackedFloat.normalize]
  rw [compare_eq_iff_eq.2 rfl]

theorem difference_self_eq_iff (h2 : 2 ≤ spec.exponentBits) (hg : g.isFinite = true)
    (hcf : Canonical spec f) (hcg : Canonical spec g) :
    difference spec f f = difference spec f g ↔
      f = g ∨ f.isNaN = true ∨ (f = .zero .positive ∧ g = .zero .negative) := by
  rcases f with s | _ | s | ⟨s, m, e, hm⟩
  · -- An infinity minus itself is not a number, and minus a finite float it is itself.
    have hself : difference spec (.infinity s) (.infinity s) = .notANumber :=
      difference_eq h2 (by cases s <;> rfl) trivial
    have hdiff : difference spec (.infinity s) g = .infinity s :=
      difference_eq h2 (by rcases g with _ | _ | _ | _ <;> first | rfl | cases hg) trivial
    rw [hself, hdiff]
    constructor
    · intro h
      cases h
    · rintro (rfl | h | ⟨h, -⟩)
      · cases hg
      · cases h
      · cases h
  · have hdiff : ∀ g, difference spec .notANumber g = .notANumber := fun g =>
      difference_eq h2 (by cases g <;> rfl) trivial
    rw [hdiff, hdiff]
    exact ⟨fun _ => .inr (.inl rfl), fun _ => rfl⟩
  · have hself : difference spec (.zero s) (.zero s) = .zero .positive :=
      difference_eq h2 (by cases s <;> rfl) trivial
    rw [hself]
    rcases g with _ | _ | s' | ⟨s', m', e', hm'⟩ <;> try (cases hg)
    · cases s <;> cases s'
      · exact ⟨fun _ => .inl rfl, fun _ => hself.symm⟩
      · rw [difference_eq h2 (show sub spec (.zero .negative) (.zero .positive) =
          .zero .negative from rfl) trivial]
        simp [UnpackedFloat.isNaN]
      · rw [difference_eq h2 (show sub spec (.zero .positive) (.zero .negative) =
          .zero .positive from rfl) trivial]
        simp
      · exact ⟨fun _ => .inl rfl, fun _ => hself.symm⟩
    · constructor
      · intro h
        exact absurd h.symm (unpack_pack_ne_zero h2 ⟨hm', hcg.lt, hcg.min_le, hcg.normal⟩ _)
      · rintro (h | h | ⟨-, h⟩) <;> cases h
  · rw [difference_finite_self h2]
    constructor
    · intro h
      have hval := value_eq_of_sub h2 rfl hg hcf hcg h.symm
      rcases eq_or_zero_of_value_eq rfl hg hcf hcg hval with h | ⟨_, _, h, -⟩
      · exact .inl h
      · cases h
    · rintro (rfl | h | ⟨h, -⟩)
      · exact (difference_finite_self h2 hm).symm
      · cases h
      · cases h

end Format

/-! ## Single precision -/

theorem unpack_inj {x y : Float32} : x.toModel.unpack = y.toModel.unpack ↔ x = y := by
  refine ⟨fun h => ?_, fun h => h ▸ rfl⟩
  rcases x with ⟨⟨bits, valid⟩⟩
  rcases y with ⟨⟨bits', valid'⟩⟩
  have hx := pack_unpack (by decide) valid
  have hy := pack_unpack (by decide) valid'
  have hbits : bits = bits' := by
    apply UInt32.toBitVec_inj.1
    rw [← hx, ← hy]
    exact congrArg (pack .binary32) h
  subst hbits
  rfl

theorem unpack_sub (x y : Float32) :
    (x - y).toModel.unpack = difference .binary32 x.toModel.unpack y.toModel.unpack := rfl

/-- A float minus itself is its difference with a finite float only if the two are equal, the first
is not a number, or they are the positive and the negative zero. -/
theorem sub_self_eq_sub_iff {x y : Float32} (hy : y.isFinite = true) :
    x - x = x - y ↔ x = y ∨ x.isNaN = true ∨ (x = 0 ∧ y = -0) := by
  have hzero : (0 : Float32).toModel.unpack = .zero .positive := rfl
  have hnegZero : (-0 : Float32).toModel.unpack = .zero .negative := rfl
  rw [← unpack_inj, ← unpack_inj, ← unpack_inj, ← unpack_inj, unpack_sub, unpack_sub, hzero,
    hnegZero]
  exact difference_self_eq_iff (by decide) hy (canonical32 x) (canonical32 y)

end ZeroTrustFL
