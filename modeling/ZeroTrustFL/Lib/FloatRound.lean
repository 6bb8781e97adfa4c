import Mathlib
import ZeroTrustFL.Lib.Float

/-!
# Rounding

Rounding passes over no number of the format: a value between two numbers of the format is rounded
to a number between them.  From this follow the facts on sums and halves that a median needs.
-/

namespace ZeroTrustFL

open Float.Model (Format UnpackedFloat totalExponent)
open Float.Model.UnpackedFloat

/-! ## Shifting and rounding a mantissa -/

theorem shiftRight_succ (em : ExtendedMantissa) (n : ℕ) :
    em >>> (n + 1) = (em >>> n).shiftRightOne := rfl

theorem mantissa_shiftRight (em : ExtendedMantissa) (n : ℕ) :
    (em >>> n).mantissa = em.mantissa / 2 ^ n := by
  induction n with
  | zero => simp; rfl
  | succ n ih =>
    rw [shiftRight_succ, ExtendedMantissa.shiftRightOne, ih, Nat.div_div_eq_div_mul, pow_succ]

theorem shiftRight_of_dvd {m n : ℕ} (h : 2 ^ n ∣ m) :
    ExtendedMantissa.ofMantissaAndAccuracy m .exact >>> n = ⟨m / 2 ^ n, false, false⟩ := by
  induction n with
  | zero => simp; rfl
  | succ n ih =>
    have hn := ih (dvd_trans (pow_dvd_pow 2 n.le_succ) h)
    rw [shiftRight_succ, hn, ExtendedMantissa.shiftRightOne, Nat.div_div_eq_div_mul, ← pow_succ]
    have : m / 2 ^ n % 2 = 0 := by
      obtain ⟨k, rfl⟩ := h
      rw [pow_succ, mul_assoc, Nat.mul_div_cancel_left _ (by positivity)]
      simp
    simp [this]

theorem roundedMantissa_eq_or (em : ExtendedMantissa) :
    em.roundedMantissa = em.mantissa ∨ em.roundedMantissa = em.mantissa + 1 := by
  rcases em with ⟨m, _ | _, _ | _⟩ <;>
    simp only [ExtendedMantissa.roundedMantissa, ExtendedMantissa.accuracy,
      Accuracy.roundToNearestEven]
  · exact .inl trivial
  · exact .inl trivial
  · omega
  · exact .inr trivial

theorem mantissaBits_eq (spec : Format) :
    spec.mantissaBits = spec.mantissaBitsWithoutImplicit + 1 :=
  Nat.add_comm _ _

section Target

variable {spec : Format} {m n : ℕ} {e t : ℤ}

theorem div_two_pow_lt (ht : spec.targetExponent (totalExponent m e) = t) (hn : t = e + n) :
    m / 2 ^ n < 2 ^ spec.mantissaBits := by
  have hle : totalExponent m e - spec.mantissaBits ≤ t := ht ▸ le_max_left _ _
  have hlog : m.log2 + 1 ≤ spec.mantissaBits + n := by
    simp only [totalExponent] at hle
    omega
  rw [Nat.div_lt_iff_lt_mul (by positivity), ← pow_add]
  exact lt_of_lt_of_le Nat.lt_log2_self (Nat.pow_le_pow_right (by omega) hlog)

theorem le_div_two_pow (ht : spec.targetExponent (totalExponent m e) = t) (hn : t = e + n) :
    2 ^ spec.mantissaBitsWithoutImplicit ≤ m / 2 ^ n ∨ t = spec.minExponent := by
  have hbits := mantissaBits_eq spec
  rcases max_choice (totalExponent m e - spec.mantissaBits) spec.minExponent with hmax | hmax
  · left
    rw [Format.targetExponent, hmax] at ht
    simp only [totalExponent] at ht
    have hlog : m.log2 = spec.mantissaBitsWithoutImplicit + n := by omega
    have hm : m ≠ 0 := by
      rintro rfl
      have := spec.hm
      simp at hlog
      omega
    rw [Nat.le_div_iff_mul_le (by positivity), ← pow_add, ← hlog]
    exact Nat.log2_self_le hm
  · exact .inr (by rw [← ht, Format.targetExponent, hmax])

end Target

variable {spec : Format} {m m₁ m₂ : ℕ} {e t e₁ e₂ : ℤ} {f : UnpackedFloat} {lo hi : ℚ} {x : Float}
  {acc : Accuracy} {b : UInt32}

theorem shiftToTargetExponent_of_lt {r : ℕ} (hr : r < 2 ^ spec.mantissaBits)
    (ht : spec.minExponent ≤ t) :
    shiftToTargetExponent spec r t .exact = (⟨r, false, false⟩, t) := by
  have hlog : r.log2 + 1 ≤ spec.mantissaBits := by
    rcases Nat.eq_zero_or_pos r with rfl | hpos
    · rw [mantissaBits_eq]
      simp
    · exact (Nat.log2_lt hpos.ne').2 hr
  have htarget : spec.targetExponent (totalExponent r t) ≤ t := by
    refine max_le ?_ ht
    simp only [totalExponent]
    omega
  have hshift : (spec.targetExponent (totalExponent r t) - t).toNat = 0 := by omega
  simp only [shiftToTargetExponent, shiftToExponent, hshift]
  simp
  rfl

theorem shiftToTargetExponent_of_eq (ht : spec.minExponent ≤ t) :
    shiftToTargetExponent spec (2 ^ spec.mantissaBits) t .exact =
      (⟨2 ^ spec.mantissaBitsWithoutImplicit, false, false⟩, t + 1) := by
  have htarget : spec.targetExponent (totalExponent (2 ^ spec.mantissaBits) t) = t + 1 := by
    simp only [Format.targetExponent, totalExponent, Nat.log2_two_pow]
    omega
  have hshift : (spec.targetExponent (totalExponent (2 ^ spec.mantissaBits) t) - t).toNat = 1 := by
    omega
  have hdvd : 2 ^ 1 ∣ 2 ^ spec.mantissaBits := pow_dvd_pow 2 (by rw [mantissaBits_eq]; omega)
  simp only [shiftToTargetExponent, shiftToExponent, hshift, shiftRight_of_dvd hdvd]
  rw [mantissaBits_eq, pow_succ, pow_one, Nat.mul_div_cancel _ (by omega)]
  rfl

/-- What rounding makes of a mantissa and an exponent that do not lie above the target: the grid
point below or the one above, and the point itself when it lies on the grid. -/
theorem roundWithAccuracy_eq (spec : Format) (s : Sign) (m : ℕ) (e : ℤ) (acc : Accuracy) {n : ℕ}
    (ht : spec.targetExponent (totalExponent m e) = t) (hn : t = e + n) :
    ∃ r m' e', (r = m / 2 ^ n ∨ r = m / 2 ^ n + 1) ∧ (acc = .exact → 2 ^ n ∣ m → r = m / 2 ^ n) ∧
      roundWithAccuracy spec s m e acc =
        (if h : m' = 0 then .zero s else .finite s m' e' (Nat.pos_of_ne_zero h)) ∧
      (m' : ℚ) * 2 ^ e' = r * 2 ^ t ∧ m' < 2 ^ spec.mantissaBits ∧ spec.minExponent ≤ e' ∧
      (2 ^ spec.mantissaBitsWithoutImplicit ≤ m' ∨ e' = spec.minExponent) := by
  have hmin : spec.minExponent ≤ t := ht ▸ le_max_right _ _
  have hlt := div_two_pow_lt ht hn
  have hge := le_div_two_pow ht hn
  have hshift : shiftToTargetExponent spec m e acc =
      (ExtendedMantissa.ofMantissaAndAccuracy m acc >>> n, t) := by
    have hn' : (t - e).toNat = n := by omega
    simp only [shiftToTargetExponent, shiftToExponent, ht, hn', ← hn]
  have hmant : (ExtendedMantissa.ofMantissaAndAccuracy m acc >>> n).mantissa = m / 2 ^ n := by
    rw [mantissa_shiftRight]
    rcases acc with _ | _ | _ | _ <;> rfl
  have hr := roundedMantissa_eq_or (ExtendedMantissa.ofMantissaAndAccuracy m acc >>> n)
  rw [hmant] at hr
  have hexact : acc = .exact → 2 ^ n ∣ m →
      (ExtendedMantissa.ofMantissaAndAccuracy m acc >>> n).roundedMantissa = m / 2 ^ n := by
    rintro rfl hdvd
    rw [shiftRight_of_dvd hdvd]
    rfl
  generalize hrr : (ExtendedMantissa.ofMantissaAndAccuracy m acc >>> n).roundedMantissa =
    r at hr hexact
  rcases Nat.lt_or_ge r (2 ^ spec.mantissaBits) with hr' | hr'
  · refine ⟨r, r, t, hr, hexact, ?_, rfl, hr', hmin, ?_⟩
    · simp only [roundWithAccuracy, hshift, hrr, shiftToTargetExponent_of_lt hr' hmin]
    · exact hge.imp_left fun h => by omega
  · obtain rfl : r = 2 ^ spec.mantissaBits := by omega
    refine ⟨2 ^ spec.mantissaBits, 2 ^ spec.mantissaBitsWithoutImplicit, t + 1, hr, hexact,
      ?_, ?_, ?_, by omega, .inl le_rfl⟩
    · simp only [roundWithAccuracy, hshift, hrr, shiftToTargetExponent_of_eq hmin]
    · rw [mantissaBits_eq, zpow_add₀ (by norm_num), pow_succ]
      push_cast
      ring
    · rw [mantissaBits_eq]
      exact Nat.pow_lt_pow_right (by omega) (by omega)

/-! ## Values -/

/-- The rational number a float stands for; not meaningful for infinities and NaN. -/
def value : UnpackedFloat → ℚ
  | .finite s m e _ => s.apply m * 2 ^ e
  | _ => 0

/-- The non-negative numbers that a format can hold, apart from the bound on the exponent. -/
def Grid (spec : Format) (z : ℚ) : Prop :=
  ∃ (k : ℕ) (j : ℤ), k < 2 ^ spec.mantissaBits ∧ spec.minExponent ≤ j ∧ z = k * 2 ^ j

/-- The numbers that a format can hold. -/
def Representable (spec : Format) (v : ℚ) : Prop :=
  Grid spec |v| ∧ |v| < 2 ^ (spec.exponentBias + 1)

/-- Between two neighbouring points of the target grid there is no number of the format. -/
theorem Grid.le_of_lt {z : ℚ} (hz : Grid spec z) {q : ℕ}
    (hq : 2 ^ spec.mantissaBitsWithoutImplicit ≤ q ∨ t = spec.minExponent)
    (h : z < (q + 1 : ℕ) * 2 ^ t) : z ≤ q * 2 ^ t := by
  obtain ⟨k, j, hk, hj, rfl⟩ := hz
  have h2 : (2 : ℚ) ≠ 0 := by norm_num
  by_cases hjt : t ≤ j
  · obtain ⟨d, rfl⟩ := Int.le.dest hjt
    have hpow : (2 : ℚ) ^ (t + (d : ℤ)) = 2 ^ d * 2 ^ t := by
      rw [zpow_add₀ h2, zpow_natCast, mul_comm]
    rw [hpow, ← mul_assoc] at h ⊢
    have hlt := lt_of_mul_lt_mul_right h (by positivity)
    have hnat : k * 2 ^ d < q + 1 := by exact_mod_cast hlt
    refine mul_le_mul_of_nonneg_right ?_ (by positivity)
    exact_mod_cast Nat.lt_succ_iff.1 hnat
  · have hq' : 2 ^ spec.mantissaBitsWithoutImplicit ≤ q := hq.resolve_right (by omega)
    calc (k : ℚ) * 2 ^ j ≤ 2 ^ spec.mantissaBits * 2 ^ (t - 1) := by
          refine mul_le_mul ?_ ?_ (by positivity) (by positivity)
          · exact_mod_cast hk.le
          · exact zpow_le_zpow_right₀ (by norm_num) (by omega)
      _ = 2 ^ spec.mantissaBitsWithoutImplicit * 2 ^ t := by
          rw [mantissaBits_eq, pow_succ, zpow_sub₀ h2]
          ring
      _ ≤ q * 2 ^ t := by
          refine mul_le_mul_of_nonneg_right ?_ (by positivity)
          exact_mod_cast hq'

/-- Rounding the magnitude `x`, of which `m`, `e` and the accuracy are known, passes over no number
of the format. -/
theorem roundWithAccuracy_between (spec : Format) (s : Sign) {n : ℕ}
    (ht : spec.targetExponent (totalExponent m e) = t) (hn : t = e + n) {x : ℚ}
    (hlow : m * 2 ^ e ≤ x) (hhigh : x < (m + 1 : ℕ) * 2 ^ e) (hacc : x = m * 2 ^ e → acc = .exact) :
    ∃ (m' : ℕ) (e' : ℤ), roundWithAccuracy spec s m e acc =
        (if h : m' = 0 then .zero s else .finite s m' e' (Nat.pos_of_ne_zero h)) ∧
      m' < 2 ^ spec.mantissaBits ∧ spec.minExponent ≤ e' ∧
      (2 ^ spec.mantissaBitsWithoutImplicit ≤ m' ∨ e' = spec.minExponent) ∧
      (∀ z, Grid spec z → z ≤ x → z ≤ m' * 2 ^ e') ∧ ∀ z, Grid spec z → x ≤ z →
        m' * 2 ^ e' ≤ z := by
  obtain ⟨r, m', e', hr, hexact, heq, hval, h₁, h₂, h₃⟩ := roundWithAccuracy_eq spec s m e acc ht hn
  have hq := le_div_two_pow ht hn
  have hpow : (2 : ℚ) ^ t = 2 ^ n * 2 ^ e := by
    rw [hn, zpow_add₀ (by norm_num), zpow_natCast, mul_comm]
  have hdiv := Nat.div_add_mod m (2 ^ n)
  have hmod := Nat.mod_lt m (show 0 < 2 ^ n by positivity)
  have hbelow : ((m / 2 ^ n : ℕ) : ℚ) * 2 ^ t ≤ m * 2 ^ e := by
    rw [hpow, ← mul_assoc]
    refine mul_le_mul_of_nonneg_right ?_ (by positivity)
    exact_mod_cast Nat.div_mul_le_self m (2 ^ n)
  have habove : x < (m / 2 ^ n + 1 : ℕ) * 2 ^ t := by
    refine lt_of_lt_of_le hhigh ?_
    rw [hpow, ← mul_assoc]
    refine mul_le_mul_of_nonneg_right ?_ (by positivity)
    have : m + 1 ≤ (m / 2 ^ n + 1) * 2 ^ n := by
      rw [add_mul, one_mul, mul_comm]
      omega
    exact_mod_cast this
  refine ⟨m', e', heq, h₁, h₂, h₃, fun z hz hzx => ?_, fun z hz hxz => ?_⟩
  · rw [hval]
    refine le_trans (hz.le_of_lt hq (lt_of_le_of_lt hzx habove)) ?_
    refine mul_le_mul_of_nonneg_right ?_ (by positivity)
    exact_mod_cast (show m / 2 ^ n ≤ r by omega)
  · rw [hval]
    rcases hr with rfl | rfl
    · exact le_trans hbelow (le_trans hlow hxz)
    · -- The point above was chosen, so `x` does not lie on the grid.
      by_contra hlt
      have hz' := hz.le_of_lt hq (not_le.1 hlt)
      have hxe : x = m * 2 ^ e := le_antisymm (le_trans hxz (le_trans hz' hbelow)) hlow
      have hme : ((m / 2 ^ n : ℕ) : ℚ) * 2 ^ t = m * 2 ^ e :=
        le_antisymm hbelow (le_trans hlow (le_trans hxz hz'))
      have hdvd : 2 ^ n ∣ m := by
        rw [hpow, ← mul_assoc] at hme
        have := mul_right_cancel₀ (by positivity) hme
        exact ⟨m / 2 ^ n, by rw [mul_comm]; exact_mod_cast this.symm⟩
      have := hexact (hacc hxe) hdvd
      omega

/-! ## Rounded values stay between numbers of the format -/

/-- A finite float of a format whose value lies between two numbers. -/
structure Within (spec : Format) (f : UnpackedFloat) (lo hi : ℚ) : Prop where
  finite : f.isFinite = true
  canonical : Canonical spec f
  lo_le : lo ≤ value f
  le_hi : value f ≤ hi

/-- A float below the largest power of two of the format fits its range of exponents. -/
theorem fits_of_lt (h2 : 2 ≤ spec.exponentBits) (hlt : m < 2 ^ spec.mantissaBits)
    (hmin : spec.minExponent ≤ e)
    (hnormal : 2 ^ spec.mantissaBitsWithoutImplicit ≤ m ∨ e = spec.minExponent)
    (hbound : (m : ℚ) * 2 ^ e < 2 ^ (spec.exponentBias + 1)) : Fits spec m e := by
  refine ⟨hlt, hmin, hnormal, ?_⟩
  have hB := two_le_two_pow h2
  have hE := two_pow_exponentBits spec
  have hbias := cast_exponentBias spec
  have hme := minExponent_eq spec
  rcases hnormal with hm | rfl
  · have hpow : (2 : ℚ) ^ ((spec.mantissaBitsWithoutImplicit : ℤ) + e) <
        2 ^ ((spec.exponentBias + 1 : ℕ) : ℤ) := by
      rw [zpow_add₀ (by norm_num), zpow_natCast, zpow_natCast]
      refine lt_of_le_of_lt (mul_le_mul_of_nonneg_right ?_ (by positivity)) hbound
      exact_mod_cast hm
    have hexp := (zpow_lt_zpow_iff_right₀ (by norm_num : (1 : ℚ) < 2)).1 hpow
    push_cast at hexp
    omega
  · omega

/-- Rounding a value between two numbers of the format gives a float between them. -/
theorem roundWithAccuracy_within (h2 : 2 ≤ spec.exponentBits) (s : Sign)
    (hte : e ≤ spec.targetExponent (totalExponent m e)) {x : ℚ} (hlow : m * 2 ^ e ≤ x)
    (hhigh : x < (m + 1 : ℕ) * 2 ^ e) (hacc : x = m * 2 ^ e → acc = .exact)
    (hlo : Representable spec lo) (hhi : Representable spec hi) (hlox : lo ≤ s.apply 1 * x)
    (hxhi : s.apply 1 * x ≤ hi) : Within spec (roundWithAccuracy spec s m e acc) lo hi := by
  obtain ⟨n, hn⟩ := Int.le.dest hte
  obtain ⟨m', e', heq, h₁, h₂, h₃, hbelow, habove⟩ :=
    roundWithAccuracy_between spec s rfl hn.symm hlow hhigh hacc
  have hx : 0 ≤ x := le_trans (by positivity) hlow
  have hy : (0 : ℚ) ≤ m' * 2 ^ e' := by positivity
  rw [heq]
  have key : (lo ≤ s.apply 1 * (m' * 2 ^ e') ∧ s.apply 1 * (m' * 2 ^ e') ≤ hi) ∧
      (m' : ℚ) * 2 ^ e' < 2 ^ (spec.exponentBias + 1) := by
    cases s with
    | positive =>
      simp only [Sign.apply, Int.cast_one, one_mul] at hlox hxhi ⊢
      have hle := habove |hi| hhi.1 (le_trans hxhi (le_abs_self hi))
      refine ⟨⟨?_, ?_⟩, lt_of_le_of_lt hle hhi.2⟩
      · rcases le_total lo 0 with h | h
        · exact le_trans h hy
        · rw [← abs_of_nonneg h]
          exact hbelow _ hlo.1 (by rwa [abs_of_nonneg h])
      · rwa [abs_of_nonneg (le_trans hx hxhi)] at hle
    | negative =>
      simp only [Sign.apply, Int.cast_neg, Int.cast_one, neg_mul, one_mul] at hlox hxhi ⊢
      have hle := habove |lo| hlo.1 (le_trans (le_neg_of_le_neg hlox) (neg_le_abs lo))
      refine ⟨⟨?_, ?_⟩, lt_of_le_of_lt hle hlo.2⟩
      · have hlo0 : lo ≤ 0 := le_trans hlox (neg_nonpos.2 hx)
        rw [abs_of_nonpos hlo0] at hle
        linarith
      · rcases le_total hi 0 with h | h
        · have := hbelow |hi| hhi.1 (by rw [abs_of_nonpos h]; linarith)
          rw [abs_of_nonpos h] at this
          linarith
        · linarith
  obtain ⟨hval, hbound⟩ := key
  split_ifs with h0
  · subst h0
    simp only [Nat.cast_zero, zero_mul, mul_zero] at hval
    exact ⟨rfl, trivial, hval.1, hval.2⟩
  · have hv : value (.finite s m' e' (Nat.pos_of_ne_zero h0)) = s.apply 1 * (m' * 2 ^ e') := by
      cases s <;> simp [value, Sign.apply]
    refine ⟨rfl, fits_of_lt h2 h₁ h₂ h₃ hbound, ?_, ?_⟩
    · rw [hv]
      exact hval.1
    · rw [hv]
      exact hval.2

theorem totalExponent_shiftLeft (hm : 0 < m) (e : ℤ) (d : ℕ) :
    totalExponent (m <<< d) (e - d) = totalExponent m e := by
  have hlog : (m <<< d).log2 = m.log2 + d := by
    have h₁ := Nat.log2_self_le hm.ne'
    have h₂ := Nat.lt_log2_self (n := m)
    rw [Nat.shiftLeft_eq, Nat.log2_eq_iff (by positivity), add_right_comm, pow_add, pow_add]
    exact ⟨Nat.mul_le_mul_right _ h₁, Nat.mul_lt_mul_of_pos_right h₂ (by positivity)⟩
  simp only [totalExponent, hlog]
  push_cast
  ring

theorem shiftLeft_mul_zpow (m : ℕ) (e : ℤ) (d : ℕ) :
    ((m <<< d : ℕ) : ℚ) * 2 ^ (e - d) = m * 2 ^ e := by
  rw [Nat.shiftLeft_eq, zpow_sub₀ (by norm_num), zpow_natCast]
  push_cast
  field_simp

theorem round_within (h2 : 2 ≤ spec.exponentBits) (s : Sign) (hm : 0 < m)
    (hlo : Representable spec lo) (hhi : Representable spec hi)
    (hlox : lo ≤ s.apply 1 * (m * 2 ^ e)) (hxhi : s.apply 1 * (m * 2 ^ e) ≤ hi) :
    Within spec (round spec s m e) lo hi := by
  simp only [UnpackedFloat.round, decreaseExponent]
  set d := (e - spec.targetExponent (totalExponent m e)).toNat with hd
  have hval := shiftLeft_mul_zpow m e d
  refine roundWithAccuracy_within h2 s ?_ hval.le ?_ (fun _ => rfl) hlo hhi hlox hxhi
  · rw [totalExponent_shiftLeft hm]
    omega
  · rw [← hval]
    refine mul_lt_mul_of_pos_right ?_ (by positivity)
    exact_mod_cast Nat.lt_succ_self _

theorem value_eq {s : Sign} {h : 0 < m} :
    value (.finite s m e h) = s.apply 1 * (m * 2 ^ e) := by
  cases s <;> simp [value, Sign.apply]

/-- Converting a float whose value lies between two numbers of the target format. -/
theorem convert_within (h2 : 2 ≤ spec.exponentBits) (hf : f.isFinite = true)
    (hlo : Representable spec lo) (hhi : Representable spec hi) (hlof : lo ≤ value f)
    (hfhi : value f ≤ hi) : Within spec (convert spec f) lo hi := by
  cases f with
  | infinity s => cases hf
  | notANumber => cases hf
  | zero s => exact ⟨rfl, trivial, hlof, hfhi⟩
  | finite s m e hm =>
    rw [value_eq] at hlof hfhi
    exact round_within h2 s hm hlo hhi hlof hfhi

theorem normalize_within (h2 : 2 ≤ spec.exponentBits) {k : ℤ} (hlo : Representable spec lo)
    (hhi : Representable spec hi) (hlox : lo ≤ k * 2 ^ e) (hxhi : k * 2 ^ e ≤ hi) :
    Within spec (UnpackedFloat.normalize spec k e .positive) lo hi := by
  unfold UnpackedFloat.normalize
  rcases lt_trichotomy k 0 with hk | rfl | hk
  · have habs : ((-k).toNat : ℚ) = -k := by
      rw [← Int.cast_natCast, Int.toNat_of_nonneg (by omega), Int.cast_neg]
    have hval : (Sign.negative.apply 1 : ℤ) * (((-k).toNat : ℚ) * 2 ^ e) = k * 2 ^ e := by
      rw [habs]
      simp [Sign.apply]
    rw [compare_lt_iff_lt.2 hk]
    exact round_within h2 .negative (by omega) hlo hhi (hval ▸ hlox) (hval ▸ hxhi)
  · simp only [Int.cast_zero, zero_mul] at hlox hxhi
    exact ⟨rfl, trivial, hlox, hxhi⟩
  · have habs : (k.toNat : ℚ) = k := by
      rw [← Int.cast_natCast, Int.toNat_of_nonneg (by omega)]
    have hval : (Sign.positive.apply 1 : ℤ) * ((k.toNat : ℚ) * 2 ^ e) = k * 2 ^ e := by
      rw [habs]
      simp [Sign.apply]
    rw [compare_gt_iff_gt.2 hk]
    exact round_within h2 .positive (by omega) hlo hhi (hval ▸ hlox) (hval ▸ hxhi)

/-- The sum of two floats as an integer at the smaller exponent. -/
theorem aligned_sum {s₁ s₂ : Sign} (hm₁ : 0 < m₁) (hm₂ : 0 < m₂) :
    ((s₁.apply (m₁ <<< (e₁ - min e₁ e₂).toNat : ℕ) + s₂.apply
      (m₂ <<< (e₂ - min e₁ e₂).toNat : ℕ) : ℤ) : ℚ) *
      2 ^ min e₁ e₂ = value (.finite s₁ m₁ e₁ hm₁) + value (.finite s₂ m₂ e₂ hm₂) := by
  have h₁ := shiftLeft_mul_zpow m₁ e₁ (e₁ - min e₁ e₂).toNat
  have h₂ := shiftLeft_mul_zpow m₂ e₂ (e₂ - min e₁ e₂).toNat
  rw [show e₁ - ((e₁ - min e₁ e₂).toNat : ℤ) = min e₁ e₂ by omega] at h₁
  rw [show e₂ - ((e₂ - min e₁ e₂).toNat : ℤ) = min e₁ e₂ by omega] at h₂
  rw [value_eq, value_eq, ← h₁, ← h₂]
  generalize m₁ <<< (e₁ - min e₁ e₂).toNat = a, m₂ <<< (e₂ - min e₁ e₂).toNat = b
  cases s₁ <;> cases s₂ <;> simp only [Sign.apply] <;> push_cast <;> ring

/-- A sum that lies between two numbers of the format. -/
theorem add_within (h2 : 2 ≤ spec.exponentBits) {g : UnpackedFloat} (hf : f.isFinite = true)
    (hg : g.isFinite = true) (hcf : Canonical spec f) (hcg : Canonical spec g)
    (hlo : Representable spec lo) (hhi : Representable spec hi) (hlox : lo ≤ value f + value g)
    (hxhi : value f + value g ≤ hi) : Within spec (add spec f g) lo hi := by
  rcases f with _ | _ | s₁ | ⟨s₁, m₁, e₁, hm₁⟩ <;> try (cases hf)
  all_goals rcases g with _ | _ | s₂ | ⟨s₂, m₂, e₂, hm₂⟩ <;> try (cases hg)
  · simp only [value, add_zero] at hlox hxhi
    simp only [add]
    split_ifs <;> exact ⟨rfl, trivial, hlox, hxhi⟩
  · change Within spec (.finite s₂ m₂ e₂ hm₂) lo hi
    exact ⟨rfl, hcg, by simpa [value] using hlox, by simpa [value] using hxhi⟩
  · change Within spec (.finite s₁ m₁ e₁ hm₁) lo hi
    exact ⟨rfl, hcf, by simpa [value] using hlox, by simpa [value] using hxhi⟩
  · rw [← aligned_sum hm₁ hm₂] at hlox hxhi
    exact normalize_within h2 hlo hhi hlox hxhi

/-! ## Quotients -/

theorem divCore_within (h₁ : 0 < m₁) (h₂ : 0 < m₂) (hdiv : divCore spec m₁ e₁ m₂ e₂ = (m, e, acc)) :
    e ≤ spec.targetExponent (totalExponent m e) ∧
      (m : ℚ) * 2 ^ e ≤ m₁ * 2 ^ e₁ / (m₂ * 2 ^ e₂) ∧
      (m₁ : ℚ) * 2 ^ e₁ / (m₂ * 2 ^ e₂) < (m + 1 : ℕ) * 2 ^ e ∧
      ((m₁ : ℚ) * 2 ^ e₁ / (m₂ * 2 ^ e₂) = m * 2 ^ e → acc = .exact) := by
  simp only [divCore, Prod.mk.injEq] at hdiv
  obtain ⟨hm, he, hacc⟩ := hdiv
  rw [he] at hm hacc
  set d := (e₁ - e₂ - e).toNat with hd
  have hle : e ≤ e₁ - e₂ := he ▸ min_le_left _ _
  have hde : (d : ℤ) = e₁ - e₂ - e := by omega
  have h2 : (2 : ℚ) ≠ 0 := by norm_num
  have hm₂ : (m₂ : ℚ) ≠ 0 := by positivity
  -- The quotient, scaled to the exponent `e`.
  have hx : (m₁ : ℚ) * 2 ^ e₁ / (m₂ * 2 ^ e₂) = (m₁ <<< d : ℕ) / m₂ * 2 ^ e := by
    have hpow : (2 : ℚ) ^ e₁ = 2 ^ d * 2 ^ e₂ * 2 ^ e := by
      rw [← zpow_natCast, ← zpow_add₀ h2, ← zpow_add₀ h2]
      congr 1
      omega
    rw [hpow, Nat.shiftLeft_eq]
    push_cast
    field_simp
  have hdm := Nat.div_add_mod (m₁ <<< d) m₂
  have hmod := Nat.mod_lt (m₁ <<< d) h₂
  rw [hm] at hdm
  rw [hx]
  refine ⟨?_, ?_, ?_, ?_⟩
  · have hmin : spec.minExponent ≤ spec.targetExponent (totalExponent m e) := le_max_right _ _
    have htarget : e ≤ spec.targetExponent (totalExponent m₁ e₁ - totalExponent m₂ e₂) :=
      he ▸ min_le_right _ _
    rcases max_choice (totalExponent m₁ e₁ - totalExponent m₂ e₂ - spec.mantissaBits)
      spec.minExponent with hmax | hmax
    · rw [Format.targetExponent, hmax] at htarget
      simp only [totalExponent] at htarget
      -- The dividend was shifted far enough for the quotient to fill the mantissa.
      have hbits : 2 ^ spec.mantissaBitsWithoutImplicit ≤ m := by
        rw [← hm, Nat.le_div_iff_mul_le h₂, Nat.shiftLeft_eq]
        calc 2 ^ spec.mantissaBitsWithoutImplicit * m₂
            ≤ 2 ^ spec.mantissaBitsWithoutImplicit * 2 ^ (m₂.log2 + 1) :=
              Nat.mul_le_mul_left _ Nat.lt_log2_self.le
          _ ≤ 2 ^ m₁.log2 * 2 ^ d := by
              rw [← pow_add, ← pow_add]
              refine Nat.pow_le_pow_right (by omega) ?_
              have := mantissaBits_eq spec
              omega
          _ ≤ m₁ * 2 ^ d := Nat.mul_le_mul_right _ (Nat.log2_self_le h₁.ne')
      have hmpos : m ≠ 0 := (lt_of_lt_of_le (by positivity) hbits).ne'
      have hlog := (Nat.le_log2 hmpos).2 hbits
      have hge : totalExponent m e - spec.mantissaBits ≤ spec.targetExponent (totalExponent m e) :=
        le_max_left _ _
      have := mantissaBits_eq spec
      simp only [totalExponent] at hge ⊢
      omega
    · rw [Format.targetExponent, hmax] at htarget
      exact le_trans htarget hmin
  · refine mul_le_mul_of_nonneg_right ?_ (by positivity)
    rw [le_div_iff₀ (by positivity)]
    have : m * m₂ ≤ m₁ <<< d := by rw [mul_comm]; omega
    exact_mod_cast this
  · refine mul_lt_mul_of_pos_right ?_ (by positivity)
    rw [div_lt_iff₀ (by positivity)]
    have : m₁ <<< d < (m + 1) * m₂ := by rw [add_mul, one_mul, mul_comm]; omega
    exact_mod_cast this
  · intro heq
    have hq := mul_right_cancel₀ (by positivity) heq
    rw [div_eq_iff hm₂] at hq
    have hq' : m₁ <<< d = m * m₂ := by exact_mod_cast hq
    have hz : m₁ <<< d % m₂ = 0 := by rw [hq', Nat.mul_mod_left]
    rw [← hacc, accuracyOfFraction, if_pos hz]

/-- A quotient by a positive float that lies between two numbers of the format. -/
theorem div_within (h2 : 2 ≤ spec.exponentBits) (hf : f.isFinite = true) (hm₂ : 0 < m₂)
    (hlo : Representable spec lo) (hhi : Representable spec hi)
    (hlox : lo ≤ value f / (m₂ * 2 ^ e₂)) (hxhi : value f / (m₂ * 2 ^ e₂) ≤ hi) :
    Within spec (div spec f (.finite .positive m₂ e₂ hm₂)) lo hi := by
  rcases f with _ | _ | s | ⟨s, m₁, e₁, hm₁⟩ <;> try (cases hf)
  · simp only [value, zero_div] at hlox hxhi
    exact ⟨rfl, trivial, hlox, hxhi⟩
  · rcases hdiv : divCore spec m₁ e₁ m₂ e₂ with ⟨m, e, acc⟩
    obtain ⟨h₁, hlow, hhigh, hacc⟩ := divCore_within hm₁ hm₂ hdiv
    have hsign : s / Sign.positive = s := by cases s <;> rfl
    rw [value_eq, mul_div_assoc] at hlox hxhi
    simp only [UnpackedFloat.div, hdiv, hsign]
    exact roundWithAccuracy_within h2 s h₁ hlow hhigh hacc hlo hhi hlox hxhi

/-! ## Comparison -/

theorem Fits.mul_zpow_lt (h₁ : Fits spec m₁ e₁) (h₂ : Fits spec m₂ e₂) (he : e₁ < e₂) :
    (m₁ : ℚ) * 2 ^ e₁ < m₂ * 2 ^ e₂ := by
  have hm₂ : 2 ^ spec.mantissaBitsWithoutImplicit ≤ m₂ := h₂.normal.resolve_right fun h => by
    have := h₁.min_le
    omega
  have hlt := h₁.lt
  rw [mantissaBits_eq] at hlt
  calc (m₁ : ℚ) * 2 ^ e₁ < 2 ^ (spec.mantissaBitsWithoutImplicit + 1) * 2 ^ e₁ := by
        refine mul_lt_mul_of_pos_right ?_ (by positivity)
        exact_mod_cast hlt
    _ = 2 ^ spec.mantissaBitsWithoutImplicit * 2 ^ (e₁ + 1) := by
        rw [pow_succ, zpow_add₀ (by norm_num), zpow_one]
        ring
    _ ≤ m₂ * 2 ^ e₂ := by
        refine mul_le_mul ?_ (zpow_le_zpow_right₀ (by norm_num) (by omega)) (by positivity)
          (by positivity)
        exact_mod_cast hm₂

theorem compare_magnitudes (h₁ : Fits spec m₁ e₁) (h₂ : Fits spec m₂ e₂) :
    (compare e₁ e₂).then (compare m₁ m₂) = compare ((m₁ : ℚ) * 2 ^ e₁) (m₂ * 2 ^ e₂) := by
  rcases lt_trichotomy e₁ e₂ with he | rfl | he
  · rw [compare_lt_iff_lt.2 he, compare_lt_iff_lt.2 (h₁.mul_zpow_lt h₂ he)]
    rfl
  · rw [compare_eq_iff_eq.2 rfl, Ordering.then]
    have hpos : (0 : ℚ) < 2 ^ e₁ := by positivity
    rcases lt_trichotomy m₁ m₂ with hm | rfl | hm
    · rw [compare_lt_iff_lt.2 hm,
        compare_lt_iff_lt.2 (mul_lt_mul_of_pos_right (by exact_mod_cast hm) hpos)]
    · rw [compare_eq_iff_eq.2 rfl, compare_eq_iff_eq.2 rfl]
    · rw [compare_gt_iff_gt.2 hm,
        compare_gt_iff_gt.2 (mul_lt_mul_of_pos_right (by exact_mod_cast hm) hpos)]
  · rw [compare_gt_iff_gt.2 he, compare_gt_iff_gt.2 (h₂.mul_zpow_lt h₁ he)]
    rfl

theorem swap_compare (a b : ℚ) : (compare a b).swap = compare (-a) (-b) := by
  rcases lt_trichotomy a b with h | rfl | h
  · rw [compare_lt_iff_lt.2 h, compare_gt_iff_gt.2 (neg_lt_neg h)]
    rfl
  · rw [compare_eq_iff_eq.2 rfl, compare_eq_iff_eq.2 rfl]
    rfl
  · rw [compare_gt_iff_gt.2 h, compare_lt_iff_lt.2 (neg_lt_neg h)]
    rfl

/-- Finite floats of a format are compared by their values. -/
theorem compare_eq_compare_value {g : UnpackedFloat} (hf : f.isFinite = true)
    (hg : g.isFinite = true) (hcf : Canonical spec f) (hcg : Canonical spec g) :
    f.compare g = some (compare (value f) (value g)) := by
  rcases f with _ | _ | s₁ | ⟨s₁, m₁, e₁, hm₁⟩ <;> try (cases hf)
  all_goals rcases g with _ | _ | s₂ | ⟨s₂, m₂, e₂, hm₂⟩ <;> try (cases hg)
  · simp only [value, UnpackedFloat.compare]
    rw [compare_eq_iff_eq.2 rfl]
  · have hpos : (0 : ℚ) < m₂ * 2 ^ e₂ := by positivity
    cases s₂ <;> simp only [value_eq, UnpackedFloat.compare, Sign.apply, Option.some.injEq]
    · exact (compare_gt_iff_gt.2 (by simpa [value] using hpos)).symm
    · exact (compare_lt_iff_lt.2 (by simpa [value] using hpos)).symm
  · have hpos : (0 : ℚ) < m₁ * 2 ^ e₁ := by positivity
    cases s₁ <;> simp only [value_eq, UnpackedFloat.compare, Sign.apply, Option.some.injEq]
    · exact (compare_lt_iff_lt.2 (by simpa [value] using hpos)).symm
    · exact (compare_gt_iff_gt.2 (by simpa [value] using hpos)).symm
  · have hpos₁ : (0 : ℚ) < m₁ * 2 ^ e₁ := by positivity
    have hpos₂ : (0 : ℚ) < m₂ * 2 ^ e₂ := by positivity
    have hcmp := compare_magnitudes hcf hcg
    cases s₁ <;> cases s₂ <;>
      simp only [value_eq, UnpackedFloat.compare, Sign.apply, Option.some.injEq, Int.cast_neg,
        Int.cast_one, one_mul, neg_mul]
    · rw [hcmp, swap_compare]
    · exact (compare_lt_iff_lt.2 (by linarith)).symm
    · exact (compare_gt_iff_gt.2 (show _ < _ by linarith)).symm
    · exact hcmp

/-! ## Single and double precision -/

/-- The value of a finite single-precision float. -/
def value32 (x : Float32) : ℚ := value x.toModel.unpack

/-- The value of a finite double-precision float. -/
def value64 (x : Float) : ℚ := value x.toModel.unpack

theorem canonical32 (x : Float32) : Canonical .binary32 x.toModel.unpack :=
  canonical_unpack (by decide) _

theorem canonical64 (x : Float) : Canonical .binary64 x.toModel.unpack :=
  canonical_unpack (by decide) _

theorem unpack_pack32 (hf : Canonical .binary32 f) :
    (Float32.Model.pack f).unpack = f := unpack_pack (by decide) hf

theorem unpack_pack64 (hf : Canonical .binary64 f) :
    (Float.Model.pack f).unpack = f := unpack_pack (by decide) hf

theorem Canonical.representable (hc : Canonical spec f) (hf : f.isFinite = true) :
    Representable spec (value f) := by
  have hE := two_pow_exponentBits spec
  have hbias := cast_exponentBias spec
  rcases f with _ | _ | s | ⟨s, m, e, hm⟩ <;> try (cases hf)
  · exact ⟨⟨0, spec.minExponent, by positivity, le_rfl, by simp [value]⟩, by simp [value]⟩
  · have habs : |value (.finite s m e hm)| = m * 2 ^ e := by
      rw [value_eq]
      cases s <;> simp [Sign.apply]
    rw [Representable, habs]
    refine ⟨⟨m, e, hc.lt, hc.min_le, rfl⟩, ?_⟩
    have hrange := hc.range
    have hlt := hc.lt
    calc (m : ℚ) * 2 ^ e < 2 ^ spec.mantissaBits * 2 ^ e := by
          refine mul_lt_mul_of_pos_right ?_ (by positivity)
          exact_mod_cast hlt
      _ = 2 ^ ((spec.mantissaBits : ℤ) + e) := by rw [zpow_add₀ (by norm_num), zpow_natCast]
      _ ≤ 2 ^ ((spec.exponentBias + 1 : ℕ) : ℤ) := by
          refine zpow_le_zpow_right₀ (by norm_num) ?_
          rw [mantissaBits_eq]
          push_cast
          omega
      _ = 2 ^ (spec.exponentBias + 1) := zpow_natCast _ _

/-- Twice a single-precision number, scaled by a factor of one or two, is a double-precision one. -/
theorem Representable.scale {v : ℚ} (h : Representable .binary32 v) (i : ℕ) (hi : i ≤ 1) :
    Representable .binary64 (2 ^ i * v) := by
  obtain ⟨⟨k, j, hk, hj, hv⟩, hlt⟩ := h
  have habs : |2 ^ i * v| = 2 ^ i * |v| := by rw [abs_mul, abs_of_pos (by positivity)]
  rw [Representable, habs]
  refine ⟨⟨k, j + i, lt_of_lt_of_le hk (by decide), le_trans ?_ (by omega : j ≤ j + i), ?_⟩, ?_⟩
  · exact le_trans (by decide) hj
  · rw [hv, zpow_add₀ (by norm_num), zpow_natCast]
    ring
  · have h1 : (2 : ℚ) ^ i ≤ 2 ^ 1 := pow_le_pow_right₀ (by norm_num) hi
    calc 2 ^ i * |v| ≤ 2 ^ 1 * |v| := mul_le_mul_of_nonneg_right h1 (abs_nonneg v)
      _ < 2 ^ 1 * 2 ^ (Format.binary32.exponentBias + 1) := mul_lt_mul_of_pos_left hlt (by norm_num)
      _ ≤ 2 ^ (Format.binary64.exponentBias + 1) := by
        rw [← pow_add]
        exact pow_le_pow_right₀ (by norm_num) (by decide)

theorem representable32 {x : Float32} (hx : x.isFinite = true) :
    Representable .binary32 (value32 x) :=
  (canonical32 x).representable hx

/-- Widening is exact. -/
theorem float64_finite {x : Float32} (hx : x.isFinite = true) :
    (float64 x).isFinite = true ∧ value64 (float64 x) = value32 x := by
  have hrep := (representable32 hx).scale 0 (by omega)
  rw [pow_zero, one_mul] at hrep
  have hw := convert_within (by decide) hx hrep hrep le_rfl le_rfl
  have hunpack := unpack_pack64 hw.canonical
  refine ⟨?_, ?_⟩
  · change (Float.Model.unpack _).isFinite = true
    rw [float64, hunpack]
    exact hw.finite
  · rw [value64, float64, hunpack]
    exact le_antisymm hw.le_hi hw.lo_le

/-- Narrowing a double-precision float that lies between two single-precision ones. -/
theorem float32_within (hx : x.isFinite = true) {lo hi : Float32} (hlo : lo.isFinite = true)
    (hhi : hi.isFinite = true) (hlox : value32 lo ≤ value64 x) (hxhi : value64 x ≤ value32 hi) :
    (float32 x).isFinite = true ∧ value32 lo ≤ value32 (float32 x) ∧
      value32 (float32 x) ≤ value32 hi := by
  have hw := convert_within (by decide) hx (representable32 hlo) (representable32 hhi) hlox hxhi
  have hunpack := unpack_pack32 hw.canonical
  refine ⟨?_, ?_, ?_⟩
  · change (Float32.Model.unpack _).isFinite = true
    rw [float32, hunpack]
    exact hw.finite
  · rw [value32, value32, float32, hunpack]
    exact hw.lo_le
  · rw [value32, value32, float32, hunpack]
    exact hw.le_hi

theorem unpack_two : (2 : Float).toModel.unpack = .finite .positive (2 ^ 52) (-51)
    (by norm_num) := by
  rfl

/-- The double-precision midpoint of two single-precision floats lies between them. -/
theorem midpoint_within {a b : Float32} (ha : a.isFinite = true) (hb : b.isFinite = true)
    (hab : value32 a ≤ value32 b) :
    ((float64 a + float64 b) / 2).isFinite = true ∧
      value32 a ≤ value64 ((float64 a + float64 b) / 2) ∧
      value64 ((float64 a + float64 b) / 2) ≤ value32 b := by
  obtain ⟨hfa, hva⟩ := float64_finite ha
  obtain ⟨hfb, hvb⟩ := float64_finite hb
  have hra := representable32 ha
  have hrb := representable32 hb
  have hsum := add_within (by decide) hfa hfb (canonical64 _) (canonical64 _) (hra.scale 1 le_rfl)
    (hrb.scale 1 le_rfl) (by rw [← value64, ← value64, hva, hvb]; linarith)
    (by rw [← value64, ← value64, hva, hvb]; linarith)
  have hsum' : (float64 a + float64 b).toModel.unpack = _ := unpack_pack64 hsum.canonical
  have hlo := hra.scale 0 (by omega)
  have hhi := hrb.scale 0 (by omega)
  rw [pow_zero, one_mul] at hlo hhi
  have hden : ((2 ^ 52 : ℕ) : ℚ) * 2 ^ (-51 : ℤ) = 2 := by norm_num
  have hl := hsum.lo_le
  have hh := hsum.le_hi
  rw [pow_one] at hl hh
  have hdiv := @div_within .binary64 (2 ^ 52) (-51) _ _ _ (by decide) hsum.finite
    (by norm_num) hlo hhi (by rw [hden]; linarith) (by rw [hden]; linarith)
  have heq : ((float64 a + float64 b) / 2).toModel.unpack =
      (Float.Model.pack (div .binary64 (float64 a + float64 b).toModel.unpack
        (.finite .positive (2 ^ 52) (-51) (by norm_num)))).unpack := by
    rw [← unpack_two]
    rfl
  rw [hsum', unpack_pack64 hdiv.canonical] at heq
  refine ⟨?_, ?_, ?_⟩
  · change (Float.Model.unpack _).isFinite = true
    rw [heq]
    exact hdiv.finite
  · rw [value64, heq]
    exact hdiv.lo_le
  · rw [value64, heq]
    exact hdiv.le_hi

theorem lt_iff_value64 {y : Float} (hx : x.isFinite = true) (hy : y.isFinite = true) :
    x < y ↔ value64 x < value64 y := by
  have hcmp := compare_eq_compare_value hx hy (canonical64 x) (canonical64 y)
  have hlt : x < y ↔ (x.toModel.unpack.compare y.toModel.unpack == some Ordering.lt) = true :=
    decide_eq_true_iff
  rw [hlt, hcmp, beq_iff_eq, Option.some.injEq, compare_lt_iff_lt]
  rfl

theorem le_iff_value64 {y : Float} (hx : x.isFinite = true) (hy : y.isFinite = true) :
    x ≤ y ↔ value64 x ≤ value64 y := by
  have hcmp := compare_eq_compare_value hx hy (canonical64 x) (canonical64 y)
  have hle : x ≤ y ↔ (x.toModel.unpack.compare y.toModel.unpack).any (·.isLE) = true :=
    decide_eq_true_iff
  rw [hle, hcmp, Option.any_some, Ordering.isLE_iff_ne_gt, ← compare_le_iff_le]
  rfl

/-- What lies between two finite floats is finite. -/
theorem isFinite_of_between {lo hi : Float} (hlo : lo.isFinite = true) (hhi : hi.isFinite = true)
    (hle : lo ≤ x) (hlt : x < hi) : x.isFinite = true := by
  have hle : (lo.toModel.unpack.compare x.toModel.unpack).any (·.isLE) = true :=
    decide_eq_true_iff.1 hle
  have hlt : (x.toModel.unpack.compare hi.toModel.unpack == some Ordering.lt) = true :=
    decide_eq_true_iff.1 hlt
  change lo.toModel.unpack.isFinite = true at hlo
  change hi.toModel.unpack.isFinite = true at hhi
  change x.toModel.unpack.isFinite = true
  generalize lo.toModel.unpack = lo at *
  generalize hi.toModel.unpack = hi at *
  generalize x.toModel.unpack = x at *
  rcases x with s | _ | _ | _
  · cases s
    · rcases lo with _ | _ | _ | _
      exacts [(nomatch hlo), (nomatch hlo), (nomatch hle), (nomatch hle)]
    · rcases hi with _ | _ | _ | _
      exacts [(nomatch hhi), (nomatch hhi), (nomatch hlt), (nomatch hlt)]
  · rcases hi with _ | _ | _ | _ <;> cases hlt
  · rfl
  · rfl

theorem le_iff_value32 {x y : Float32} (hx : x.isFinite = true) (hy : y.isFinite = true) :
    x ≤ y ↔ value32 x ≤ value32 y := by
  have hcmp := compare_eq_compare_value hx hy (canonical32 x) (canonical32 y)
  have hle : x ≤ y ↔ (x.toModel.unpack.compare y.toModel.unpack).any (·.isLE) = true :=
    decide_eq_true_iff
  rw [hle, hcmp, Option.any_some, Ordering.isLE_iff_ne_gt, ← compare_le_iff_le]
  rfl

theorem isNaN_or_isInf (x : Float) : (x.isNaN || x.isInf) = !x.isFinite := by
  change ((Float.Model.unpack _).isNaN || (Float.Model.unpack _).isInf) =
    !(Float.Model.unpack _).isFinite
  rcases x.toModel.unpack with _ | _ | _ | _ <;> rfl

/-- A float is finite before and after widening. -/
theorem isFinite_float64 (x : Float32) : (float64 x).isFinite = x.isFinite := by
  rcases hx : x.isFinite
  · change (Float32.Model.unpack _).isFinite = false at hx
    change (Float.Model.unpack _).isFinite = false
    rw [float64]
    rcases hu : x.toModel.unpack with s | _ | s | ⟨s, m, e, hm⟩ <;> rw [hu] at hx
    · rw [unpack_pack64 (f := convert .binary64 (.infinity s)) trivial]
      rfl
    · rw [unpack_pack64 (f := convert .binary64 .notANumber) trivial]
      rfl
    · cases hx
    · cases hx
  · exact (float64_finite hx).1

/-! ## Bit patterns -/

/-- The bits of a single-precision float that is neither infinite nor a NaN: not all bits of the
exponent are set. -/
def FiniteBits (b : UInt32) : Prop := b.toNat / 2 ^ 23 % 2 ^ 8 ≠ 2 ^ 8 - 1

theorem FiniteBits.unpackExponent_ne (h : FiniteBits b) :
    @unpackExponent .binary32 b.toBitVec ≠ -1#_ := by
  intro hexp
  have hnat := congrArg BitVec.toNat hexp
  rw [toNat_neg_one] at hnat
  simp only [unpackExponent, BitVec.toNat_cast, BitVec.extractLsb_toNat,
    Nat.shiftRight_eq_div_pow] at hnat
  exact h hnat

theorem FiniteBits.toBits_ofBits (h : FiniteBits b) : (Float32.ofBits b).toBits = b := by
  have hpack := @pack_unpack .binary32 (by decide) _ ⟨fun hexp => absurd hexp h.unpackExponent_ne⟩
  simp only [Float32.ofBits, Float32.toBits, Float32.Model.ofBits, Float32.Model.pack, hpack,
    UInt32.ofBitVec_toBitVec]

theorem FiniteBits.isFinite_ofBits (h : FiniteBits b) : (Float32.ofBits b).isFinite = true := by
  have hbits : (Float32.ofBits b).toModel.toBits = b := h.toBits_ofBits
  change (unpack .binary32 (Float32.ofBits b).toModel.toBits.toBitVec).isFinite = true
  rw [hbits, ← @packComponents_unpack .binary32 b.toBitVec, unpack_packComponents,
    if_neg h.unpackExponent_ne]
  split_ifs <;> rfl

end ZeroTrustFL
