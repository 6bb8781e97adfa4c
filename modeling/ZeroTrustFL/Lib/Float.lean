import Mathlib

/-!
# Binary floats

Conversions between the two binary float formats, over the logical model of `Float32` and `Float`,
and the packing of floats into bits: packing and unpacking are inverse to each other on valid bit
patterns and on floats that fit the format.
-/

namespace ZeroTrustFL

open Float.Model (Format UnpackedFloat)
open Float.Model.UnpackedFloat

/-- Rounds a float of any format to a format. -/
def convert (spec : Format) : UnpackedFloat → UnpackedFloat
  | .finite s m e _ => round spec s m e
  | x => x

/-- The conversion of a single-precision float to double precision. -/
def float64 (x : Float32) : Float := .ofModel (.pack (convert .binary64 x.toModel.unpack))

/-- The conversion of a double-precision float to single precision. -/
def float32 (x : Float) : Float32 := .ofModel (.pack (convert .binary32 x.toModel.unpack))

/-! ## Packing -/

theorem ofBitVec_toBitVec (s : Sign) : Sign.ofBitVec s.toBitVec = s := by
  cases s <;> rfl

theorem toBitVec_ofBitVec (v : BitVec 1) : (Sign.ofBitVec v).toBitVec = v := by
  revert v
  decide

variable {spec : Format}

theorem packComponents_unpack (b : BitVec spec.numBits) :
    packComponents spec (Sign.ofBitVec (unpackSign b)) (unpackExponent b)
      (unpackMantissa b) = b := by
  rw [packComponents, toBitVec_ofBitVec]
  have hm := spec.hm
  have he := spec.he
  refine BitVec.eq_of_getLsbD_eq fun i hi => ?_
  have hi' : i < 1 + spec.exponentBits + spec.mantissaBitsWithoutImplicit := hi
  simp only [unpackSign, unpackExponent, unpackMantissa, BitVec.getLsbD_append, BitVec.getLsbD_cast,
    BitVec.getLsbD_extractLsb]
  by_cases h₁ : i < spec.mantissaBitsWithoutImplicit
  · simp [h₁, show i ≤ spec.mantissaBitsWithoutImplicit - 1 by omega]
  · by_cases h₂ : i - spec.mantissaBitsWithoutImplicit < spec.exponentBits
    · rw [show spec.mantissaBitsWithoutImplicit + (i - spec.mantissaBitsWithoutImplicit) =
        i by omega]
      simp only [h₁, h₂, if_true, if_false, Bool.and_eq_right_iff_imp, decide_eq_true_eq]
      omega
    · rw [show spec.mantissaBitsWithoutImplicit + spec.exponentBits +
        (i - spec.mantissaBitsWithoutImplicit - spec.exponentBits) = i by omega]
      simp only [h₁, h₂, if_false, Bool.and_eq_right_iff_imp, decide_eq_true_eq]
      omega

theorem unpackSign_packComponents (s : Sign) (e : BitVec spec.exponentBits)
    (m : BitVec spec.mantissaBitsWithoutImplicit) :
    unpackSign (packComponents spec s e m) = s.toBitVec := by
  refine BitVec.eq_of_getLsbD_eq fun i hi => ?_
  obtain rfl : i = 0 := by omega
  simp [unpackSign, packComponents, BitVec.getLsbD_append, BitVec.getElem_append]

theorem unpack_packComponents (s : Sign) (e : BitVec spec.exponentBits)
    (m : BitVec spec.mantissaBitsWithoutImplicit) :
    unpack spec (packComponents spec s e m) =
      if e = -1#_ then if m = 0#_ then .infinity s else .notANumber
      else if e = 0#_ then
        if h : m = 0#_ then .zero s
        else .finite s m.toNat
          ((e.toNat : ℤ) - (spec.exponentBias + spec.mantissaBitsWithoutImplicit) + 1)
          (by simpa [BitVec.toNat_pos, BitVec.pos_iff_ne_zero])
      else .finite s (1#1 ++ m).toNat
        ((e.toNat : ℤ) - (spec.exponentBias + spec.mantissaBitsWithoutImplicit)) (by simp) := by
  unfold unpack
  simp only [unpackMantissa_packComponents, unpackExponent_packComponents,
    unpackSign_packComponents, ofBitVec_toBitVec]

theorem toNat_one_append {w : ℕ} (m : BitVec w) : (1#1 ++ m).toNat = 2 ^ w + m.toNat := by
  rw [BitVec.toNat_append, ← Nat.shiftLeft_add_eq_or_of_lt m.isLt]
  simp [Nat.shiftLeft_eq]

/-- The mantissa and the exponent are those of a float that fits the format. -/
structure Fits (spec : Format) (m : ℕ) (e : ℤ) : Prop where
  lt : m < 2 ^ spec.mantissaBits
  min_le : spec.minExponent ≤ e
  normal : 2 ^ spec.mantissaBitsWithoutImplicit ≤ m ∨ e = spec.minExponent
  range : e + spec.exponentBias + spec.mantissaBitsWithoutImplicit + 1 < 2 ^ spec.exponentBits

def Canonical (spec : Format) : UnpackedFloat → Prop
  | .finite _ m e _ => Fits spec m e
  | _ => True

theorem two_pow_exponentBits (spec : Format) :
    (2 : ℤ) ^ spec.exponentBits = 2 * 2 ^ (spec.exponentBits - 1) := by
  have := spec.he
  rw [← pow_succ', Nat.sub_add_cancel this]

theorem cast_exponentBias (spec : Format) :
    (spec.exponentBias : ℤ) = 2 ^ (spec.exponentBits - 1) - 1 := by
  have : 0 < 2 ^ (spec.exponentBits - 1) := by positivity
  rw [Format.exponentBias, Nat.cast_sub this]
  simp

theorem minExponent_eq (spec : Format) :
    spec.minExponent = 1 - spec.exponentBias - spec.mantissaBitsWithoutImplicit := by
  rw [Format.minExponent, cast_exponentBias, Format.mantissaBits]
  push_cast
  ring

theorem two_le_two_pow (h2 : 2 ≤ spec.exponentBits) : (2 : ℤ) ≤ 2 ^ (spec.exponentBits - 1) := by
  have : (2 : ℤ) ^ 1 ≤ 2 ^ (spec.exponentBits - 1) := pow_le_pow_right₀ (by norm_num) (by omega)
  simpa using this

theorem toNat_neg_one (w : ℕ) : (-1#w).toNat = 2 ^ w - 1 := by
  rcases w with _ | w
  · rfl
  · have : 1 < 2 ^ (w + 1) := Nat.one_lt_two_pow (by omega)
    simp [BitVec.toNat_neg, Nat.mod_eq_of_lt this]

theorem toNat_add_one_lt {w : ℕ} {v : BitVec w} : v ≠ -1#_ ↔ v.toNat + 1 < 2 ^ w := by
  have h1 := v.isLt
  rw [Ne, ← BitVec.toNat_inj, toNat_neg_one]
  omega

theorem canonical_unpack (h2 : 2 ≤ spec.exponentBits) (b : BitVec spec.numBits) :
    Canonical spec (unpack spec b) := by
  have hB := two_le_two_pow h2
  have hE := two_pow_exponentBits spec
  have hmin := minExponent_eq spec
  have hbits : spec.mantissaBits = spec.mantissaBitsWithoutImplicit + 1 := Nat.add_comm _ _
  rw [← packComponents_unpack b, unpack_packComponents]
  have hm := (unpackMantissa b).isLt
  split_ifs with h₁ h₂ h₃ h₄
  · trivial
  · trivial
  · trivial
  · have h0 : ((unpackExponent b).toNat : ℤ) = 0 := by rw [h₃]; simp
    refine ⟨?_, by omega, .inr (by omega), by omega⟩
    rw [hbits, pow_succ]
    omega
  · have hpos : (unpackExponent b).toNat ≠ 0 := fun h =>
      h₃ (BitVec.eq_of_toNat_eq (by simpa using h))
    have hlt := toNat_add_one_lt.1 h₁
    zify at hlt
    rw [Canonical, toNat_one_append]
    refine ⟨?_, by omega, .inl (by omega), by omega⟩
    rw [hbits, pow_succ]
    omega

theorem pack_unpack (h2 : 2 ≤ spec.exponentBits) {b : BitVec spec.numBits} (hb : spec.Valid b) :
    pack spec (unpack spec b) = b := by
  have hB := two_le_two_pow h2
  have hE := two_pow_exponentBits spec
  have hbits : spec.mantissaBits = spec.mantissaBitsWithoutImplicit + 1 := Nat.add_comm _ _
  have hcomp := packComponents_unpack b
  rw [← hcomp, unpack_packComponents, hcomp]
  have hm := (unpackMantissa b).isLt
  split_ifs with h₁ h₂ h₃ h₄
  · rw [h₁, h₂] at hcomp
    exact hcomp
  · exact (hb.eq_packedNaN h₁ h₂).symm
  · rw [h₃, h₄] at hcomp
    exact hcomp
  · have h0 : ((unpackExponent b).toNat : ℤ) = 0 := by rw [h₃]; simp
    have hpos : (unpackMantissa b).toNat ≠ 0 := fun h =>
      h₄ (BitVec.eq_of_toNat_eq (by simpa using h))
    have hlog := (Nat.log2_lt hpos).2 hm
    rw [pack, if_neg (by rw [h0]; zify; omega), if_neg (by omega), BitVec.ofNat_toNat,
      BitVec.setWidth_eq]
    rw [h₃] at hcomp
    exact hcomp
  · have hlt := toNat_add_one_lt.1 h₁
    have hexp : (((unpackExponent b).toNat : ℤ) -
        (spec.exponentBias + spec.mantissaBitsWithoutImplicit) + spec.exponentBias +
        spec.mantissaBitsWithoutImplicit).toNat = (unpackExponent b).toNat := by omega
    have hlog : (2 ^ spec.mantissaBitsWithoutImplicit + (unpackMantissa b).toNat).log2 =
        spec.mantissaBitsWithoutImplicit := by
      rw [Nat.log2_eq_iff (by positivity), pow_succ]
      omega
    have hmant : BitVec.ofNat spec.mantissaBitsWithoutImplicit
        (2 ^ spec.mantissaBitsWithoutImplicit + (unpackMantissa b).toNat) = unpackMantissa b := by
      apply BitVec.eq_of_toNat_eq
      rw [BitVec.toNat_ofNat, Nat.add_mod_left, Nat.mod_eq_of_lt hm]
    simp only [pack, toNat_one_append]
    rw [hexp, hlog, if_neg (by omega), if_pos hbits.symm, hmant, BitVec.ofNat_toNat,
      BitVec.setWidth_eq]
    exact hcomp

theorem finite_congr {s : Sign} {m m' : ℕ} {e e' : ℤ} {h : 0 < m} {h' : 0 < m'} (hm : m = m')
    (he : e = e') : UnpackedFloat.finite s m e h = .finite s m' e' h' := by
  subst hm he
  rfl

theorem unpack_pack (h2 : 2 ≤ spec.exponentBits) {f : UnpackedFloat} (hf : Canonical spec f) :
    unpack spec (pack spec f) = f := by
  have hB := two_le_two_pow h2
  have hE := two_pow_exponentBits spec
  have hmin := minExponent_eq spec
  have hbits : spec.mantissaBits = spec.mantissaBitsWithoutImplicit + 1 := Nat.add_comm _ _
  have hne : BitVec.ofNat spec.exponentBits 0 ≠ -1#_ := by
    rw [toNat_add_one_lt, BitVec.toNat_zero]
    zify
    omega
  cases f with
  | infinity s => simp [pack, packedInfinity, unpack_packComponents]
  | notANumber =>
    rw [pack, packedNaN, unpack_packComponents, if_pos rfl, if_neg]
    intro h
    have hm := spec.hm
    have h' := congrArg BitVec.toNat h
    rw [BitVec.toNat_shiftLeft, BitVec.toNat_ofNat, BitVec.toNat_zero,
      Nat.mod_eq_of_lt (Nat.one_lt_two_pow (by omega)), Nat.shiftLeft_eq, one_mul,
      Nat.mod_eq_of_lt (Nat.pow_lt_pow_right (by omega) (by omega))] at h'
    exact absurd h' (by positivity)
  | zero s => simp [pack, packedZero, unpack_packComponents, hne]
  | finite s m e hpos =>
    obtain ⟨hlt, hmine, hnormal, hrange⟩ := hf
    rw [hbits, pow_succ] at hlt
    simp only [pack]
    rw [if_neg (by zify; omega)]
    split_ifs with hlog
    · have hlo : 2 ^ spec.mantissaBitsWithoutImplicit ≤ m := by
        rw [← Nat.le_log2 hpos.ne']
        omega
      have hexp : (BitVec.ofNat spec.exponentBits
          (e + spec.exponentBias + spec.mantissaBitsWithoutImplicit).toNat).toNat =
          (e + spec.exponentBias + spec.mantissaBitsWithoutImplicit).toNat := by
        rw [BitVec.toNat_ofNat, Nat.mod_eq_of_lt]
        zify
        omega
      have hmant : (BitVec.ofNat spec.mantissaBitsWithoutImplicit m).toNat =
          m - 2 ^ spec.mantissaBitsWithoutImplicit := by
        rw [BitVec.toNat_ofNat, Nat.mod_eq_sub_mod hlo, Nat.mod_eq_of_lt (by omega)]
      rw [unpack_packComponents, if_neg, if_neg]
      · refine finite_congr ?_ (by omega)
        rw [toNat_one_append, hmant]
        omega
      · rw [← BitVec.toNat_inj, hexp, BitVec.toNat_zero]
        omega
      · rw [← Ne, toNat_add_one_lt, hexp]
        zify
        omega
    · have hsmall : m < 2 ^ spec.mantissaBitsWithoutImplicit := by
        rw [← Nat.log2_lt hpos.ne']
        have := (Nat.log2_lt (n := m) (k := spec.mantissaBitsWithoutImplicit + 1) hpos.ne').2
          (by rw [pow_succ]; exact hlt)
        omega
      have hmant : (BitVec.ofNat spec.mantissaBitsWithoutImplicit m).toNat = m := by
        rw [BitVec.toNat_ofNat, Nat.mod_eq_of_lt hsmall]
      rw [unpack_packComponents, if_neg hne, if_pos rfl, dif_neg]
      · refine finite_congr hmant ?_
        rw [BitVec.toNat_zero]
        omega
      · rw [← BitVec.toNat_inj, hmant, BitVec.toNat_zero]
        omega

/-- The bits of a single-precision float determine it. -/
theorem ofBits_toBits (x : Float32) : Float32.ofBits x.toBits = x := by
  rcases x with ⟨⟨bits, valid⟩⟩
  have hpack := pack_unpack (by decide) valid
  simp only [Float32.ofBits, Float32.toBits, Float32.Model.ofBits, Float32.Model.pack, hpack]

end ZeroTrustFL
