import Mathlib

/-!
# Loops with a stride

The values of a counter that starts somewhere and grows by a constant below a bound, and how loops
that start one after the other share out a range.
-/

namespace ZeroTrustFL

/-- The values of `for (i = start; i < bound; i += step)`. -/
def strided (step bound start : ℕ) : List ℕ :=
  if _h : 0 < step ∧ start < bound then start :: strided step bound (start + step) else []
  termination_by bound - start

theorem mem_strided {step bound : ℕ} (hstep : 0 < step) {start d : ℕ} :
    d ∈ strided step bound start ↔ start ≤ d ∧ d < bound ∧ d % step = start % step := by
  induction start using strided.induct step bound with
  | case1 start h ih =>
    rw [strided, dif_pos h, List.mem_cons, ih, Nat.add_mod_right]
    constructor
    · rintro (rfl | ⟨hle, hlt, hmod⟩)
      · exact ⟨le_rfl, h.2, rfl⟩
      · exact ⟨by omega, hlt, hmod⟩
    · rintro ⟨hle, hlt, hmod⟩
      rcases hle.eq_or_lt with rfl | hlt'
      · exact .inl rfl
      · refine .inr ⟨?_, hlt, hmod⟩
        -- equal remainders are at least one stride apart
        obtain ⟨m, hm⟩ := (Nat.modEq_iff_dvd' hle).1 (Eq.symm hmod)
        rcases Nat.eq_zero_or_pos m with rfl | hpos
        · omega
        · have := Nat.le_mul_of_pos_right step hpos
          omega
  | case2 start h =>
    rw [strided, dif_neg h]
    simp only [List.not_mem_nil, false_iff]
    omega

theorem nodup_strided (step bound start : ℕ) : (strided step bound start).Nodup := by
  induction start using strided.induct step bound with
  | case1 start h ih =>
    rw [strided, dif_pos h]
    refine List.nodup_cons.2 ⟨fun hmem => ?_, ih⟩
    have := ((mem_strided h.1).1 hmem).1
    omega
  | case2 start h =>
    rw [strided, dif_neg h]
    exact List.nodup_nil

/-- Loops that start at the first numbers share out the numbers below the bound. -/
theorem strided_perm {step : ℕ} (hstep : 0 < step) (bound : ℕ) :
    ((List.range step).flatMap (strided step bound)).Perm (List.range bound) := by
  have hnodup : ((List.range step).flatMap (strided step bound)).Nodup := by
    refine List.nodup_flatMap.2 ⟨fun b _ => nodup_strided _ _ b, ?_⟩
    refine List.nodup_range.imp_of_mem fun hb hb' hne => ?_
    intro d hd hd'
    have hmod := ((mem_strided hstep).1 hd).2.2
    have hmod' := ((mem_strided hstep).1 hd').2.2
    rw [Nat.mod_eq_of_lt (List.mem_range.1 hb)] at hmod
    rw [Nat.mod_eq_of_lt (List.mem_range.1 hb')] at hmod'
    exact hne (hmod.symm.trans hmod')
  refine (List.perm_ext_iff_of_nodup hnodup List.nodup_range).2 fun d => ?_
  rw [List.mem_flatMap, List.mem_range]
  constructor
  · rintro ⟨b, -, hd⟩
    exact ((mem_strided hstep).1 hd).2.1
  · intro hd
    exact ⟨d % step, List.mem_range.2 (Nat.mod_lt d hstep),
      (mem_strided hstep).2 ⟨Nat.mod_le d step, hd, (Nat.mod_mod d step).symm⟩⟩

theorem strided_add (step bound start lane : ℕ) :
    strided step bound (start + lane) = (strided step (bound - start) lane).map (start + ·) := by
  induction lane using strided.induct step (bound - start) with
  | case1 lane h ih =>
    have hbound : 0 < step ∧ start + lane < bound := ⟨h.1, by omega⟩
    rw [strided.eq_def step bound, dif_pos hbound, strided.eq_def step (bound - start) lane,
      dif_pos h, add_assoc, ih, List.map_cons]
  | case2 lane h =>
    rw [strided.eq_def step bound, dif_neg (by omega), strided, dif_neg h, List.map_nil]

theorem strided_mul {step bound : ℕ} (hstep : 0 < step) (i : ℕ) :
    ∃ m, strided step bound (i * step) = (List.range m).map (fun t => (i + t) * step) ∧
      bound ≤ (i + m) * step := by
  generalize hoffset : i * step = offset
  induction offset using strided.induct step bound generalizing i with
  | case1 offset h ih =>
    subst hoffset
    obtain ⟨m, heq, hle⟩ := ih (i + 1) (by rw [add_mul, one_mul])
    refine ⟨m + 1, ?_, by rwa [add_right_comm, add_assoc] at hle⟩
    rw [strided, dif_pos h, heq, List.range_succ_eq_map, List.map_cons, List.map_map, add_zero]
    refine congrArg _ (List.map_congr_left fun t _ => ?_)
    simp only [Function.comp, Nat.succ_eq_add_one]
    ring
  | case2 offset h =>
    subst hoffset
    refine ⟨0, ?_, ?_⟩
    · rw [strided, dif_neg h]
      rfl
    · rw [add_zero]
      omega

end ZeroTrustFL
