import Mathlib

/-!
# Bitonic sorting

Sequences are functions on the natural numbers.  A stage of the network compares the elements at
positions that differ in one bit, in a direction that depends on the position; a merge runs the
stages of all lower bits, and a sort merges blocks of growing size with alternating directions.

Everything is seen through a threshold `t`: an exchange acts on the positions of the elements above
`t` by conjunction and disjunction, and so it is enough to follow which positions these are.
-/

namespace ZeroTrustFL

/-! ## Positions -/

section Positions

variable {k s i : ℕ}

/-- The lower half of a block has a zero bit. -/
theorem testBit_low (hs : 2 ^ (k + 1) ∣ s) (hi : i < 2 ^ k) : (s + i).testBit k = false := by
  obtain ⟨q, rfl⟩ := hs
  rw [pow_succ, mul_assoc, Nat.testBit_two_pow_mul_add _ hi, if_neg (lt_irrefl k), Nat.sub_self]
  simp

/-- Flipping the bit of a position in the lower half of a block moves it to the upper half. -/
theorem xor_low (hs : 2 ^ (k + 1) ∣ s) (hi : i < 2 ^ k) : (s + i) ^^^ 2 ^ k = s + 2 ^ k + i := by
  obtain ⟨q, rfl⟩ := hs
  have hlow : 2 ^ (k + 1) * q + i = 2 ^ k * (2 * q) + i := by ring
  have hhigh : 2 ^ (k + 1) * q + 2 ^ k + i = 2 ^ k * (2 * q + 1) + i := by ring
  refine Nat.eq_of_testBit_eq fun j => ?_
  rw [hlow, hhigh, Nat.testBit_xor, Nat.testBit_two_pow_mul_add _ hi,
    Nat.testBit_two_pow_mul_add _ hi, Nat.testBit_two_pow]
  rcases lt_trichotomy j k with hj | rfl | hj
  · simp [hj, hj.ne']
  · simp
  · obtain ⟨m, rfl⟩ := Nat.exists_eq_add_of_lt hj
    simp [Nat.testBit_succ, hj.ne, show k + m + 1 - k = m + 1 by omega,
      show ¬ k + m + 1 < k by omega, show (2 * q + 1) / 2 = q by omega]

theorem xor_high (hs : 2 ^ (k + 1) ∣ s) (hi : i < 2 ^ k) : (s + 2 ^ k + i) ^^^ 2 ^ k = s + i := by
  rw [← xor_low hs hi, Nat.xor_xor_cancel_right]

theorem testBit_high (hs : 2 ^ (k + 1) ∣ s) (hi : i < 2 ^ k) :
    (s + 2 ^ k + i).testBit k = true := by
  rw [← xor_low hs hi, Nat.testBit_xor, testBit_low hs hi, Nat.testBit_two_pow_self]
  rfl

/-- Every position lies in the lower or in the upper half of a block. -/
theorem low_or_high (k i : ℕ) :
    ∃ s r, 2 ^ (k + 1) ∣ s ∧ r < 2 ^ k ∧ (i = s + r ∨ i = s + 2 ^ k + r) := by
  have hdiv := Nat.div_add_mod i (2 ^ (k + 1))
  have hmod := Nat.mod_lt i (Nat.two_pow_pos (k + 1))
  rcases lt_or_ge (i % 2 ^ (k + 1)) (2 ^ k) with h | h
  · exact ⟨_, _, Dvd.intro _ rfl, h, .inl hdiv.symm⟩
  · refine ⟨2 ^ (k + 1) * (i / 2 ^ (k + 1)), i % 2 ^ (k + 1) - 2 ^ k, Dvd.intro _ rfl, ?_,
      .inr (by omega)⟩
    have hsucc : 2 ^ (k + 1) = 2 ^ k * 2 := pow_succ 2 k
    omega

theorem lt_xor_iff (k i : ℕ) : i < i ^^^ 2 ^ k ↔ i.testBit k = false := by
  have hpos := Nat.two_pow_pos k
  obtain ⟨s, r, hs, hr, rfl | rfl⟩ := low_or_high k i
  · rw [xor_low hs hr, testBit_low hs hr]
    exact iff_of_true (by omega) rfl
  · rw [xor_high hs hr, testBit_high hs hr]
    exact iff_of_false (by omega) (by decide)

end Positions

/-! ## The network -/

section Network

variable {α : Type*} [LinearOrder α]

/-- The lower of the two positions that differ from a position in at most bit `k`. -/
def lowerPartner (k i : ℕ) : ℕ := if i.testBit k then i ^^^ 2 ^ k else i

/-- Whether the elements at a position and its partner change places. -/
def swaps (ascending : ℕ → Bool) (k : ℕ) (x : ℕ → α) (i : ℕ) : Bool :=
  decide (x (i ^^^ 2 ^ k) < x i) == ascending i

/-- One stage: all pairs of positions that differ in bit `k` are compared. -/
def exchangeAll (ascending : ℕ → Bool) (k : ℕ) (x : ℕ → α) (i : ℕ) : α :=
  if swaps ascending k x (lowerPartner k i) then x (i ^^^ 2 ^ k) else x i

/-- The stages of the bits below `k`, the highest one first. -/
def mergeAll (ascending : ℕ → Bool) : ℕ → (ℕ → α) → ℕ → α
  | 0, x => x
  | k + 1, x => mergeAll ascending k (exchangeAll ascending k x)

/-- Blocks of positions are sorted upwards when the bit above them is zero. -/
def bitonicSort : ℕ → (ℕ → α) → ℕ → α
  | 0, x => x
  | k + 1, x => mergeAll (fun i => !i.testBit (k + 1)) (k + 1) (bitonicSort k x)

variable {ascending : ℕ → Bool} {k s i : ℕ} {x : ℕ → α}

theorem lowerPartner_low (hs : 2 ^ (k + 1) ∣ s) (hi : i < 2 ^ k) :
    lowerPartner k (s + i) = s + i := by
  rw [lowerPartner, testBit_low hs hi]
  rfl

theorem lowerPartner_high (hs : 2 ^ (k + 1) ∣ s) (hi : i < 2 ^ k) :
    lowerPartner k (s + 2 ^ k + i) = s + i := by
  rw [lowerPartner, testBit_high hs hi, xor_high hs hi]
  rfl

theorem exchangeAll_low (hs : 2 ^ (k + 1) ∣ s) (hi : i < 2 ^ k) :
    exchangeAll ascending k x (s + i) =
      if ascending (s + i) then min (x (s + i)) (x (s + 2 ^ k + i))
      else max (x (s + i)) (x (s + 2 ^ k + i)) := by
  rw [exchangeAll, lowerPartner_low hs hi, swaps, xor_low hs hi]
  rcases ascending (s + i) <;> rcases lt_or_ge (x (s + 2 ^ k + i)) (x (s + i)) with h | h
  · simp [h, h.le]
  · simp [h, not_lt.2 h]
  · simp [h, h.le]
  · simp [h, not_lt.2 h]

theorem exchangeAll_high (hs : 2 ^ (k + 1) ∣ s) (hi : i < 2 ^ k) :
    exchangeAll ascending k x (s + 2 ^ k + i) =
      if ascending (s + i) then max (x (s + i)) (x (s + 2 ^ k + i))
      else min (x (s + i)) (x (s + 2 ^ k + i)) := by
  rw [exchangeAll, lowerPartner_high hs hi, swaps, xor_low hs hi, xor_high hs hi]
  rcases ascending (s + i) <;> rcases lt_or_ge (x (s + 2 ^ k + i)) (x (s + i)) with h | h
  · simp [h, h.le]
  · simp [h, not_lt.2 h]
  · simp [h, h.le]
  · simp [h, not_lt.2 h]

/-- An exchange of a bit below `m` depends on the first `2 ^ m` elements only. -/
theorem exchangeAll_congr {m : ℕ} (hk : k < m) {y : ℕ → α} (h : ∀ i < 2 ^ m, x i = y i) :
    ∀ i < 2 ^ m, exchangeAll ascending k x i = exchangeAll ascending k y i := by
  intro i hi
  have hxor (i : ℕ) (hi : i < 2 ^ m) : i ^^^ 2 ^ k < 2 ^ m :=
    Nat.xor_lt_two_pow hi (Nat.pow_lt_pow_right (by decide) hk)
  have hlower : lowerPartner k i < 2 ^ m := by
    unfold lowerPartner
    split_ifs
    exacts [hxor i hi, hi]
  rw [exchangeAll, exchangeAll, swaps, swaps, h i hi, h _ (hxor i hi), h _ hlower,
    h _ (hxor _ hlower)]

/-- What all elements of a block have, they have after an exchange. -/
theorem forall_exchangeAll {P : α → Prop} (hs : 2 ^ (k + 1) ∣ s)
    (h : ∀ i < 2 ^ (k + 1), P (x (s + i))) :
    ∀ i < 2 ^ (k + 1), P (exchangeAll ascending k x (s + i)) := by
  intro i hi
  rw [pow_succ] at hi
  have hlow (r : ℕ) (hr : r < 2 ^ k) : P (x (s + r)) := h r (by rw [pow_succ]; omega)
  have hhigh (r : ℕ) (hr : r < 2 ^ k) : P (x (s + 2 ^ k + r)) := by
    rw [add_assoc]
    exact h (2 ^ k + r) (by rw [pow_succ]; omega)
  rcases lt_or_ge i (2 ^ k) with hik | hik
  · rw [exchangeAll, xor_low hs hik]
    split_ifs
    exacts [hhigh i hik, hlow i hik]
  · obtain ⟨r, rfl⟩ := Nat.exists_eq_add_of_le hik
    rw [← add_assoc, exchangeAll, xor_high hs (by omega)]
    split_ifs
    exacts [hlow r (by omega), hhigh r (by omega)]

theorem dvd_low (hs : 2 ^ (k + 1) ∣ s) : 2 ^ k ∣ s := (pow_dvd_pow 2 (Nat.le_succ k)).trans hs

theorem dvd_high (hs : 2 ^ (k + 1) ∣ s) : 2 ^ k ∣ s + 2 ^ k := (dvd_low hs).add (dvd_refl _)

theorem forall_mergeAll {P : α → Prop} (hs : 2 ^ k ∣ s) (h : ∀ i < 2 ^ k, P (x (s + i))) :
    ∀ i < 2 ^ k, P (mergeAll ascending k x (s + i)) := by
  induction k generalizing x s with
  | zero => exact h
  | succ k ih =>
    have hexchange : ∀ i < 2 ^ (k + 1), P (exchangeAll ascending k x (s + i)) :=
      forall_exchangeAll hs h
    intro i hi
    rw [pow_succ] at hi hexchange
    rcases lt_or_ge i (2 ^ k) with hik | hik
    · exact ih (dvd_low hs) (fun r hr => hexchange r (by omega)) i hik
    · obtain ⟨r, rfl⟩ := Nat.exists_eq_add_of_le hik
      rw [← add_assoc]
      refine ih (dvd_high hs) (fun r hr => ?_) r (by omega)
      rw [add_assoc]
      exact hexchange (2 ^ k + r) (by omega)

end Network

/-! ## Positions above a threshold -/

/-- From some place on, going round, the positions below `m` have a property up to another place. -/
def Cyclic (m : ℕ) (p : ℕ → Prop) : Prop :=
  ∃ a c, a ≤ m ∧ c ≤ m ∧ ∀ i < m, p i ↔ a ≤ i ∧ i < a + c ∨ i + m < a + c

/-- The property spreads from lower to higher positions below `m`, or from higher to lower ones. -/
def Spreads (up : Bool) (m : ℕ) (p : ℕ → Prop) : Prop :=
  ∀ i j, i ≤ j → j < m → if up then p i → p j else p j → p i

section Threshold

variable {m : ℕ} {p : ℕ → Prop}

theorem cyclic_of_not (h : ∀ i < m, ¬ p i) : Cyclic m p :=
  ⟨0, 0, by omega, by omega, fun i hi => iff_of_false (h i hi) (by omega)⟩

theorem cyclic_of_forall (h : ∀ i < m, p i) : Cyclic m p :=
  ⟨0, m, by omega, by omega, fun i hi => iff_of_true (h i hi) (by omega)⟩

/-- Comparing the halves leaves one of them uniform and the other one cyclic. -/
theorem Cyclic.halves (h : Cyclic (2 * m) p) :
    (∀ i < m, ¬ (p i ∧ p (m + i))) ∧ Cyclic m (fun i => p i ∨ p (m + i)) ∨
      (∀ i < m, p i ∨ p (m + i)) ∧ Cyclic m (fun i => p i ∧ p (m + i)) := by
  obtain ⟨a, c, ha, hc, hp⟩ := h
  have hlow (i : ℕ) (hi : i < m) := hp i (by omega)
  have hhigh (i : ℕ) (hi : i < m) := hp (m + i) (by omega)
  rcases le_or_gt c m with hcm | hcm
  · refine .inl ⟨fun i hi => ?_, if a < m then a else a - m, c, ?_, hcm, fun i hi => ?_⟩
    · rw [hlow i hi, hhigh i hi]
      omega
    · split_ifs <;> omega
    · simp only [hlow i hi, hhigh i hi]
      split_ifs <;> omega
  · refine .inr ⟨fun i hi => ?_, if a < m then a else a - m, c - m, ?_, by omega, fun i hi => ?_⟩
    · rw [hlow i hi, hhigh i hi]
      omega
    · split_ifs <;> omega
    · simp only [hlow i hi, hhigh i hi]
      split_ifs <;> omega

theorem Spreads.exists_start (h : Spreads true m p) : ∃ a ≤ m, ∀ i < m, p i ↔ a ≤ i := by
  induction m with
  | zero => exact ⟨0, le_rfl, fun i hi => absurd hi (Nat.not_lt_zero i)⟩
  | succ m ih =>
    obtain ⟨a, ha, hp⟩ := ih fun i j hij hj => h i j hij (by omega)
    by_cases hm : p m
    · refine ⟨a, by omega, fun i hi => ?_⟩
      rcases Nat.lt_succ_iff_lt_or_eq.1 hi with hi | rfl
      · exact hp i hi
      · exact iff_of_true hm ha
    · refine ⟨m + 1, le_rfl, fun i hi => iff_of_false (fun hpi => hm ?_) (by omega)⟩
      exact h i m (by omega) (by omega) hpi

theorem Spreads.exists_stop (h : Spreads false m p) : ∃ b ≤ m, ∀ i < m, p i ↔ i < b := by
  have hnot : Spreads true m fun i => ¬ p i := fun i j hij hj hpi hpj => hpi (h i j hij hj hpj)
  obtain ⟨b, hb, hp⟩ := hnot.exists_start
  refine ⟨b, hb, fun i hi => ?_⟩
  have := hp i hi
  rw [← not_le, ← this, not_not]

/-- A rise followed by a fall. -/
theorem cyclic_of_spreads (hlow : Spreads true m p) (hhigh : Spreads false m fun i => p (m + i)) :
    Cyclic (2 * m) p := by
  obtain ⟨a, ha, hpa⟩ := hlow.exists_start
  obtain ⟨b, hb, hpb⟩ := hhigh.exists_stop
  refine ⟨a, m + b - a, by omega, by omega, fun i hi => ?_⟩
  rcases lt_or_ge i m with him | him
  · rw [hpa i him]
    omega
  · obtain ⟨j, rfl⟩ := Nat.exists_eq_add_of_le him
    rw [hpb j (by omega)]
    omega

theorem Spreads.append {up : Bool} (hlow : Spreads up m p) (hhigh : Spreads up m fun i => p (m + i))
    (hcross : ∀ i < m, ∀ j < m, if up then p i → p (m + j) else p (m + j) → p i) :
    Spreads up (2 * m) p := by
  intro i j hij hj
  rcases lt_or_ge j m with hjm | hjm
  · exact hlow i j hij hjm
  · obtain ⟨j, rfl⟩ := Nat.exists_eq_add_of_le hjm
    rcases lt_or_ge i m with him | him
    · exact hcross i him j (by omega)
    · obtain ⟨i, rfl⟩ := Nat.exists_eq_add_of_le him
      exact hhigh i j (by omega) (by omega)

end Threshold

/-! ## Sorting -/

section Sorting

variable {α : Type*} [LinearOrder α] {ascending : ℕ → Bool} {k s : ℕ} {x : ℕ → α} {t : α}

theorem Cyclic.congr {m : ℕ} {p p' : ℕ → Prop} (h : Cyclic m p) (hp : ∀ i < m, p' i ↔ p i) :
    Cyclic m p' := by
  obtain ⟨a, c, ha, hc, hpc⟩ := h
  exact ⟨a, c, ha, hc, fun i hi => (hp i hi).trans (hpc i hi)⟩

/-- An exchange leaves both halves of a block cyclic, and one of them on its side of the
threshold. -/
theorem cyclic_exchangeAll {up : Bool} (hs : 2 ^ (k + 1) ∣ s)
    (hup : ∀ i < 2 ^ k, ascending (s + i) = up) (h : Cyclic (2 * 2 ^ k) fun i => t < x (s + i)) :
    Cyclic (2 ^ k) (fun i => t < exchangeAll ascending k x (s + i)) ∧
      Cyclic (2 ^ k) (fun i => t < exchangeAll ascending k x (s + 2 ^ k + i)) ∧
      ((∀ i < 2 ^ k, (t < exchangeAll ascending k x (s + i)) ↔ up = false) ∨
        ∀ i < 2 ^ k, (t < exchangeAll ascending k x (s + 2 ^ k + i)) ↔ up = true) := by
  have hhalves := h.halves
  simp only [← add_assoc] at hhalves
  have hlow (i : ℕ) (hi : i < 2 ^ k) : t < exchangeAll ascending k x (s + i) ↔
      if up then t < x (s + i) ∧ t < x (s + 2 ^ k + i) else t < x (s + i) ∨
          t < x (s + 2 ^ k + i) := by
    rw [exchangeAll_low hs hi, hup i hi]
    cases up
    · exact lt_max_iff
    · exact lt_min_iff
  have hhigh (i : ℕ) (hi : i < 2 ^ k) : t < exchangeAll ascending k x (s + 2 ^ k + i) ↔
      if up then t < x (s + i) ∨ t < x (s + 2 ^ k + i) else t < x (s + i) ∧
          t < x (s + 2 ^ k + i) := by
    rw [exchangeAll_high hs hi, hup i hi]
    cases up
    · exact lt_min_iff
    · exact lt_max_iff
  cases up
  · rcases hhalves with ⟨hnone, hcyclic⟩ | ⟨hall, hcyclic⟩
    · exact ⟨hcyclic.congr hlow, (cyclic_of_not hnone).congr hhigh,
        .inr fun i hi => iff_of_false (fun h => hnone i hi ((hhigh i hi).1 h)) (by decide)⟩
    · exact ⟨(cyclic_of_forall hall).congr hlow, hcyclic.congr hhigh,
        .inl fun i hi => iff_of_true ((hlow i hi).2 (hall i hi)) rfl⟩
  · rcases hhalves with ⟨hnone, hcyclic⟩ | ⟨hall, hcyclic⟩
    · exact ⟨(cyclic_of_not hnone).congr hlow, hcyclic.congr hhigh,
        .inl fun i hi => iff_of_false (fun h => hnone i hi ((hlow i hi).1 h)) (by decide)⟩
    · exact ⟨hcyclic.congr hlow, (cyclic_of_forall hall).congr hhigh,
        .inr fun i hi => iff_of_true ((hhigh i hi).2 (hall i hi)) rfl⟩

/-- A merge sorts a block in which the elements above the threshold are in a cyclic interval. -/
theorem spreads_mergeAll {up : Bool} (hs : 2 ^ k ∣ s) (hup : ∀ i < 2 ^ k, ascending (s + i) = up)
    (h : Cyclic (2 ^ k) fun i => t < x (s + i)) :
    Spreads up (2 ^ k) fun i => t < mergeAll ascending k x (s + i) := by
  induction k generalizing x s with
  | zero =>
    intro i j hij hj
    obtain rfl : i = j := by omega
    split_ifs <;> exact id
  | succ k ih =>
    have hsize : 2 ^ (k + 1) = 2 * 2 ^ k := by rw [pow_succ, mul_comm]
    have huplow (i : ℕ) (hi : i < 2 ^ k) : ascending (s + i) = up := hup i (by omega)
    have huphigh (i : ℕ) (hi : i < 2 ^ k) : ascending (s + 2 ^ k + i) = up := by
      rw [add_assoc]
      exact hup _ (by omega)
    rw [hsize] at h ⊢
    obtain ⟨hlow, hhigh, hside⟩ := cyclic_exchangeAll hs huplow h
    refine (ih (dvd_low hs) huplow hlow).append ?_ fun i hi j hj => ?_
    · simp only [← add_assoc]
      exact ih (dvd_high hs) huphigh hhigh
    · -- merging keeps one half on its side
      rw [← add_assoc]
      rcases hside with hside | hside
      · have hkept : t < mergeAll ascending (k + 1) x (s + i) ↔ up = false :=
          forall_mergeAll (P := fun a => t < a ↔ up = false) (dvd_low hs) hside i hi
        cases up
        · exact fun _ => hkept.2 rfl
        · exact fun h => absurd (hkept.1 h) (by decide)
      · have hkept : t < mergeAll ascending (k + 1) x (s + 2 ^ k + j) ↔ up = true :=
          forall_mergeAll (P := fun a => t < a ↔ up = true) (dvd_high hs) hside j hj
        cases up
        · exact fun h => absurd (hkept.1 h) (by decide)
        · exact fun _ => hkept.2 rfl

/-- After the sort, aligned blocks are sorted in alternating directions. -/
theorem spreads_bitonicSort (hs : 2 ^ k ∣ s) :
    Spreads (!s.testBit k) (2 ^ k) fun i => t < bitonicSort k x (s + i) := by
  induction k generalizing s with
  | zero =>
    intro i j hij hj
    obtain rfl : i = j := by omega
    split_ifs <;> exact id
  | succ k ih =>
    have hsize : 2 ^ (k + 1) = 2 * 2 ^ k := by rw [pow_succ, mul_comm]
    have hdirection (i : ℕ) (hi : i < 2 ^ (k + 1)) : (!(s + i).testBit (k + 1)) =
        !s.testBit (k + 1) := by
      obtain ⟨q, rfl⟩ := hs
      have hzero := Nat.testBit_two_pow_mul_add q (Nat.two_pow_pos (k + 1)) (k + 1)
      rw [add_zero] at hzero
      rw [Nat.testBit_two_pow_mul_add q hi, hzero, if_neg (lt_irrefl _), if_neg (lt_irrefl _)]
    refine spreads_mergeAll hs hdirection ?_
    rw [hsize]
    have hlow := ih (dvd_low hs)
    have hhigh := ih (dvd_high hs)
    have hbitlow := testBit_low hs (Nat.two_pow_pos k)
    have hbithigh := testBit_high hs (Nat.two_pow_pos k)
    rw [add_zero] at hbitlow hbithigh
    rw [hbitlow] at hlow
    rw [hbithigh] at hhigh
    refine cyclic_of_spreads hlow ?_
    simp only [← add_assoc]
    exact hhigh

/-- The network sorts a block of a power of two elements. -/
theorem monotone_bitonicSort (k : ℕ) (x : ℕ → α) {i j : ℕ} (hij : i ≤ j) (hj : j < 2 ^ k) :
    bitonicSort k x i ≤ bitonicSort k x j := by
  by_contra hlt
  have hspread := spreads_bitonicSort (x := x) (t := bitonicSort k x j)
    (dvd_zero (2 ^ k)) i j hij hj
  simp only [Nat.zero_testBit, Bool.not_false, if_true, zero_add] at hspread
  exact absurd (hspread (not_le.1 hlt)) (lt_irrefl _)

/-! ## Rearrangement -/

theorem lowerPartner_xor (k i : ℕ) : lowerPartner k (i ^^^ 2 ^ k) = lowerPartner k i := by
  obtain ⟨s, r, hs, hr, rfl | rfl⟩ := low_or_high k i
  · rw [xor_low hs hr, lowerPartner_high hs hr, lowerPartner_low hs hr]
  · rw [xor_high hs hr, lowerPartner_high hs hr, lowerPartner_low hs hr]

/-- Where an exchange takes the element of a position from. -/
def exchangeFrom (ascending : ℕ → Bool) (k : ℕ) (x : ℕ → α) (i : ℕ) : ℕ :=
  if swaps ascending k x (lowerPartner k i) then i ^^^ 2 ^ k else i

theorem exchangeFrom_involutive : Function.Involutive (exchangeFrom ascending k x) := by
  intro i
  unfold exchangeFrom
  rcases hswaps : swaps ascending k x (lowerPartner k i)
  · simp [hswaps]
  · simp [lowerPartner_xor, hswaps]

theorem exchangeAll_eq (i : ℕ) :
    exchangeAll ascending k x i = x (exchangeFrom ascending k x i) := by
  rw [exchangeAll, exchangeFrom]
  split_ifs <;> rfl

/-- An exchange of a bit below `m` rearranges the first `2 ^ m` elements. -/
theorem exchangeAll_perm {m : ℕ} (hk : k < m) :
    ((List.range (2 ^ m)).map (exchangeAll ascending k x)).Perm ((List.range (2 ^ m)).map x) := by
  have hpositions : ((List.range (2 ^ m)).map (exchangeFrom ascending k x)).Perm
      (List.range (2 ^ m)) := by
    have hnodup : ((List.range (2 ^ m)).map (exchangeFrom ascending k x)).Nodup :=
      List.nodup_range.map exchangeFrom_involutive.injective
    refine (List.subperm_of_subset hnodup fun i hi => ?_).perm_of_length_le (by simp)
    obtain ⟨j, hj, rfl⟩ := List.mem_map.1 hi
    rw [List.mem_range] at hj ⊢
    unfold exchangeFrom
    split_ifs
    · exact Nat.xor_lt_two_pow hj (Nat.pow_lt_pow_right (by decide) hk)
    · exact hj
  have hmap : (List.range (2 ^ m)).map (exchangeAll ascending k x) =
      ((List.range (2 ^ m)).map (exchangeFrom ascending k x)).map x := by
    rw [List.map_map]
    exact List.map_congr_left fun i _ => exchangeAll_eq i
  rw [hmap]
  exact hpositions.map x

theorem mergeAll_perm {m : ℕ} (hk : k ≤ m) :
    ((List.range (2 ^ m)).map (mergeAll ascending k x)).Perm ((List.range (2 ^ m)).map x) := by
  induction k generalizing x with
  | zero => exact .refl _
  | succ k ih => exact (ih (by omega)).trans (exchangeAll_perm hk)

theorem bitonicSort_perm {m : ℕ} (hk : k ≤ m) :
    ((List.range (2 ^ m)).map (bitonicSort k x)).Perm ((List.range (2 ^ m)).map x) := by
  induction k with
  | zero => exact .refl _
  | succ k ih => exact (mergeAll_perm hk).trans (ih (by omega))

end Sorting

end ZeroTrustFL
