import Mathlib
import ZeroTrustFL.Lib.OrderStatistics
import ZeroTrustFL.Worker.Training

/-!
# Composition of the reported privacy loss

`RDPAccountant` of `privacy/rdp.py` over a linearly ordered field, with the logarithm of `1 / delta`
as a positive constant.  The reported epsilon is the smallest bound that an order gives.  It grows
with the releases, is at most the sum of the epsilons of two parts of them, and does not depend on
how the orders are listed.
-/

namespace ZeroTrustFL

/-! ## The accountant -/

/-- The part of `LocalDPConfig` that the accountant reads, with `log (1 / delta)` in place of
`delta`. -/
structure ExactDPConfig (K : Type*) [Field K] [LinearOrder K] where
  enabled : Bool
  noiseMultiplier : K
  logInverseDelta : K
  orders : List K
  noiseMultiplier_pos : 0 < noiseMultiplier
  logInverseDelta_pos : 0 < logInverseDelta
  orders_ne_nil : orders ≠ []
  one_lt_orders : ∀ alpha ∈ orders, 1 < alpha

namespace ExactDPConfig

variable {K : Type*} [Field K] [LinearOrder K]

def rdp (config : ExactDPConfig K) (releases : ℕ) (alpha : K) : K :=
  if config.enabled = false ∨ releases = 0 then 0
  else
    let sigma := config.noiseMultiplier
    releases * alpha / (2 * sigma * sigma)

/-- The bound that one order gives. -/
def epsilonOf (config : ExactDPConfig K) (releases : ℕ) (alpha : K) : K :=
  config.rdp releases alpha + config.logInverseDelta / (alpha - 1)

/-- The epsilon that the accountant reports after the releases, and its order. -/
def epsilon (config : ExactDPConfig K) (releases : ℕ) : K × K :=
  if config.enabled = false ∨ releases = 0 then (0, config.orders.headD 0)
  else (smallest (config.epsilonOf releases) config.orders).getD (0, config.orders.headD 0)

/-- The same configuration with its orders listed in another way. -/
def reorder (config : ExactDPConfig K) (orders : List K) (h : orders.Perm config.orders) :
    ExactDPConfig K :=
  { config with
    orders := orders
    orders_ne_nil := fun hnil => config.orders_ne_nil (List.perm_nil.1 (hnil ▸ h.symm))
    one_lt_orders := fun alpha halpha => config.one_lt_orders alpha (h.mem_iff.1 halpha) }

theorem epsilon_of_inactive (config : ExactDPConfig K) {n : ℕ}
    (h : config.enabled = false ∨ n = 0) : (config.epsilon n).1 = 0 := by
  rw [epsilon, if_pos h]

/-- The accountant reports the smallest of the bounds. -/
theorem epsilon_spec (config : ExactDPConfig K) {n : ℕ} (h : ¬ (config.enabled = false ∨ n = 0)) :
    ∃ alpha ∈ config.orders, (config.epsilon n).1 = config.epsilonOf n alpha ∧
      ∀ beta ∈ config.orders, config.epsilonOf n alpha ≤ config.epsilonOf n beta := by
  obtain ⟨alpha, hmem, hsmallest, hle⟩ := smallest_spec (config.epsilonOf n) config.orders_ne_nil
  refine ⟨alpha, hmem, ?_, hle⟩
  rw [epsilon, if_neg h, hsmallest]
  rfl

theorem rdp_of_enabled {config : ExactDPConfig K} (henabled : config.enabled ≠ false) (n : ℕ)
    (alpha : K) :
    config.rdp n alpha = n * alpha / (2 * config.noiseMultiplier * config.noiseMultiplier) := by
  rcases eq_or_ne n 0 with rfl | hn
  · rw [rdp, if_pos (.inr rfl), Nat.cast_zero, zero_mul, zero_div]
  · rw [rdp, if_neg (not_or.2 ⟨henabled, hn⟩)]

/-- The divergences of two parts of the releases add up. -/
theorem rdp_add {config : ExactDPConfig K} (henabled : config.enabled ≠ false) (n m : ℕ)
    (alpha : K) : config.rdp (n + m) alpha = config.rdp n alpha + config.rdp m alpha := by
  simp only [rdp_of_enabled henabled, Nat.cast_add, add_mul, add_div]

section

variable [IsStrictOrderedRing K] {config : ExactDPConfig K} {m n : ℕ} {alpha beta : K}

theorem two_mul_sigma_pos (config : ExactDPConfig K) :
    0 < 2 * config.noiseMultiplier * config.noiseMultiplier :=
  mul_pos (mul_pos two_pos config.noiseMultiplier_pos) config.noiseMultiplier_pos

theorem rdp_nonneg (config : ExactDPConfig K) (n : ℕ) (halpha : 1 < alpha) :
    0 ≤ config.rdp n alpha := by
  unfold rdp
  split_ifs
  · exact le_rfl
  · have halpha' : 0 ≤ alpha := zero_le_one.trans halpha.le
    exact div_nonneg (mul_nonneg (Nat.cast_nonneg n) halpha') config.two_mul_sigma_pos.le

theorem rdp_mono (henabled : config.enabled ≠ false) (n : ℕ) (h : alpha ≤ beta) :
    config.rdp n alpha ≤ config.rdp n beta := by
  have hsigma := config.two_mul_sigma_pos
  rw [rdp_of_enabled henabled, rdp_of_enabled henabled]
  gcongr

theorem log_term_nonneg (config : ExactDPConfig K) (halpha : 1 < alpha) :
    0 ≤ config.logInverseDelta / (alpha - 1) :=
  div_nonneg config.logInverseDelta_pos.le (sub_pos.2 halpha).le

theorem epsilonOf_nonneg (config : ExactDPConfig K) (n : ℕ) (halpha : 1 < alpha) :
    0 ≤ config.epsilonOf n alpha :=
  add_nonneg (config.rdp_nonneg n halpha) (config.log_term_nonneg halpha)

theorem epsilon_nonneg (config : ExactDPConfig K) (n : ℕ) : 0 ≤ (config.epsilon n).1 := by
  by_cases h : config.enabled = false ∨ n = 0
  · exact (config.epsilon_of_inactive h).ge
  · obtain ⟨alpha, hmem, heq, -⟩ := config.epsilon_spec h
    rw [heq]
    exact config.epsilonOf_nonneg n (config.one_lt_orders alpha hmem)

theorem epsilon_le_epsilonOf (config : ExactDPConfig K) (n : ℕ) (hmem : alpha ∈ config.orders) :
    (config.epsilon n).1 ≤ config.epsilonOf n alpha := by
  by_cases h : config.enabled = false ∨ n = 0
  · rw [config.epsilon_of_inactive h]
    exact config.epsilonOf_nonneg n (config.one_lt_orders alpha hmem)
  · obtain ⟨beta, -, heq, hle⟩ := config.epsilon_spec h
    exact heq.trans_le (hle alpha hmem)

theorem monotone_epsilon (config : ExactDPConfig K) : Monotone fun n => (config.epsilon n).1 := by
  intro n m hnm
  dsimp only
  by_cases h : config.enabled = false ∨ n = 0
  · rw [config.epsilon_of_inactive h]
    exact config.epsilon_nonneg m
  · obtain ⟨henabled, hn⟩ := not_or.1 h
    have hm : ¬ (config.enabled = false ∨ m = 0) := not_or.2 ⟨henabled, by omega⟩
    obtain ⟨alpha, hmem, heq, -⟩ := config.epsilon_spec hm
    have hrdp : config.rdp n alpha ≤ config.rdp m alpha := by
      obtain ⟨k, rfl⟩ := Nat.exists_eq_add_of_le hnm
      rw [rdp_add henabled]
      exact le_add_of_nonneg_right (config.rdp_nonneg k (config.one_lt_orders alpha hmem))
    calc (config.epsilon n).1 ≤ config.epsilonOf n alpha := config.epsilon_le_epsilonOf n hmem
      _ ≤ config.epsilonOf m alpha := add_le_add hrdp le_rfl
      _ = (config.epsilon m).1 := heq.symm

/-- The smaller of two orders bounds all the releases by what the two orders give for the parts. -/
theorem epsilonOf_add_le (henabled : config.enabled ≠ false) (n m : ℕ) (h : alpha ≤ beta)
    (hbeta : 1 < beta) :
    config.epsilonOf (n + m) alpha ≤ config.epsilonOf n alpha + config.epsilonOf m beta := by
  have hrdp := rdp_mono henabled m h
  have hlog := config.log_term_nonneg hbeta
  rw [epsilonOf, epsilonOf, epsilonOf, rdp_add henabled]
  linarith

theorem epsilon_add_le (config : ExactDPConfig K) (n m : ℕ) :
    (config.epsilon (n + m)).1 ≤ (config.epsilon n).1 + (config.epsilon m).1 := by
  by_cases hn : config.enabled = false ∨ n = 0
  · rw [config.epsilon_of_inactive hn, zero_add]
    rcases hn with hn | rfl
    · rw [config.epsilon_of_inactive (.inl hn), config.epsilon_of_inactive (.inl hn)]
    · rw [zero_add]
  by_cases hm : config.enabled = false ∨ m = 0
  · obtain rfl := hm.resolve_left (not_or.1 hn).1
    rw [config.epsilon_of_inactive hm, add_zero, add_zero]
  obtain ⟨alpha, halpha, hepsilon, -⟩ := config.epsilon_spec hn
  obtain ⟨beta, hbeta, hepsilon', -⟩ := config.epsilon_spec hm
  have henabled := (not_or.1 hn).1
  rw [hepsilon, hepsilon']
  rcases le_total alpha beta with h | h
  · exact (config.epsilon_le_epsilonOf _ halpha).trans
      (epsilonOf_add_le henabled n m h (config.one_lt_orders beta hbeta))
  · rw [add_comm n m, add_comm (config.epsilonOf n alpha)]
    exact (config.epsilon_le_epsilonOf _ hbeta).trans
      (epsilonOf_add_le henabled m n h (config.one_lt_orders alpha halpha))

theorem epsilon_reorder_le (config : ExactDPConfig K) {orders : List K}
    (h : orders.Perm config.orders) (n : ℕ) :
    ((config.reorder orders h).epsilon n).1 ≤ (config.epsilon n).1 := by
  by_cases hactive : config.enabled = false ∨ n = 0
  · rw [config.epsilon_of_inactive hactive, (config.reorder orders h).epsilon_of_inactive hactive]
  · obtain ⟨alpha, hmem, heq, -⟩ := config.epsilon_spec hactive
    rw [heq]
    exact (config.reorder orders h).epsilon_le_epsilonOf n (h.mem_iff.2 hmem)

theorem epsilon_reorder (config : ExactDPConfig K) {orders : List K} (h : orders.Perm config.orders)
    (n : ℕ) : ((config.reorder orders h).epsilon n).1 = (config.epsilon n).1 :=
  le_antisymm (config.epsilon_reorder_le h n)
    ((config.reorder orders h).epsilon_reorder_le h.symm n)

end

end ExactDPConfig

/-! ## The accountant of the worker -/

inductive Adjacency where
  | addRemove
  | replace
deriving DecidableEq

/-- `LocalDPConfig` with what its constructor checks. -/
structure LocalDPConfig where
  enabled : Bool
  clipNorm : ℚ
  noiseMultiplier : ℚ
  delta : ℚ
  adjacency : Adjacency
  orders : List ℚ
  clipNorm_pos : 0 < clipNorm
  noiseMultiplier_pos : 0 < noiseMultiplier
  delta_pos : 0 < delta
  delta_lt_one : delta < 1
  orders_ne_nil : orders ≠ []
  one_lt_orders : ∀ alpha ∈ orders, 1 < alpha

namespace LocalDPConfig

def sensitivity (config : LocalDPConfig) : ℚ :=
  config.clipNorm * if config.adjacency = .replace then 2 else 1

def noiseStd (config : LocalDPConfig) : ℚ := config.noiseMultiplier * config.sensitivity

end LocalDPConfig

/-- The configuration with its numbers as reals. -/
noncomputable def LocalDPConfig.exact (config : LocalDPConfig) : ExactDPConfig ℝ where
  enabled := config.enabled
  noiseMultiplier := config.noiseMultiplier
  logInverseDelta := Real.log (1 / config.delta)
  orders := config.orders.map (↑)
  noiseMultiplier_pos := Rat.cast_pos.2 config.noiseMultiplier_pos
  logInverseDelta_pos :=
    Real.log_pos (one_lt_one_div (Rat.cast_pos.2 config.delta_pos)
      (by exact_mod_cast config.delta_lt_one))
  orders_ne_nil := fun h => config.orders_ne_nil (List.map_eq_nil_iff.1 h)
  one_lt_orders := by
    intro alpha halpha
    obtain ⟨beta, hbeta, rfl⟩ := List.mem_map.1 halpha
    exact_mod_cast config.one_lt_orders beta hbeta

structure RDPAccountant where
  config : LocalDPConfig
  releases : ℕ

namespace RDPAccountant

def step (accountant : RDPAccountant) (count : ℤ) : Except Raised RDPAccountant :=
  if count ≤ 0 then .error ⟨"ValueError", "count must be positive"⟩
  else .ok { accountant with releases := accountant.releases + count.toNat }

noncomputable def rdp (accountant : RDPAccountant) (alpha : ℝ) : ℝ :=
  accountant.config.exact.rdp accountant.releases alpha

/-- The epsilon that is reported for the configured delta, and its order. -/
noncomputable def epsilon (accountant : RDPAccountant) : ℝ × ℝ :=
  accountant.config.exact.epsilon accountant.releases

end RDPAccountant

/-- Privacy with the default orders. -/
def sampleDP : LocalDPConfig where
  enabled := true
  clipNorm := 1
  noiseMultiplier := 1
  delta := 1 / 100000
  adjacency := .replace
  orders := [5 / 4, 3 / 2, 7 / 4, 2, 3, 4, 5, 8, 10, 16, 32, 64]
  clipNorm_pos := by norm_num
  noiseMultiplier_pos := by norm_num
  delta_pos := by norm_num
  delta_lt_one := by norm_num
  orders_ne_nil := by simp
  one_lt_orders := by norm_num

/-- Over the reals the reported epsilon grows with the releases, composes, and does not depend on
how the orders are listed. -/
theorem epsilon_composes (config : ExactDPConfig ℝ) :
    (∀ n m, n ≤ m → (config.epsilon n).1 ≤ (config.epsilon m).1) ∧
    (∀ n m, (config.epsilon (n + m)).1 ≤ (config.epsilon n).1 + (config.epsilon m).1) ∧
    ∀ orders (h : orders.Perm config.orders) n,
      ((config.reorder orders h).epsilon n).1 = (config.epsilon n).1 :=
  ⟨fun _ _ h => config.monotone_epsilon h, config.epsilon_add_le, fun _ h n =>
    config.epsilon_reorder h n⟩

theorem epsilon_composes_sampleDP :
    (sampleDP.exact.epsilon 2).1 ≤ (sampleDP.exact.epsilon 5).1 ∧
    (sampleDP.exact.epsilon (2 + 3)).1 ≤ (sampleDP.exact.epsilon 2).1 +
      (sampleDP.exact.epsilon 3).1 ∧
    ((sampleDP.exact.reorder _ (List.reverse_perm sampleDP.exact.orders)).epsilon 2).1 =
      (sampleDP.exact.epsilon 2).1 :=
  have h := epsilon_composes sampleDP.exact
  ⟨h.1 2 5 (by norm_num), h.2.1 2 3, h.2.2 _ _ 2⟩

end ZeroTrustFL
