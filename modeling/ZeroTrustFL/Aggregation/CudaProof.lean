import Mathlib
import ZeroTrustFL.Lib.Bitonic
import ZeroTrustFL.Aggregation.Cuda
import ZeroTrustFL.Aggregation.Breakdown

/-!
# The device computes the trimmed mean

The phases of the kernel have no races, the exchanges are those of the bitonic network, and the
reduction adds up all cells.  So every coordinate is written once, with the trimmed mean of the
native aggregator.
-/

namespace ZeroTrustFL

namespace Cuda

/-! ## Loops -/

theorem halvings_two_pow_succ (k : ℕ) :
    halvings (2 ^ (k + 1) >>> 1) = 2 ^ k :: halvings (2 ^ k >>> 1) := by
  have hhalf : 2 ^ (k + 1) >>> 1 = 2 ^ k := by rw [Nat.shiftRight_eq_div_pow, pow_succ]; omega
  rw [hhalf, halvings, dif_pos (Nat.two_pow_pos k)]

theorem halvings_one : halvings (2 ^ 0 >>> 1) = [] := by
  rw [halvings]
  exact dif_neg (by decide)

theorem two_pow_shiftLeft (k : ℕ) :
    2 ^ k <<< 1 = 2 ^ (k + 1) := by rw [Nat.shiftLeft_eq, pow_one, pow_succ]

theorem doublings_two_pow {p a : ℕ} (ha : a ≤ p + 1) :
    doublings (2 ^ p) (2 ^ a) = (List.range' a (p + 1 - a)).map (2 ^ ·) := by
  induction h : p + 1 - a generalizing a with
  | zero =>
    have hlt : 2 ^ p < 2 ^ a := Nat.pow_lt_pow_right (by decide) (by omega)
    rw [doublings, dif_neg (by omega)]
    rfl
  | succ m ih =>
    have hle : 2 ^ a ≤ 2 ^ p := Nat.pow_le_pow_right (by decide) (by omega)
    rw [doublings, dif_pos ⟨Nat.two_pow_pos a, hle⟩, two_pow_shiftLeft, ih (by omega) (by omega)]
    rfl

theorem doublings_two (p : ℕ) : doublings (2 ^ p) 2 = (List.range p).map fun k => 2 ^ (k + 1) := by
  have h := @doublings_two_pow p 1 (by omega)
  rw [pow_one] at h
  rw [h, List.range_eq_range', Nat.add_sub_cancel, List.range'_eq_map_range, List.map_map,
    ← List.range_eq_range']
  refine List.map_congr_left fun k _ => ?_
  change 2 ^ (1 + k) = 2 ^ (k + 1)
  rw [add_comm]

/-- The block size is a power of two that covers the clients. -/
theorem nextPowerOfTwo_spec (n : ℕ) : ∃ p, nextPowerOfTwo n = 2 ^ p ∧ n ≤ 2 ^ p := by
  suffices h : ∀ m k, n - 2 ^ k ≤ m → ∃ p, nextPowerOfTwoFrom n (2 ^ k) = 2 ^ p ∧ n ≤ 2 ^ p from
    h (n - 2 ^ 0) 0 le_rfl
  intro m
  induction m with
  | zero =>
    intro k hk
    refine ⟨k, ?_, by omega⟩
    rw [nextPowerOfTwoFrom, dif_neg (by omega)]
  | succ m ih =>
    intro k hk
    have hpos := Nat.two_pow_pos k
    rw [nextPowerOfTwoFrom]
    split_ifs with h
    · rw [two_pow_shiftLeft]
      exact ih (k + 1) (by rw [pow_succ]; omega)
    · exact ⟨k, rfl, by omega⟩

/-! ## Races -/

section Races

variable {n : ℕ} (s : BlockState Cell Double Double)

theorem raceFree_store (value : ℕ → Double → Double) :
    RaceFree n ((store value).lanes s) s.mem := by
  refine raceFree_of_disjoint (fun i c => c = .values i) ?_ ?_ ?_
  · exact fun i _ c hc => absurd hc List.not_mem_nil
  · exact fun i _ c hc => List.mem_singleton.1 hc
  · rintro i _ j _ hij c rfl hj
    exact hij (Cell.values.inj hj)

theorem store_writes_values (value : ℕ → Double → Double) :
    ∀ w ∈ laneWrites n ((store value).lanes s) s.mem, ∃ i, w.1 = .values i := by
  intro w hw
  obtain ⟨i, -, hw⟩ := mem_laneWrites.1 hw
  rw [List.mem_singleton.1 hw]
  exact ⟨i, rfl⟩

theorem raceFree_onFirst (first : Double → Lane Cell Double Double) :
    RaceFree n ((onFirst first).lanes s) s.mem := by
  refine raceFree_of_disjoint (fun i _ => i = 0) ?_ ?_ ?_
  · intro i _ c hc
    by_contra hi
    rw [Phase.lanes, onFirst, if_neg hi] at hc
    exact absurd hc List.not_mem_nil
  · intro i _ c hc
    by_contra hi
    rw [Lane.written, Phase.lanes, onFirst, if_neg hi] at hc
    exact absurd hc List.not_mem_nil
  · rintro i _ j _ hij c rfl hj
    exact hij hj.symm

theorem laneWrites_onFirst (first : Double → Lane Cell Double Double) (hn : 0 < n) :
    laneWrites n ((onFirst first).lanes s) s.mem = (first (s.registers 0)).writes s.mem := by
  rw [laneWrites_of_first hn fun i hi => by rw [Phase.lanes, onFirst, if_neg hi, Lane.writes]]
  rfl

theorem exchange_writes (width stride i : ℕ) (r : Double) (mem : Cell → Double) :
    (exchange width stride i r).writes mem =
      if i < i ^^^ stride ∧
          (decide (mem (.values (i ^^^ stride)) < mem (.values i)) == (i &&& width == 0)) = true
        then
        [(.values i, mem (.values (i ^^^ stride))), (.values (i ^^^ stride), mem (.values i))]
      else [] := by
  unfold exchange
  by_cases hpartner : i < i ^^^ stride
  · rw [if_pos hpartner]
    simp only [Lane.writes, hpartner, true_and]
    split_ifs <;> rfl
  · rw [if_neg hpartner, if_neg fun h => hpartner h.1]
    rfl

theorem exchange_reads (width stride i : ℕ) (r : Double) (mem : Cell → Double) :
    (exchange width stride i r).reads mem =
      if i < i ^^^ stride then [.values i, .values (i ^^^ stride)] else [] := by
  unfold exchange
  by_cases hpartner : i < i ^^^ stride
  · rw [if_pos hpartner, if_pos hpartner]
    simp only [Lane.reads]
    split_ifs <;> rfl
  · rw [if_neg hpartner, if_neg hpartner]
    rfl

/-- The cells of a lane in an exchange: its own one and that of its partner, when this one is
higher. -/
def exchangeOwn (stride i : ℕ) (c : Cell) : Prop :=
  i < i ^^^ stride ∧ (c = .values i ∨ c = .values (i ^^^ stride))

theorem exchangeOwn_disjoint {stride i j : ℕ} (hij : i ≠ j) {c : Cell}
    (hi : exchangeOwn stride i c) : ¬ exchangeOwn stride j c := by
  rintro ⟨hlt', hj⟩
  obtain ⟨hlt, hi⟩ := hi
  rcases hi with rfl | rfl <;> rcases hj with hj | hj <;> injection hj with hj
  · exact hij hj
  · rw [hj, Nat.xor_xor_cancel_right] at hlt
    omega
  · rw [← hj, Nat.xor_xor_cancel_right] at hlt'
    omega
  · have h := congrArg (· ^^^ stride) hj
    simp only [Nat.xor_xor_cancel_right] at h
    exact hij h

theorem exchangeOwn_of_written {width stride i : ℕ} {r : Double} {mem : Cell → Double} {c : Cell}
    (hc : c ∈ (exchange width stride i r).written mem) : exchangeOwn stride i c := by
  rw [Lane.written, exchange_writes] at hc
  split_ifs at hc with h
  · simp only [List.map_cons, List.map_nil, List.mem_cons, List.not_mem_nil, or_false] at hc
    exact ⟨h.1, hc⟩
  · exact absurd hc List.not_mem_nil

theorem raceFree_exchange (width stride : ℕ) :
    RaceFree n ((exchange width stride).lanes s) s.mem := by
  refine raceFree_of_disjoint (exchangeOwn stride) (fun i _ c hc => ?_)
    (fun i _ c hc => exchangeOwn_of_written hc) fun i _ j _ hij c => exchangeOwn_disjoint hij
  rw [Phase.lanes, exchange_reads] at hc
  split_ifs at hc with h
  · simp only [List.mem_cons, List.not_mem_nil, or_false] at hc
    exact ⟨h, hc⟩
  · exact absurd hc List.not_mem_nil

theorem contribute_writes (trim retained i : ℕ) (r : Double) (mem : Cell → Double) :
    (contribute trim retained i r).writes mem = [] := by
  unfold contribute
  split_ifs <;> rfl

theorem raceFree_contribute (trim retained : ℕ) :
    RaceFree n ((contribute trim retained).lanes s) s.mem := by
  intro i _ j _ _ c hc
  rw [Lane.written, Phase.lanes, contribute_writes] at hc
  exact absurd hc List.not_mem_nil

theorem reduce_writes (stride i : ℕ) (r : Double) (mem : Cell → Double) :
    (reduce stride i r).writes mem =
      if i < stride then [(.values i, mem (.values i) + mem (.values (i + stride)))] else [] := by
  unfold reduce
  split_ifs <;> rfl

theorem reduce_writes_values (stride : ℕ) :
    ∀ w ∈ laneWrites n ((reduce stride).lanes s) s.mem, ∃ i, w.1 = .values i := by
  intro w hw
  obtain ⟨i, -, hw⟩ := mem_laneWrites.1 hw
  rw [Phase.lanes, reduce_writes] at hw
  split_ifs at hw
  · rw [List.mem_singleton.1 hw]
    exact ⟨i, rfl⟩
  · exact absurd hw List.not_mem_nil

theorem raceFree_reduce (stride : ℕ) : RaceFree n ((reduce stride).lanes s) s.mem := by
  refine raceFree_of_disjoint (fun i c => i < stride ∧
    (c = .values i ∨ c = .values (i + stride))) ?_ ?_ ?_
  · intro i _ c hc
    rw [Phase.lanes, reduce] at hc
    split_ifs at hc with h
    · simp only [Lane.reads, List.mem_cons, List.not_mem_nil, or_false] at hc
      exact ⟨h, hc⟩
    · exact absurd hc List.not_mem_nil
  · intro i _ c hc
    rw [Lane.written, Phase.lanes, reduce_writes] at hc
    split_ifs at hc with h
    · exact ⟨h, .inl (List.mem_singleton.1 hc)⟩
    · exact absurd hc List.not_mem_nil
  · rintro i _ j _ hij c ⟨hi, hci⟩ ⟨hj, hcj⟩
    rcases hci with rfl | rfl <;> rcases hcj with hcj | hcj <;> injection hcj with hcj <;> omega

end Races

/-! ## What the phases compute -/

/-- The first `n` shared cells hold the elements of a sequence. -/
def Holds (n : ℕ) (s : BlockState Cell Double Double) (x : ℕ → Double) : Prop :=
  ∀ i < n, s.mem (.values i) = x i

section Phases

variable {n p k : ℕ} {s : BlockState Cell Double Double} {x : ℕ → Double}

theorem store_holds (value : ℕ → Double → Double) :
    Holds n ((store value).step n s) fun i => value i (s.registers i) := by
  intro i hi
  refine (lockStep_of_only hi fun j _ hij hj => ?_).trans (Function.update_self ..)
  exact hij (Cell.values.inj (List.mem_singleton.1 hj)).symm

theorem and_two_pow_beq (i w : ℕ) : (i &&& 2 ^ w == 0) = !i.testBit w := by
  rw [Nat.and_two_pow]
  rcases i.testBit w <;> simp

/-- The lanes compute one stage of the network. -/
theorem exchange_mem {w i : ℕ} (hi : i < n) (hpartner : i ^^^ 2 ^ k < n) :
    ((exchange (2 ^ w) (2 ^ k)).step n s).mem (.values i) =
      exchangeAll (fun i => !i.testBit w) k (fun i => s.mem (.values i)) i := by
  have hother {l : ℕ} (hl : exchangeOwn (2 ^ k) l (.values i)) (j : ℕ) (hj : j ≠ l) :
      .values i ∉ ((exchange (2 ^ w) (2 ^ k)).lanes s j).written s.mem := fun h =>
    exchangeOwn_disjoint hj (exchangeOwn_of_written h) hl
  rcases hbit : i.testBit k
  · have hlt := (lt_xor_iff k i).2 hbit
    refine (lockStep_of_only hi fun j _ => hother ⟨hlt, .inl rfl⟩ j).trans ?_
    rw [Phase.lanes, exchange_writes, exchangeAll, lowerPartner, hbit, swaps, and_two_pow_beq]
    simp only [hlt, true_and, Bool.false_eq_true, if_false]
    split_ifs
    · have hne : (Cell.values i) ≠ .values (i ^^^ 2 ^ k) := fun h => hlt.ne (Cell.values.inj h)
      simp only [applyWrites, List.foldl_cons, List.foldl_nil, Function.update_of_ne hne,
        Function.update_self]
    · rfl
  · have hlow : (i ^^^ 2 ^ k).testBit k = false := by
      rw [Nat.testBit_xor, hbit, Nat.testBit_two_pow_self]
      rfl
    have hlt := (lt_xor_iff k _).2 hlow
    rw [Nat.xor_xor_cancel_right] at hlt
    have hown : exchangeOwn (2 ^ k) (i ^^^ 2 ^ k) (.values i) := by
      rw [exchangeOwn, Nat.xor_xor_cancel_right]
      exact ⟨hlt, .inr rfl⟩
    refine (lockStep_of_only hpartner fun j _ => hother hown j).trans ?_
    rw [Phase.lanes, exchange_writes, exchangeAll, lowerPartner, hbit, swaps, and_two_pow_beq]
    simp only [Nat.xor_xor_cancel_right, hlt, true_and, if_true]
    split_ifs
    · simp only [applyWrites, List.foldl_cons, List.foldl_nil, Function.update_self]
    · rfl

theorem exchange_holds {w : ℕ} (hk : k < p) (h : Holds (2 ^ p) s x) :
    Holds (2 ^ p) ((exchange (2 ^ w) (2 ^ k)).step (2 ^ p) s)
      (exchangeAll (fun i => !i.testBit w) k x) := by
  intro i hi
  rw [exchange_mem hi (Nat.xor_lt_two_pow hi (Nat.pow_lt_pow_right (by decide) hk))]
  exact exchangeAll_congr hk h i hi

/-- The inner loop merges. -/
theorem merge_holds {w : ℕ} (hk : k ≤ p) (h : Holds (2 ^ p) s x) :
    Holds (2 ^ p) (runPhases (2 ^ p) ((halvings (2 ^ k >>> 1)).map (exchange (2 ^ w))) s)
      (mergeAll (fun i => !i.testBit w) k x) := by
  induction k generalizing s x with
  | zero =>
    rw [halvings_one]
    exact h
  | succ k ih =>
    rw [halvings_two_pow_succ]
    exact ih (by omega) (exchange_holds hk h)

/-- The outer loop sorts. -/
theorem sort_holds (h : Holds (2 ^ p) s x) :
    Holds (2 ^ p) (runPhases (2 ^ p) (sortPhases (2 ^ p)) s) (bitonicSort p x) := by
  rw [sortPhases, doublings_two, List.flatMap_map]
  suffices hstages : ∀ q ≤ p, Holds (2 ^ p) (runPhases (2 ^ p) ((List.range q).flatMap fun k =>
      (halvings (2 ^ (k + 1) >>> 1)).map (exchange (2 ^ (k + 1)))) s) (bitonicSort q x) by
    exact hstages p le_rfl
  intro q
  induction q with
  | zero => exact fun _ => h
  | succ q ih =>
    intro hq
    rw [List.range_succ, List.flatMap_append, runPhases_append, List.flatMap_singleton]
    exact merge_holds hq (ih (by omega))

theorem contribute_registers (trim retained i : ℕ) :
    ((contribute trim retained).step n s).registers i =
      if i < retained then s.mem (.values (trim + i)) else 0 := by
  change (contribute trim retained i _).result s.mem = _
  unfold contribute
  split_ifs <;> rfl

/-- One step of the reduction adds the upper half to the lower half. -/
theorem reduce_holds (hk : k < p) (h : Holds (2 ^ (k + 1)) s x) :
    Holds (2 ^ k) ((reduce (2 ^ k)).step (2 ^ p) s) fun i => x i + x (2 ^ k + i) := by
  intro i hi
  have hlanes : 2 ^ k ≤ 2 ^ p := Nat.pow_le_pow_right (by decide) hk.le
  have hsize : 2 ^ (k + 1) = 2 ^ k * 2 := pow_succ 2 k
  refine (lockStep_of_only (show i < 2 ^ p by omega) fun j _ hij hj => ?_).trans ?_
  · rw [Lane.written, Phase.lanes, reduce_writes] at hj
    split_ifs at hj
    · exact hij (Cell.values.inj (List.mem_singleton.1 hj)).symm
    · exact absurd hj List.not_mem_nil
  · rw [Phase.lanes, reduce_writes, if_pos hi, add_comm i]
    refine (Function.update_self ..).trans ?_
    rw [h i (by omega), h (2 ^ k + i) (by omega)]

/-- The reduction adds up all cells. -/
theorem reduce_sum (hk : k ≤ p) (h : Holds (2 ^ k) s x) :
    (runPhases (2 ^ p) ((halvings (2 ^ k >>> 1)).map reduce) s).mem (.values 0) = ∑ i ∈ Finset.range
      (2 ^ k), x i := by
  induction k generalizing s x with
  | zero =>
    rw [halvings_one, pow_zero, Finset.sum_range_one]
    exact h 0 (by decide)
  | succ k ih =>
    rw [halvings_two_pow_succ, pow_succ, mul_two, Finset.sum_range_add, ← Finset.sum_add_distrib]
    exact ih (by omega) (reduce_holds hk h)

end Phases

/-! ## The values of a coordinate -/

section Padding

variable {n p : ℕ} {v : ℕ → ℚ}

/-- The values of the clients, followed by infinity. -/
def padded (n : ℕ) (v : ℕ → ℚ) (i : ℕ) : Double := if i < n then (v i : Double) else ⊤

theorem map_padded (hn : n ≤ 2 ^ p) :
    (List.range (2 ^ p)).map (padded n v) =
      ((List.range n).map v).map WithTop.some ++ List.replicate (2 ^ p - n) (⊤ : Double) := by
  have hrange : List.range (2 ^ p) = List.range n ++ (List.range (2 ^ p - n)).map (n + ·) := by
    rw [← List.range_add]
    congr 1
    omega
  rw [hrange, List.map_append, List.map_map, List.map_map]
  congr 1
  · exact List.map_congr_left fun i hi => if_pos (List.mem_range.1 hi)
  · rw [List.eq_replicate_iff]
    refine ⟨by simp, fun y hy => ?_⟩
    obtain ⟨i, -, rfl⟩ := List.mem_map.1 hy
    exact if_neg (not_lt.2 (Nat.le_add_right n i))

theorem sorted_append_top (xs : List ℚ) (m : ℕ) :
    sorted (xs.map WithTop.some ++ List.replicate m (⊤ : Double)) = (sorted xs).map WithTop.some ++
      List.replicate m ⊤ := by
  refine (eq_sorted (((sorted_perm xs).map _).append_right _) ?_).symm
  refine List.pairwise_append.2 ⟨?_, List.pairwise_replicate.2 (.inr le_rfl), fun _ _ y hy => ?_⟩
  · exact (pairwise_sorted xs).map _ fun a b hab => WithTop.coe_le_coe.2 hab
  · rw [List.eq_of_mem_replicate hy]
    exact le_top

/-- The network puts the sorted values of the clients in front. -/
theorem bitonicSort_padded (hn : n ≤ 2 ^ p) {i : ℕ} (hi : i < n) :
    bitonicSort p (padded n v) i = ((sorted ((List.range n).map v)).getD i 0 : ℚ) := by
  have hsorted : (List.range (2 ^ p)).map (bitonicSort p (padded n v)) =
      (sorted ((List.range n).map v)).map WithTop.some ++ List.replicate (2 ^ p - n)
      (⊤ : Double) := by
    rw [← sorted_append_top, ← map_padded hn]
    refine eq_sorted (bitonicSort_perm le_rfl) (List.pairwise_iff_getElem.2 fun i j hi hj hij => ?_)
    simp only [List.getElem_map, List.getElem_range]
    exact monotone_bitonicSort p _ hij.le (by simpa using hj)
  have hlength : i < (sorted ((List.range n).map v)).length := by simpa using hi
  have hget := congrArg (·[i]?) hsorted
  simp only [List.getElem?_map, List.getElem?_range (hi.trans_le hn)] at hget
  rw [List.getElem?_append_left (by simpa using hi), List.getElem?_map,
    List.getElem?_eq_getElem hlength] at hget
  rw [List.getD_eq_getElem _ _ hlength]
  exact Option.some.inj hget

/-- The contributions of the lanes add up to the sum of what trimming leaves. -/
theorem sum_contributions {trim : ℕ} (hn : n ≤ 2 ^ p) (htrim : 2 * trim < n) :
    (∑ i ∈ Finset.range (2 ^ p), if i < n - 2 * trim then
      bitonicSort p (padded n v) (trim + i) else 0) =
      ((((sorted ((List.range n).map v)).take (n - trim)).drop trim).sum : ℚ) := by
  have hkept : ((sorted ((List.range n).map v)).take (n - trim)).drop trim =
      (List.range (n - 2 * trim)).map fun i => (sorted ((List.range n).map v)).getD
      (trim + i) 0 := by
    refine List.ext_getElem ?_ fun i h₁ h₂ => ?_
    · simp only [List.length_drop, List.length_take, length_sorted, List.length_map,
        List.length_range]
      omega
    · have hi : i < n - 2 * trim := by simpa using h₂
      rw [List.getElem_drop, List.getElem_take, List.getElem_map, List.getElem_range,
        List.getD_eq_getElem _ _ (by simp; omega)]
  have hsum : (∑ i ∈ Finset.range (2 ^ p), if i < n - 2 * trim then
      bitonicSort p (padded n v) (trim + i) else 0) =
      ∑ i ∈ Finset.range (n - 2 * trim),
      (((sorted ((List.range n).map v)).getD (trim + i) 0 : ℚ) : Double) := by
    rw [← Finset.sum_subset (Finset.range_subset_range.2 (show n - 2 * trim ≤ 2 ^ p by omega))
      fun i _ hi => ?_]
    · refine Finset.sum_congr rfl fun i hi => ?_
      have hi := Finset.mem_range.1 hi
      rw [if_pos hi, bitonicSort_padded hn (by omega)]
    · exact if_neg fun h => hi (Finset.mem_range.2 h)
  rw [hsum, hkept, ← WithTop.coe_sum]
  rfl

end Padding

/-! ## The kernel -/

theorem outputs_append (ws ws' : List (Cell × Double)) :
    outputs (ws ++ ws') = outputs ws ++ outputs ws' :=
  List.filterMap_append

theorem outputs_of_values {ws : List (Cell × Double)} (h : ∀ w ∈ ws, ∃ i, w.1 = .values i) :
    outputs ws = [] := by
  refine List.filterMap_eq_nil_iff.2 fun w hw => ?_
  obtain ⟨i, hi⟩ := h w hw
  rw [hi]

section Kernel

variable {updates : List (List ℚ)} {trim d p n : ℕ}

/-- The work of a block on a coordinate before it writes the output. -/
def sumPhases (updates : List (List ℚ)) (trim blockDim d : ℕ) : List KernelPhase :=
  load updates d :: sortPhases blockDim ++ [contribute trim (updates.length - 2 * trim),
    storeContribution] ++ (halvings (blockDim / 2)).map reduce

theorem mem_sortPhases {phase : KernelPhase} (h : phase ∈ sortPhases n) :
    ∃ width stride, phase = exchange width stride := by
  obtain ⟨width, -, h⟩ := List.mem_flatMap.1 h
  obtain ⟨stride, -, rfl⟩ := List.mem_map.1 h
  exact ⟨width, stride, rfl⟩

/-- The phases that `sumPhases` consists of. -/
theorem sumPhases_cases {blockDim : ℕ} {P : KernelPhase → Prop} (hload : P (load updates d))
    (hexchange : ∀ width stride, P (exchange width stride))
    (hcontribute : ∀ trim retained, P (contribute trim retained)) (hstore : P storeContribution)
    (hreduce : ∀ stride, P (reduce stride)) :
    ∀ phase ∈ sumPhases updates trim blockDim d, P phase := by
  intro phase h
  rw [sumPhases, List.mem_append, List.mem_append, List.mem_cons, List.mem_cons,
    List.mem_singleton] at h
  rcases h with ((rfl | h) | rfl | rfl) | h
  · exact hload
  · obtain ⟨width, stride, rfl⟩ := mem_sortPhases h
    exact hexchange width stride
  · exact hcontribute _ _
  · exact hstore
  · obtain ⟨stride, -, rfl⟩ := List.mem_map.1 h
    exact hreduce stride

theorem coordinatePhases_eq (blockDim : ℕ) :
    coordinatePhases updates trim blockDim d =
      sumPhases updates trim blockDim d ++ [writeOutput d (updates.length - 2 * trim)] := rfl

/-- No phase of the kernel has a race. -/
theorem raceFree_kernel {dimension blockDim gridDim blockIdx : ℕ} :
    ∀ phase ∈ trimmedMeanKernel updates dimension trim blockDim gridDim blockIdx, ∀ s,
      RaceFree n (phase.lanes s) s.mem := by
  intro phase h
  obtain ⟨d, -, h⟩ := List.mem_flatMap.1 h
  rw [coordinatePhases_eq, List.mem_append, List.mem_singleton] at h
  rcases h with h | rfl
  · exact sumPhases_cases (P := fun phase => ∀ s, RaceFree n (phase.lanes s) s.mem)
      (fun s => raceFree_store s _) (fun width stride s => raceFree_exchange s width stride)
      (fun trim retained s => raceFree_contribute s trim retained) (fun s => raceFree_store s _)
      (fun stride s => raceFree_reduce s stride) phase h
  · exact fun s => raceFree_onFirst s _

/-- Before the output, only shared cells are written. -/
theorem outputs_sumPhases (s : BlockState Cell Double Double) :
    outputs (phaseWrites n (sumPhases updates trim (2 ^ p) d) s) = [] := by
  refine outputs_of_values (forall_phaseWrites
    (sumPhases_cases (fun s => store_writes_values s _) ?_ ?_
    (fun s => store_writes_values s _) fun stride s => reduce_writes_values s stride) s)
  · intro width stride s w hw
    obtain ⟨i, -, hw⟩ := mem_laneWrites.1 hw
    obtain ⟨-, h | h⟩ := exchangeOwn_of_written (List.mem_map_of_mem hw)
    exacts [⟨_, h⟩, ⟨_, h⟩]
  · intro trim retained s w hw
    obtain ⟨i, -, hw⟩ := mem_laneWrites.1 hw
    rw [Phase.lanes, contribute_writes] at hw
    exact absurd hw List.not_mem_nil

/-- The first shared cell ends up with the sum of the values that trimming leaves. -/
theorem sumPhases_mem (hn : updates.length ≤ 2 ^ p) (htrim : 2 * trim < updates.length)
    (s : BlockState Cell Double Double) :
    (runPhases (2 ^ p) (sumPhases updates trim (2 ^ p) d) s).mem (.values 0) =
      ((((sorted (coordinate updates d)).take (updates.length - trim)).drop trim).sum : ℚ) := by
  have hhalf : 2 ^ p / 2 = 2 ^ p >>> 1 := (Nat.shiftRight_eq_div_pow _ 1).symm
  rw [sumPhases, hhalf, runPhases_append, runPhases_append, coordinate_eq_map_range,
    ← sum_contributions hn htrim]
  refine reduce_sum le_rfl fun i hi => ?_
  have hsorted : Holds (2 ^ p) (runPhases (2 ^ p) (load updates d :: sortPhases (2 ^ p)) s)
      (bitonicSort p (padded updates.length fun i => (updates.getD i []).getD d 0)) :=
      sort_holds (store_holds _)
  refine (store_holds _ i hi).trans ((contribute_registers _ _ i).trans ?_)
  split_ifs with h
  · exact hsorted (trim + i) (by omega)
  · rfl

/-- A block writes the trimmed mean of a coordinate, once. -/
theorem outputs_coordinatePhases (std : StdAlgorithms) (hn : updates.length ≤ 2 ^ p)
    (htrim : 2 * trim < updates.length) (s : BlockState Cell Double Double) :
    outputs (phaseWrites (2 ^ p) (coordinatePhases updates trim (2 ^ p) d) s) =
      [(d, ((trimmedMeanOf std trim (coordinate updates d) : ℚ) : Double))] := by
  have hlength : (coordinate updates d).length = updates.length := List.length_map ..
  rw [coordinatePhases_eq, phaseWrites_append, outputs_append, outputs_sumPhases, phaseWrites,
    phaseWrites, writeOutput, laneWrites_onFirst _ _ (Nat.two_pow_pos p), Lane.writes,
    sumPhases_mem hn htrim, trimmedMeanOf, std.sort_eq, hlength]
  rfl

/-- A block writes the trimmed means of its coordinates. -/
theorem outputs_trimmedMeanKernel (std : StdAlgorithms) (hn : updates.length ≤ 2 ^ p)
    (htrim : 2 * trim < updates.length) (ds : List ℕ) (s : BlockState Cell Double Double) :
    outputs (phaseWrites (2 ^ p) (ds.flatMap (coordinatePhases updates trim (2 ^ p))) s) =
      ds.map fun d => (d, ((trimmedMeanOf std trim (coordinate updates d) : ℚ) : Double)) := by
  induction ds generalizing s with
  | nil => rfl
  | cons d ds ih =>
    rw [List.flatMap_cons, phaseWrites_append, outputs_append,
      outputs_coordinatePhases std hn htrim, ih]
    rfl

end Kernel

/-- The blocks of a grid write the trimmed mean of every coordinate, once. -/
theorem trimmedMeanKernel_outputs (std : StdAlgorithms) (updates : List (List ℚ)) (dimension : ℕ)
    {trim gridDim : ℕ} (hgrid : 1 ≤ gridDim) (htrim : 2 * trim < updates.length)
    (start : ℕ → BlockState Cell Double Double) :
    (gridOutputs updates dimension trim gridDim start).Perm
      ((List.range dimension).map fun d =>
        (d, ((trimmedMeanOf std trim (coordinate updates d) : ℚ) : Double))) := by
  obtain ⟨p, hp, hn⟩ := nextPowerOfTwo_spec updates.length
  have hblocks : gridOutputs updates dimension trim gridDim start =
      ((List.range gridDim).flatMap (strided gridDim dimension)).map
        fun d => (d, ((trimmedMeanOf std trim (coordinate updates d) : ℚ) : Double)) := by
    rw [gridOutputs, hp, List.map_flatMap]
    exact List.flatMap_congr fun blockIdx _ => outputs_trimmedMeanKernel std hn htrim _ _
  rw [hblocks]
  exact (strided_perm hgrid dimension).map _

/-- The kernel writes the trimmed mean of every coordinate exactly once, and its lanes do not
race. -/
theorem trimmedMeanKernel_computes (std : StdAlgorithms) (updates : List (List ℚ))
    (dimension trim gridDim : ℕ) (htrim : 2 * trim < updates.length) (hgrid : 1 ≤ gridDim)
    (start : ℕ → BlockState Cell Double Double) :
    (gridOutputs updates dimension trim gridDim start).Perm
        ((List.range dimension).map fun d =>
          (d, ((trimmedMeanOf std trim (coordinate updates d) : ℚ) : Double))) ∧
      ∀ blockIdx < gridDim, RaceFreeRun (nextPowerOfTwo updates.length)
        (trimmedMeanKernel updates dimension trim (nextPowerOfTwo updates.length) gridDim blockIdx)
        (start blockIdx) :=
  ⟨trimmedMeanKernel_outputs std updates dimension hgrid htrim start,
    fun _ _ => raceFreeRun_of_forall raceFree_kernel _⟩

theorem trimmedMeanKernel_computes_outlier :
    (gridOutputs [[1], [1000], [2]] 1 1 4 fun _ => ⟨fun _ => 0, fun _ => 0⟩).Perm
      [(0, ((2 : ℚ) : Double))] := by
  have hmean : trimmedMeanOf .reference 1 (coordinate [[1], [1000], [2]] 0) = 2 := by decide +kernel
  have h := (trimmedMeanKernel_computes .reference [[1], [1000], [2]] 1 1 4 (by decide) (by decide)
    fun _ => ⟨fun _ => 0, fun _ => 0⟩).1
  rw [List.range_one, List.map_singleton, hmean] at h
  exact h

/-- In every interleaving of its lanes, a block ends with the memory of lock step. -/
theorem trimmedMeanKernel_schedule {updates : List (List ℚ)}
    {dimension trim n blockDim gridDim blockIdx : ℕ} {s s' : BlockState Cell Double Double}
    (h : Schedule n (trimmedMeanKernel updates dimension trim blockDim gridDim blockIdx) s s') :
    s'.mem =
      (runPhases n (trimmedMeanKernel updates dimension trim blockDim gridDim blockIdx) s).mem :=
  (h.outcome raceFree_kernel ⟨rfl, fun _ _ => rfl⟩).1

/-- A launch for at most 1024 clients rejects what the native aggregator rejects, and otherwise
writes its result. -/
theorem launchTrimmedMean_refines (std : StdAlgorithms) {updates : List (List ℚ)} {dimension : ℕ}
    (hlength : ∀ u ∈ updates, u.length = dimension) (hn : updates.length ≤ kMaxTrimmedMeanClients)
    (beta : Float32) (start : ℕ → BlockState Cell Double Double) :
    (∀ e, trimmedMeanAggregate std updates beta = .error e →
        ∃ e', launchTrimmedMean updates dimension beta start = .error e') ∧
      ∀ result, trimmedMeanAggregate std updates beta = .ok result →
        ∃ writes, launchTrimmedMean updates dimension beta start = .ok writes ∧
          writes.Perm ((List.range dimension).map fun d =>
            (d, ((result.getD d 0 : ℚ) : Double))) := by
  unfold launchTrimmedMean
  by_cases hempty : updates.length = 0 ∨ dimension = 0
  · rw [if_pos hempty]
    refine ⟨fun e _ => ⟨_, rfl⟩, fun result hok => ?_⟩
    exfalso
    rcases updates with _ | ⟨front, rest⟩
    · cases hok
    · have hfront : front.length = 0 :=
        (hlength front List.mem_cons_self).trans (hempty.resolve_left (Nat.succ_ne_zero _))
      rw [trimmedMeanAggregate, validateUpdates, if_pos hfront] at hok
      cases hok
  · rw [not_or] at hempty
    have hvalid := validateUpdates_eq
      (List.ne_nil_of_length_pos (Nat.pos_of_ne_zero hempty.1)) hlength
      (Nat.pos_of_ne_zero hempty.2)
    rw [if_neg (not_or.2 hempty), trimmedMeanAggregate, hvalid]
    dsimp only
    by_cases hbeta : beta.isFinite = false ∨ value32 beta < 0 ∨ 1 / 2 ≤ value32 beta
    · rw [if_pos hbeta, if_pos hbeta]
      exact ⟨fun e _ => ⟨_, rfl⟩, fun result hok => by cases hok⟩
    rw [if_neg hbeta, if_neg hbeta, if_neg (not_lt.2 hn)]
    by_cases htrim : updates.length ≤ 2 * trimCount (value32 beta) updates.length
    · rw [if_pos htrim, if_pos htrim]
      exact ⟨fun e _ => ⟨_, rfl⟩, fun result hok => by cases hok⟩
    · rw [if_neg htrim, if_neg htrim]
      refine ⟨fun e herror => (by cases herror), fun result hok => ⟨_, rfl, ?_⟩⟩
      cases hok
      have hgrid : 1 ≤ if dimension < 65535 then dimension else 65535 := by
        split_ifs
        · exact Nat.pos_of_ne_zero hempty.2
        · decide
      have hkernel := trimmedMeanKernel_outputs std updates dimension hgrid (not_le.1 htrim) start
      rw [List.map_congr_left fun d hd => by rw [getD_map_range (List.mem_range.1 hd)]]
      exact hkernel

end Cuda

end ZeroTrustFL
