import Mathlib
import ZeroTrustFL.Aggregation.CudaProof
import ZeroTrustFL.Aggregation.Simd

/-!
# Pairwise distances on the device

`pairwise_distance_kernel` and `launch_pairwise_distances` of `cpp/src/cuda_aggregation.cu`, in
exact arithmetic.  A work item is a chunk of the coordinates of a pair of clients; a block adds up
the squares of the chunk and adds the sum to both entries of the pair.  The additions are atomic and
come in any order.
-/

namespace ZeroTrustFL

namespace Cuda

/-! ## The kernel -/

def kDistanceThreads : ℕ := 256

def kDistanceElementsPerThread : ℕ := 256

def kDistanceElementsPerBlock : ℕ := kDistanceThreads * kDistanceElementsPerThread

def kMaxDistanceBlocks : ℕ := 65535

def resolveUpdate (updates : List (List ℚ)) (index coordinate : ℕ) : ℚ :=
  (updates.getD index []).getD coordinate 0

/-- The squares that a lane adds up before the first barrier. -/
def localSum (lhs rhs : ℕ → ℚ) (chunkStart chunkEnd blockDim threadIdx : ℕ) : ℚ :=
  (strided blockDim chunkEnd (chunkStart + threadIdx)).foldl (fun sum coordinate =>
    let delta := lhs coordinate - rhs coordinate
    sum + delta * delta) 0

def storeLocalSum (lhs rhs : ℕ → ℚ) (chunkStart chunkEnd blockDim : ℕ) : KernelPhase :=
  store fun threadIdx _ => (localSum lhs rhs chunkStart chunkEnd blockDim threadIdx : ℚ)

/-- The first lane adds the sum to both entries of the pair.  No lane reads the matrix, and so an
addition is recorded as a write of the summand; `outputs` lists them. -/
def addSum (clientCount i j : ℕ) : KernelPhase := onFirst fun contribution =>
  .read (.values 0) fun sum =>
    .write (.output (i * clientCount + j)) sum
      (.write (.output (j * clientCount + i)) sum (.done contribution))

def chunkEnd (dimension chunkStart : ℕ) : ℕ :=
  let candidateEnd := chunkStart + kDistanceElementsPerBlock
  if candidateEnd < dimension then candidateEnd else dimension

/-- The phases in which a block adds up a chunk of a pair. -/
def sumChunk (updates : List (List ℚ)) (dimension blockDim i j chunkIndex : ℕ) : List KernelPhase :=
  let chunkStart := chunkIndex * kDistanceElementsPerBlock
  storeLocalSum (resolveUpdate updates i) (resolveUpdate updates j) chunkStart
    (chunkEnd dimension chunkStart) blockDim :: (halvings (blockDim / 2)).map reduce

/-- The work of a block on one work item; pairs that are not above the diagonal are skipped. -/
def workItemPhases (updates : List (List ℚ)) (dimension chunksPerPair blockDim workIndex : ℕ) :
    List KernelPhase :=
  let clientCount := updates.length
  let pairSlot := workIndex / chunksPerPair
  let chunkIndex := workIndex % chunksPerPair
  let i := pairSlot / clientCount
  let j := pairSlot % clientCount
  if j ≤ i then []
  else sumChunk updates dimension blockDim i j chunkIndex ++ [addSum clientCount i j]

/-- All phases of a block. -/
def pairwiseDistanceKernel (updates : List (List ℚ))
    (dimension chunksPerPair totalWorkItems blockDim gridDim blockIdx : ℕ) : List KernelPhase :=
  (strided gridDim totalWorkItems blockIdx).flatMap
    (workItemPhases updates dimension chunksPerPair blockDim)

/-! ## The launch -/

def chunksPerPair (dimension : ℕ) : ℕ :=
  (dimension + kDistanceElementsPerBlock - 1) / kDistanceElementsPerBlock

def totalWorkItems (clientCount dimension : ℕ) : ℕ :=
  clientCount * clientCount * chunksPerPair dimension

/-- The additions of the blocks of a grid, one block after the other; `start` is the state in which
each block finds its shared memory. -/
def gridAdditions (updates : List (List ℚ)) (dimension blockDim gridDim : ℕ)
    (start : ℕ → BlockState Cell Double Double) : List (ℕ × Double) :=
  (List.range gridDim).flatMap fun blockIdx =>
    outputs (phaseWrites blockDim
      (pairwiseDistanceKernel updates dimension (chunksPerPair dimension)
      (totalWorkItems updates.length dimension) blockDim gridDim blockIdx) (start blockIdx))

/-- The matrix after some additions. -/
def addAll (additions : List (ℕ × Double)) (distances : ℕ → Double) : ℕ → Double :=
  additions.foldl (fun distances a => Function.update distances a.1 (distances a.1 + a.2)) distances

/-- The product is computed in 64 bits. -/
def checkedMultiply (lhs rhs : ℕ) (message : String) : Except String ℕ :=
  if lhs ≠ 0 ∧ rhs > (2 ^ 64 - 1) / lhs then .error message else .ok (lhs * rhs)

/-- `launch_pairwise_distances` for device pointers that are not null: the additions of the launched
grid. -/
def launchPairwiseDistances (updates : List (List ℚ)) (dimension : ℕ)
    (start : ℕ → BlockState Cell Double Double) : Except String (List (ℕ × Double)) :=
  let clientCount := updates.length
  if clientCount = 0 ∨ dimension = 0 then .error "CUDA aggregation requires non-empty updates"
  else do
    let pairSlots ← checkedMultiply clientCount clientCount "CUDA client-count square overflow"
    let totalWorkItems ← checkedMultiply pairSlots
      (chunksPerPair dimension) "CUDA distance work-grid overflow"
    let blocks := if totalWorkItems < kMaxDistanceBlocks then totalWorkItems else kMaxDistanceBlocks
    return gridAdditions updates dimension kDistanceThreads blocks start

/-! ## Chunks -/

theorem localSum_eq (lhs rhs : ℕ → ℚ) (chunkStart chunkEnd blockDim lane : ℕ) :
    localSum lhs rhs chunkStart chunkEnd blockDim lane =
      ((strided blockDim (chunkEnd - chunkStart) lane).map
        fun k => (lhs (chunkStart + k) - rhs (chunkStart + k)) ^ 2).sum := by
  rw [localSum, strided_add, List.foldl_map, List.sum_eq_foldl, List.foldl_map]
  simp only [sq]

theorem sum_range_eq (f : ℕ → ℚ) (n : ℕ) : ∑ i ∈ Finset.range n, f i = ((List.range n).map f).sum :=
  rfl

/-- The lanes of a block share out the coordinates of a chunk. -/
theorem sum_localSum (lhs rhs : ℕ → ℚ) (chunkStart chunkEnd : ℕ) {blockDim : ℕ}
    (hblock : 0 < blockDim) :
    ∑ lane ∈ Finset.range blockDim, localSum lhs rhs chunkStart chunkEnd blockDim lane =
      ∑ d ∈ Finset.Ico chunkStart chunkEnd, (lhs d - rhs d) ^ 2 := by
  have hperm := ((strided_perm hblock (chunkEnd - chunkStart)).map
    fun k => (lhs (chunkStart + k) - rhs (chunkStart + k)) ^ 2).sum_eq
  rw [List.map_flatMap, List.flatMap, List.sum_flatten, List.map_map] at hperm
  rw [Finset.sum_Ico_eq_sum_range, sum_range_eq, sum_range_eq, ← hperm]
  exact congrArg List.sum (List.map_congr_left fun lane _ =>
    localSum_eq lhs rhs chunkStart chunkEnd blockDim lane)

/-- The chunks of a pair share out the coordinates. -/
theorem sum_chunks (f : ℕ → ℚ) (dimension m : ℕ) :
    ∑ c ∈ Finset.range m, ∑ d ∈ Finset.Ico (c * kDistanceElementsPerBlock)
        (chunkEnd dimension (c * kDistanceElementsPerBlock)), f d =
      ∑ d ∈ Finset.range (min (m * kDistanceElementsPerBlock) dimension), f d := by
  induction m with
  | zero => simp
  | succ m ih =>
    have hend : chunkEnd dimension (m * kDistanceElementsPerBlock) =
        min ((m + 1) * kDistanceElementsPerBlock) dimension := by
      rw [chunkEnd, add_mul, one_mul]
      split_ifs <;> omega
    rw [Finset.sum_range_succ, ih, hend, Finset.range_eq_Ico, Finset.range_eq_Ico]
    rcases le_total (m * kDistanceElementsPerBlock) dimension with hle | hle
    · rw [min_eq_left hle, Finset.sum_Ico_consecutive _ (Nat.zero_le _)]
      rw [add_mul, one_mul]
      omega
    · have hempty : min ((m + 1) * kDistanceElementsPerBlock) dimension = dimension := by
        rw [add_mul, one_mul]
        omega
      rw [min_eq_right hle, hempty, Finset.Ico_eq_empty_of_le hle, Finset.sum_empty, add_zero]

theorem le_chunksPerPair_mul (dimension : ℕ) :
    dimension ≤ chunksPerPair dimension * kDistanceElementsPerBlock := by
  have hpos : 0 < kDistanceElementsPerBlock := by decide
  have h := Nat.lt_div_mul_add (a := dimension + kDistanceElementsPerBlock - 1) hpos
  rw [chunksPerPair]
  omega

/-! ## Work items -/

section WorkItem

variable {updates : List (List ℚ)} {dimension p n i j chunk : ℕ}

/-- The sum of the squares of a chunk of a pair. -/
def chunkSum (updates : List (List ℚ)) (dimension i j chunk : ℕ) : ℚ :=
  ∑ d ∈ Finset.Ico (chunk * kDistanceElementsPerBlock)
    (chunkEnd dimension (chunk * kDistanceElementsPerBlock)),
    (resolveUpdate updates i d - resolveUpdate updates j d) ^ 2

/-- The first shared cell ends up with the sum of the chunk. -/
theorem sumChunk_mem (s : BlockState Cell Double Double) :
    (runPhases (2 ^ p) (sumChunk updates dimension (2 ^ p) i j chunk) s).mem (.values 0) =
      (chunkSum updates dimension i j chunk : ℚ) := by
  have hhalf : 2 ^ p / 2 = 2 ^ p >>> 1 := (Nat.shiftRight_eq_div_pow _ 1).symm
  rw [sumChunk, hhalf, chunkSum, ← sum_localSum _ _ _ _ (Nat.two_pow_pos p), WithTop.coe_sum]
  exact reduce_sum le_rfl (store_holds _)

/-- Until then, only shared cells are written. -/
theorem outputs_sumChunk (blockDim : ℕ) (s : BlockState Cell Double Double) :
    outputs (phaseWrites n (sumChunk updates dimension blockDim i j chunk) s) = [] := by
  refine outputs_of_values (forall_phaseWrites (fun phase hphase s w hw => ?_) s)
  rcases List.mem_cons.1 hphase with rfl | hphase
  · exact store_writes_values s _ w hw
  · obtain ⟨stride, -, rfl⟩ := List.mem_map.1 hphase
    exact reduce_writes_values s stride w hw

/-- The additions for a chunk of a pair. -/
def chunkAdditions (updates : List (List ℚ)) (dimension i j chunk : ℕ) : List (ℕ × ℚ) :=
  if j ≤ i then []
  else [(i * updates.length + j, chunkSum updates dimension i j chunk),
    (j * updates.length + i, chunkSum updates dimension i j chunk)]

/-- The additions of a work item. -/
def itemAdditions (updates : List (List ℚ)) (dimension pairSlot chunk : ℕ) : List (ℕ × ℚ) :=
  chunkAdditions updates dimension (pairSlot / updates.length) (pairSlot % updates.length) chunk

theorem outputs_workItemPhases (chunksPerPair workIndex : ℕ) (s : BlockState Cell Double Double) :
    outputs (phaseWrites (2 ^ p)
      (workItemPhases updates dimension chunksPerPair (2 ^ p) workIndex) s) =
      (itemAdditions updates dimension (workIndex / chunksPerPair) (workIndex % chunksPerPair)).map
        (Prod.map id fun x : ℚ => (x : Double)) := by
  simp only [workItemPhases, itemAdditions, chunkAdditions]
  split_ifs with h
  · rfl
  · rw [phaseWrites_append, outputs_append, outputs_sumChunk, phaseWrites, phaseWrites, addSum,
      laneWrites_onFirst _ _ (Nat.two_pow_pos p)]
    simp only [Lane.writes, sumChunk_mem]
    rfl

/-- The additions of a block. -/
theorem outputs_workItems (chunksPerPair : ℕ) (items : List ℕ) (s : BlockState Cell Double Double) :
    outputs (phaseWrites (2 ^ p)
      (items.flatMap (workItemPhases updates dimension chunksPerPair (2 ^ p))) s) =
      (items.flatMap fun w => itemAdditions updates dimension (w / chunksPerPair)
        (w % chunksPerPair)).map (Prod.map id fun x : ℚ => (x : Double)) := by
  induction items generalizing s with
  | nil => rfl
  | cons w items ih =>
    rw [List.flatMap_cons, phaseWrites_append, outputs_append, outputs_workItemPhases, ih,
      List.flatMap_cons, List.map_append]

end WorkItem

/-- The blocks of a grid share out the work items. -/
theorem gridAdditions_perm (updates : List (List ℚ)) (dimension p : ℕ) {gridDim : ℕ}
    (hgrid : 1 ≤ gridDim) (start : ℕ → BlockState Cell Double Double) :
    (gridAdditions updates dimension (2 ^ p) gridDim start).Perm
      (((List.range (totalWorkItems updates.length dimension)).flatMap fun w =>
        itemAdditions updates dimension (w / chunksPerPair dimension)
          (w % chunksPerPair dimension)).map (Prod.map id fun x : ℚ => (x : Double))) := by
  have hblocks : gridAdditions updates dimension (2 ^ p) gridDim start =
      (((List.range gridDim).flatMap
        (strided gridDim (totalWorkItems updates.length dimension))).flatMap fun w =>
        itemAdditions updates dimension (w / chunksPerPair dimension)
          (w % chunksPerPair dimension)).map (Prod.map id fun x : ℚ => (x : Double)) := by
    rw [gridAdditions, List.flatMap_assoc, List.map_flatMap]
    exact List.flatMap_congr fun blockIdx _ => outputs_workItems _ _ _
  rw [hblocks]
  exact ((strided_perm hgrid _).flatMap_right _).map _

/-! ## Additions -/

/-- What some additions add to an entry. -/
def added (additions : List (ℕ × ℚ)) (entry : ℕ) : ℚ :=
  (additions.map fun a => if a.1 = entry then a.2 else 0).sum

theorem addAll_apply (additions : List (ℕ × ℚ)) (distances : ℕ → Double) (entry : ℕ) :
    addAll (additions.map (Prod.map id fun x : ℚ => (x : Double))) distances entry =
      distances entry + (added additions entry : ℚ) := by
  induction additions generalizing distances with
  | nil => exact (add_zero _).symm
  | cons a additions ih =>
    have hcons : added (a :: additions) entry = (if a.1 = entry then a.2 else 0) +
      added additions entry := rfl
    rw [hcons, WithTop.coe_add, ← add_assoc]
    refine (ih _).trans (congrArg (· + _) ?_)
    rcases eq_or_ne a.1 entry with rfl | hne
    · rw [if_pos rfl]
      exact Function.update_self ..
    · rw [if_neg hne]
      exact (Function.update_of_ne hne.symm _ _).trans (add_zero _).symm

/-- The order of the additions does not matter. -/
theorem addAll_perm {additions additions' : List (ℕ × Double)} (h : additions.Perm additions')
    (distances : ℕ → Double) : addAll additions distances = addAll additions' distances := by
  refine h.foldl_eq' (fun a _ b _ m => ?_) distances
  rcases eq_or_ne a.1 b.1 with heq | hne
  · rw [heq, Function.update_self, Function.update_self, Function.update_idem, Function.update_idem,
      add_right_comm]
  · rw [Function.update_of_ne hne, Function.update_of_ne hne.symm, Function.update_comm hne]

theorem added_flatMap (items : List ℕ) (additions : ℕ → List (ℕ × ℚ)) (entry : ℕ) :
    added (items.flatMap additions) entry = (items.map fun w => added (additions w) entry).sum := by
  rw [added, List.map_flatMap, List.flatMap, List.sum_flatten, List.map_map]
  rfl

/-- A linear index is decoded into a quotient and a remainder. -/
theorem sum_range_mul (f : ℕ → ℕ → ℚ) (a b : ℕ) :
    ∑ w ∈ Finset.range (a * b), f (w / b) (w % b) = ∑ x ∈ Finset.range a,
      ∑ y ∈ Finset.range b, f x y := by
  induction a with
  | zero => simp
  | succ a ih =>
    rw [add_mul, one_mul, Finset.sum_range_add, ih, Finset.sum_range_succ]
    refine congrArg (_ + ·) (Finset.sum_congr rfl fun y hy => ?_)
    have hy := Finset.mem_range.1 hy
    rw [Nat.mul_add_mod', Nat.mod_eq_of_lt hy, mul_comm, Nat.mul_add_div (by omega),
      Nat.div_eq_of_lt hy, add_zero]

theorem entry_eq_iff {n i j x y : ℕ} (hj : j < n) (hy : y < n) :
    i * n + j = x * n + y ↔ i = x ∧ j = y := by
  constructor
  · intro h
    have hdiv := congrArg (· / n) h
    have hmod := congrArg (· % n) h
    simp only [mul_comm _ n, Nat.mul_add_div (by omega : 0 < n), Nat.div_eq_of_lt hj,
      Nat.div_eq_of_lt hy, add_zero] at hdiv
    simp only [Nat.mul_add_mod', Nat.mod_eq_of_lt hj, Nat.mod_eq_of_lt hy] at hmod
    exact ⟨hdiv, hmod⟩
  · rintro ⟨rfl, rfl⟩
    rfl

section Entries

variable {updates : List (List ℚ)} {dimension i j x y : ℕ}

/-- A chunk of a pair adds to the two entries of the pair and to no other. -/
theorem added_chunkAdditions (chunk : ℕ) (hi : i < updates.length) (hj : j < updates.length)
    (hy : y < updates.length) :
    added (chunkAdditions updates dimension i j chunk) (x * updates.length + y) =
      if i = min x y ∧ j = max x y ∧ x ≠ y then chunkSum updates dimension i j chunk else 0 := by
  by_cases hji : j ≤ i
  · rw [chunkAdditions, if_pos hji, if_neg (by omega)]
    rfl
  · simp only [chunkAdditions, if_neg hji, added, List.map_cons, List.map_nil, List.sum_cons,
      List.sum_nil, entry_eq_iff hj hy, entry_eq_iff hi hy, add_zero]
    by_cases hxy : i = x ∧ j = y
    · rw [if_pos hxy, if_neg (by omega), if_pos (by omega), add_zero]
    · by_cases hyx : j = x ∧ i = y
      · rw [if_neg hxy, if_pos hyx, if_pos (by omega), zero_add]
      · rw [if_neg hxy, if_neg hyx, if_neg (by omega), add_zero]

/-- The entry that the work items leave in a zeroed matrix. -/
theorem added_workItems (hx : x < updates.length) (hy : y < updates.length) :
    added ((List.range (totalWorkItems updates.length dimension)).flatMap fun w =>
        itemAdditions updates dimension (w / chunksPerPair dimension) (w % chunksPerPair dimension))
      (x * updates.length + y) =
    if x = y then 0
    else Simd.squaredDistanceScalar (resolveUpdate updates (min x y))
        (resolveUpdate updates (max x y)) dimension := by
  have hpairs : added ((List.range (totalWorkItems updates.length dimension)).flatMap fun w =>
        itemAdditions updates dimension (w / chunksPerPair dimension) (w % chunksPerPair dimension))
      (x * updates.length + y) =
      ∑ i ∈ Finset.range updates.length, ∑ j ∈ Finset.range updates.length,
        ∑ chunk ∈ Finset.range (chunksPerPair dimension),
          added (chunkAdditions updates dimension i j chunk) (x * updates.length + y) := by
    rw [added_flatMap, ← sum_range_eq, totalWorkItems,
      sum_range_mul fun slot chunk => added (itemAdditions updates dimension slot chunk)
      (x * updates.length + y)]
    exact sum_range_mul (fun i j => ∑ chunk ∈ Finset.range (chunksPerPair dimension),
      added (chunkAdditions updates dimension i j chunk) (x * updates.length + y)) _ _
  have hchunks (i j : ℕ) (hi : i ∈ Finset.range updates.length)
      (hj : j ∈ Finset.range updates.length) :
      ∑ chunk ∈ Finset.range (chunksPerPair dimension),
          added (chunkAdditions updates dimension i j chunk) (x * updates.length + y) =
        if i = min x y ∧ j = max x y ∧ x ≠ y then
          Simd.squaredDistanceScalar (resolveUpdate updates i) (resolveUpdate updates j) dimension
            else 0 := by
    simp only [added_chunkAdditions _ (Finset.mem_range.1 hi) (Finset.mem_range.1 hj) hy]
    split_ifs
    · rw [Simd.squaredDistanceScalar_eq]
      refine (sum_chunks (fun d => (resolveUpdate updates i d - resolveUpdate updates j d) ^ 2)
        dimension _).trans ?_
      rw [min_eq_right (le_chunksPerPair_mul dimension)]
    · exact Finset.sum_const_zero
  rw [hpairs, Finset.sum_congr rfl fun i hi => Finset.sum_congr rfl fun j hj => hchunks i j hi hj]
  split_ifs with hxy
  · exact Finset.sum_eq_zero fun i _ => Finset.sum_eq_zero fun j _ => if_neg fun h => h.2.2 hxy
  · rw [Finset.sum_eq_single (min x y), Finset.sum_eq_single (max x y), if_pos ⟨rfl, rfl, hxy⟩]
    · exact fun j _ hj => if_neg fun h => hj h.2.1
    · exact fun hmax => absurd (Finset.mem_range.2 (max_lt hx hy)) hmax
    · exact fun i _ hi => Finset.sum_eq_zero fun j _ => if_neg fun h => hi h.1
    · exact fun hmin => absurd (Finset.mem_range.2 (lt_of_le_of_lt (min_le_left x y) hx)) hmin

end Entries

/-! ## Races -/

variable {updates : List (List ℚ)} {dimension gridDim : ℕ}

/-- No phase of the kernel has a race. -/
theorem raceFree_pairwiseDistanceKernel {n chunksPerPair totalWorkItems blockDim blockIdx : ℕ} :
    ∀ phase ∈ pairwiseDistanceKernel updates dimension chunksPerPair totalWorkItems blockDim gridDim
      blockIdx, ∀ s, RaceFree n (phase.lanes s) s.mem := by
  intro phase h
  obtain ⟨w, -, h⟩ := List.mem_flatMap.1 h
  simp only [workItemPhases] at h
  split_ifs at h with hji
  · exact absurd h List.not_mem_nil
  rw [List.mem_append, List.mem_singleton, sumChunk, List.mem_cons] at h
  rcases h with (rfl | h) | rfl
  · exact fun s => raceFree_store s _
  · obtain ⟨stride, -, rfl⟩ := List.mem_map.1 h
    exact fun s => raceFree_reduce s stride
  · exact fun s => raceFree_onFirst s _

/-! ## The distances -/

/-- The entries that the kernel leaves in a zeroed matrix, in whatever order the additions come. -/
theorem addAll_gridAdditions (updates : List (List ℚ)) (dimension p : ℕ) (hgrid : 1 ≤ gridDim)
    (start : ℕ → BlockState Cell Double Double) {additions : List (ℕ × Double)}
    (hadditions : additions.Perm (gridAdditions updates dimension (2 ^ p) gridDim start)) {x y : ℕ}
    (hx : x < updates.length) (hy : y < updates.length) :
    addAll additions (fun _ => 0) (x * updates.length + y) =
      ((if x = y then 0 else Simd.squaredDistanceScalar (resolveUpdate updates (min x y))
        (resolveUpdate updates (max x y)) dimension : ℚ) : Double) := by
  rw [addAll_perm (hadditions.trans (gridAdditions_perm updates dimension p hgrid start)),
    addAll_apply, added_workItems hx hy, zero_add]

/-- The vectorised distance is the scalar one, and so is every distance that the kernel leaves in a
zeroed matrix; the diagonal stays zero, and no lanes race. -/
theorem distances_cover :
    (∀ (lhs rhs : ℕ → ℚ) (size : ℕ),
      Simd.squaredDistanceAvx512 lhs rhs size = Simd.squaredDistanceScalar lhs rhs size) ∧
    ∀ (updates : List (List ℚ)) (dimension p gridDim : ℕ), 1 ≤ gridDim →
      ∀ (start : ℕ → BlockState Cell Double Double) (additions : List (ℕ × Double)),
      additions.Perm (gridAdditions updates dimension (2 ^ p) gridDim start) →
      (∀ i j, i < j → j < updates.length →
        addAll additions (fun _ => 0) (i * updates.length + j) =
          (Simd.squaredDistanceScalar (resolveUpdate updates i)
            (resolveUpdate updates j) dimension : ℚ) ∧
        addAll additions (fun _ => 0) (j * updates.length + i) =
          (Simd.squaredDistanceScalar (resolveUpdate updates i)
            (resolveUpdate updates j) dimension : ℚ)) ∧
      (∀ i < updates.length, addAll additions (fun _ => 0) (i * updates.length + i) = 0) ∧
      ∀ blockIdx < gridDim, RaceFreeRun (2 ^ p)
        (pairwiseDistanceKernel updates dimension (chunksPerPair dimension)
          (totalWorkItems updates.length dimension) (2 ^ p) gridDim blockIdx) (start blockIdx) := by
  refine ⟨Simd.squaredDistanceAvx512_eq,
    fun updates dimension p gridDim hgrid start additions hadditions => ?_⟩
  have hentry {x y : ℕ} (hx : x < updates.length) (hy : y < updates.length) :=
    addAll_gridAdditions updates dimension p hgrid start hadditions hx hy
  refine ⟨fun i j hij hj => ⟨?_, ?_⟩, fun i hi => ?_, fun blockIdx _ => ?_⟩
  · rw [hentry (by omega) hj, if_neg hij.ne, min_eq_left hij.le, max_eq_right hij.le]
  · rw [hentry hj (by omega), if_neg hij.ne', min_eq_right hij.le, max_eq_left hij.le]
  · rw [hentry hi hi, if_pos rfl]
    rfl
  · exact raceFreeRun_of_forall raceFree_pairwiseDistanceKernel _

/-- Two clients, one block of two lanes. -/
theorem distances_cover_two :
    addAll (gridAdditions [[1, 2], [4, 6]] 2 (2 ^ 1) 1 fun _ => ⟨fun _ => 0, fun _ => 0⟩)
      (fun _ => 0) (0 * 2 + 1) = ((25 : ℚ) : Double) := by
  have h := (distances_cover.2 [[1, 2], [4, 6]] 2 1 1 le_rfl
    (fun _ => ⟨fun _ => 0, fun _ => 0⟩) _ (.refl _)).1 0 1 (by decide) (by decide)
  refine h.1.trans (congrArg _ ?_)
  rw [Simd.squaredDistanceScalar_eq]
  decide +kernel

/-- In every interleaving of its lanes, a block meets the barriers with the memory of lock step. -/
theorem pairwiseDistanceKernel_schedule {n chunksPerPair totalWorkItems blockDim blockIdx : ℕ}
    {s s' : BlockState Cell Double Double}
    (h : Schedule n (pairwiseDistanceKernel updates dimension chunksPerPair totalWorkItems blockDim
      gridDim blockIdx) s s') :
    s'.mem = (runPhases n
      (pairwiseDistanceKernel updates dimension chunksPerPair totalWorkItems blockDim gridDim
        blockIdx) s).mem :=
  (h.outcome raceFree_pairwiseDistanceKernel ⟨rfl, fun _ _ => rfl⟩).1

theorem checkedMultiply_ok {lhs rhs product : ℕ} {message : String}
    (h : checkedMultiply lhs rhs message = .ok product) : product = lhs * rhs := by
  rw [checkedMultiply] at h
  split_ifs at h
  exact (Except.ok.inj h).symm

/-- A launch that succeeds starts at least one block. -/
theorem launchPairwiseDistances_ok {start : ℕ → BlockState Cell Double Double}
    {launched : List (ℕ × Double)}
    (h : launchPairwiseDistances updates dimension start = .ok launched) :
    ∃ blocks, 1 ≤ blocks ∧ launched = gridAdditions updates dimension (2 ^ 8) blocks start := by
  simp only [launchPairwiseDistances] at h
  split_ifs at h with hempty
  rw [not_or] at hempty
  rcases hpairs : checkedMultiply updates.length updates.length
    "CUDA client-count square overflow" with e | pairSlots
  · rw [hpairs] at h
    cases h
  rw [hpairs] at h
  rcases htotal : checkedMultiply pairSlots
    (chunksPerPair dimension) "CUDA distance work-grid overflow" with e | total
  · simp only [bind, Except.bind, htotal, reduceCtorEq] at h
  simp only [bind, Except.bind, htotal] at h
  refine ⟨_, ?_, (Except.ok.inj h).symm⟩
  have hchunks : 0 < chunksPerPair dimension := by
    have := le_chunksPerPair_mul dimension
    by_contra hzero
    rw [Nat.eq_zero_of_not_pos hzero] at this
    omega
  have hpos : 0 < total := by
    rw [checkedMultiply_ok htotal, checkedMultiply_ok hpairs]
    have hclients := Nat.pos_of_ne_zero hempty.1
    exact Nat.mul_pos (Nat.mul_pos hclients hclients) hchunks
  split_ifs
  · exact hpos
  · decide

/-- The scalar distance of two clients is the one that Krum computes. -/
theorem squaredDistance_resolveUpdate {i j : ℕ} (hlength : ∀ u ∈ updates, u.length = dimension)
    (hi : i < updates.length) (hj : j < updates.length) :
    Simd.squaredDistanceScalar (resolveUpdate updates i) (resolveUpdate updates j) dimension =
      squaredDistance (updates.getD i []) (updates.getD j []) := by
  have hget {k : ℕ} (hk : k < updates.length) : (updates.getD k []).length = dimension := by
    rw [List.getD_eq_getElem _ _ hk]
    exact hlength _ (List.getElem_mem hk)
  rw [Simd.squaredDistance_eq_scalar ((hget hi).trans (hget hj).symm), hget hi]
  rfl

/-- A launch that succeeds leaves the distances that Krum computes. -/
theorem launchPairwiseDistances_computes (hlength : ∀ u ∈ updates, u.length = dimension)
    {start : ℕ → BlockState Cell Double Double} {launched additions : List (ℕ × Double)}
    (hlaunch : launchPairwiseDistances updates dimension start = .ok launched)
    (hadditions : additions.Perm launched) {x y : ℕ} (hx : x < updates.length)
    (hy : y < updates.length) :
    addAll additions (fun _ => 0) (x * updates.length + y) = (distance updates x y : ℚ) := by
  obtain ⟨blocks, hblocks, rfl⟩ := launchPairwiseDistances_ok hlaunch
  rw [addAll_gridAdditions updates dimension 8 hblocks start hadditions hx hy, distance]
  rcases lt_trichotomy x y with h | rfl | h
  · rw [if_neg h.ne, if_pos h, min_eq_left h.le, max_eq_right h.le,
      squaredDistance_resolveUpdate hlength hx hy]
  · rw [if_pos rfl, if_neg (lt_irrefl x), if_neg (lt_irrefl x)]
  · rw [if_neg h.ne', if_neg h.not_gt, if_pos h, min_eq_right h.le, max_eq_left h.le,
      squaredDistance_resolveUpdate hlength hy hx]

end Cuda

end ZeroTrustFL
