import Mathlib

/-!
# Data partitioning

`data/partitioner.py`: `iid_partition` and `dirichlet_partition`, with the outcomes of the random
generator as data.  A dictionary of client ids is a list; the client's id is its position.  The
indices are handed out class by class, in consecutive slices of the shuffled class; `Assigned` is
what the loops keep: all indices of the classes so far, each as often as it occurs.
-/

namespace ZeroTrustFL

namespace Partitioner

/-- A `ValueError` or a `RuntimeError`. -/
inductive Failure where
  | value (message : String)
  | runtime (message : String)
  deriving DecidableEq, Repr

/-- `extract_targets` of integers in one dimension. -/
def extractTargets (targets : List ℤ) : Except Failure (List ℤ) :=
  if targets.length = 0 then .error (.value "cannot partition an empty label set") else .ok targets

def validateClientCount (sampleCount : ℕ) (numClients : ℤ) : Except Failure Unit :=
  if numClients ≤ 0 then .error (.value "num_clients must be positive")
  else if sampleCount < numClients then
    .error (.value "num_clients cannot exceed the number of samples")
  else .ok ()

def validatePartitionCoverage (partitions : List (List ℕ)) (sampleCount : ℕ) :
    Except Failure Unit :=
  let merged := partitions.flatten
  if merged.length ≠ sampleCount then
    .error (.runtime "partitioning did not assign every sample exactly once")
  else if merged.dedup.length ≠ sampleCount then
    .error (.runtime "partitioning assigned at least one sample more than once")
  else if merged.foldl (fun (m : ℤ) (i : ℕ) => min m i) 0 < 0 ∨
      sampleCount ≤ merged.foldl (fun (m : ℤ) (i : ℕ) => max m i) (-1) then
    .error (.runtime "partition contains an out-of-range sample index")
  else .ok ()

theorem extractTargets_ok {targets : List ℤ} (h : targets ≠ []) :
    extractTargets targets = .ok targets :=
  if_neg fun hlength => h (List.length_eq_zero_iff.1 hlength)

variable {sampleCount i length : ℕ} {partitions : List (List ℕ)} (l : List ℕ)

theorem validateClientCount_ok {numClients : ℤ} (hpos : 0 < numClients)
    (hle : numClients ≤ sampleCount) : validateClientCount sampleCount numClients = .ok () := by
  rw [validateClientCount, if_neg hpos.not_ge, if_neg hle.not_gt]

/-! ## Slices -/

/-- The offsets of consecutive slices of the given lengths. -/
def offsets (counts : List ℕ) : List ℕ := counts.scanl (· + ·) 0

/-- The slice from an offset to the next. -/
def chunk (l counts : List ℕ) (clientID : ℕ) : List ℕ :=
  l.extract ((offsets counts).getD clientID 0) ((offsets counts).getD (clientID + 1) 0)

theorem offsets_getD {counts : List ℕ} (h : i ≤ counts.length) :
    (offsets counts).getD i 0 = (counts.take i).sum := by
  rw [offsets, List.getD_eq_getElem?_getD, List.getElem?_scanl, if_pos h, Option.getD_some,
    List.sum_eq_foldl]

theorem chunk_cons_succ (counts : List ℕ) (n : ℕ) (h : i < counts.length) :
    chunk l (n :: counts) (i + 1) = chunk (l.drop n) counts i := by
  have hi : i + 1 ≤ (n :: counts).length := Nat.succ_le_succ h.le
  have hj : i + 1 + 1 ≤ (n :: counts).length := Nat.succ_le_succ h
  rw [chunk, chunk, offsets_getD hi, offsets_getD hj, offsets_getD h.le, offsets_getD h,
    List.take_succ_cons, List.take_succ_cons, List.sum_cons, List.sum_cons, List.extract,
    List.extract, List.drop_drop, Nat.add_sub_add_left]

/-- The slices split the list. -/
theorem map_chunk (counts : List ℕ) :
    (List.range counts.length).map (chunk l counts) = counts.splitLengths l := by
  induction counts generalizing l with
  | nil => rfl
  | cons n counts ih =>
    rw [List.length_cons, List.range_succ_eq_map, List.map_cons, List.map_map,
      List.splitLengths_cons, ← ih]
    refine congrArg₂ _ ?_ (List.map_congr_left fun i hi =>
      chunk_cons_succ l counts n (List.mem_range.1 hi))
    rw [chunk, offsets_getD (Nat.zero_le _), offsets_getD (Nat.succ_le_succ (Nat.zero_le _))]
    simp

/-! ## Exact partitions -/

/-- Every index occurs in the list of one client, once. -/
structure ExactPartition (sampleCount : ℕ) (partitions : List (List ℕ)) : Prop where
  assigned : ∀ i < sampleCount, ∃! clientID, i ∈ partitions.getD clientID []
  once : ∀ clientID i, (partitions.getD clientID []).count i ≤ 1
  in_range : ∀ clientID, ∀ i ∈ partitions.getD clientID [], i < sampleCount

theorem getD_mem_or_nil (partitions : List (List ℕ)) (clientID : ℕ) :
    partitions.getD clientID [] ∈ partitions ∨ partitions.getD clientID [] = [] := by
  rcases lt_or_ge clientID partitions.length with h | h
  · rw [List.getD_eq_getElem _ _ h]
    exact .inl (List.getElem_mem h)
  · exact .inr (List.getD_eq_default _ _ h)

theorem lt_length_of_mem_getD {clientID : ℕ} (h : i ∈ partitions.getD clientID []) :
    clientID < partitions.length := by
  by_contra hlt
  rw [List.getD_eq_default _ _ (not_lt.1 hlt)] at h
  cases h

theorem exactPartition_of_perm (h : partitions.flatten.Perm (List.range sampleCount)) :
    ExactPartition sampleCount partitions := by
  obtain ⟨hnodup, hdisjoint⟩ := List.nodup_flatten.1 (h.symm.nodup List.nodup_range)
  refine ⟨fun i hi => ?_, fun clientID i => ?_, fun clientID i hi => ?_⟩
  · obtain ⟨l, hl, hil⟩ := List.mem_flatten.1 (h.mem_iff.2 (List.mem_range.2 hi))
    obtain ⟨clientID, hlt, rfl⟩ := List.getElem_of_mem hl
    have hmem : i ∈ partitions.getD clientID [] := by rwa [List.getD_eq_getElem _ _ hlt]
    refine ⟨clientID, hmem, fun other (hother : i ∈ partitions.getD other []) => ?_⟩
    have hlt' := lt_length_of_mem_getD hother
    rw [List.getD_eq_getElem _ _ hlt'] at hother
    by_contra hne
    rcases lt_or_gt_of_ne hne with hlt₂ | hlt₂
    · exact List.pairwise_iff_getElem.1 hdisjoint _ _ hlt' hlt hlt₂ hother hil
    · exact List.pairwise_iff_getElem.1 hdisjoint _ _ hlt hlt' hlt₂ hil hother
  · rcases getD_mem_or_nil partitions clientID with hmem | hnil
    · exact List.nodup_iff_count_le_one.1 (hnodup _ hmem) i
    · rw [hnil, List.count_nil]
      exact Nat.zero_le 1
  · have hlt := lt_length_of_mem_getD hi
    rw [List.getD_eq_getElem _ _ hlt] at hi
    exact List.mem_range.1 (h.mem_iff.1 (List.mem_flatten.2 ⟨_, List.getElem_mem hlt, hi⟩))

theorem foldl_min_cast : l.foldl (fun (m : ℤ) (i : ℕ) => min m i) 0 = 0 := by
  induction l with
  | nil => rfl
  | cons i l ih => rw [List.foldl_cons, min_eq_left (Int.natCast_nonneg i), ih]

theorem foldl_max_lt {l : List ℕ} {n : ℕ} {m : ℤ} (hm : m < n) (hl : ∀ i ∈ l, i < n) :
    l.foldl (fun (m : ℤ) (i : ℕ) => max m i) m < n := by
  induction l generalizing m with
  | nil => exact hm
  | cons i l ih =>
    exact ih (max_lt hm (Int.ofNat_lt.2 (hl i List.mem_cons_self))) fun j hj =>
      hl j (List.mem_cons_of_mem i hj)

/-- An exact partition passes the check. -/
theorem validatePartitionCoverage_of_perm (h : partitions.flatten.Perm (List.range sampleCount)) :
    validatePartitionCoverage partitions sampleCount = .ok () := by
  have hlength : partitions.flatten.length = sampleCount := by rw [h.length_eq, List.length_range]
  have hnodup := h.symm.nodup List.nodup_range
  have hmax := @foldl_max_lt partitions.flatten sampleCount (-1) (by omega)
    fun i hi => List.mem_range.1 (h.mem_iff.1 hi)
  simp only [validatePartitionCoverage, hnodup.dedup, hlength, foldl_min_cast, ne_eq,
    not_true_eq_false, lt_irrefl, hmax.not_ge, or_self, if_false]

/-! ## Uniform partitions -/

/-- The section sizes of `np.array_split`. -/
def sectionSizes (length sections : ℕ) : List ℕ :=
  List.replicate (length % sections) (length / sections + 1) ++
    List.replicate (sections - length % sections) (length / sections)

/-- `np.array_split` of a list of indices. -/
def arraySplit (l : List ℕ) (sections : ℕ) : List (List ℕ) :=
  (List.range sections).map (chunk l (sectionSizes l.length sections))

/-- `iid_partition`; `permutation` is what the generator returns. -/
def iidPartition (targets : List ℤ) (numClients : ℤ) (permutation : ℕ → List ℕ) :
    Except Failure (List (List ℕ)) := do
  let targets ← extractTargets targets
  validateClientCount targets.length numClients
  let shuffled := permutation targets.length
  return (arraySplit shuffled numClients.toNat).map fun indices => indices.insertionSort (· ≤ ·)

theorem length_sectionSizes {sections : ℕ} (h : 0 < sections) :
    (sectionSizes length sections).length = sections := by
  have := Nat.mod_lt length h
  rw [sectionSizes, List.length_append, List.length_replicate, List.length_replicate]
  omega

theorem sum_sectionSizes {sections : ℕ} (h : 0 < sections) :
    (sectionSizes length sections).sum = length := by
  obtain ⟨d, hd⟩ := Nat.exists_eq_add_of_le (Nat.mod_lt length h).le
  have hdiv := Nat.div_add_mod length sections
  rw [sectionSizes, List.sum_append, List.sum_replicate, List.sum_replicate, smul_eq_mul,
    smul_eq_mul]
  generalize length % sections = r at hd hdiv ⊢
  generalize length / sections = q at hdiv ⊢
  subst hd hdiv
  rw [Nat.add_sub_cancel_left]
  ring

theorem mem_sectionSizes {sections n : ℕ} (h : n ∈ sectionSizes length sections) :
    length / sections ≤ n ∧ n ≤ length / sections + 1 := by
  rcases List.mem_append.1 h with h | h
  · rw [List.eq_of_mem_replicate h]
    exact ⟨Nat.le_succ _, le_rfl⟩
  · rw [List.eq_of_mem_replicate h]
    exact ⟨le_rfl, Nat.le_succ _⟩

theorem arraySplit_eq {sections : ℕ} (h : 0 < sections) :
    arraySplit l sections = (sectionSizes l.length sections).splitLengths l := by
  rw [← map_chunk, length_sectionSizes h]
  rfl

theorem map_length_arraySplit {sections : ℕ} (h : 0 < sections) :
    (arraySplit l sections).map List.length = sectionSizes l.length sections := by
  rw [arraySplit_eq l h, List.map_splitLengths_length _ _ (sum_sectionSizes h).le]

theorem flatten_arraySplit {sections : ℕ} (h : 0 < sections) :
    (arraySplit l sections).flatten = l := by
  rw [arraySplit_eq l h, List.flatten_splitLengths _ _ (sum_sectionSizes h).ge]

theorem perm_flatten_map {f : List ℕ → List ℕ} (hf : ∀ l, (f l).Perm l) (L : List (List ℕ)) :
    (L.map f).flatten.Perm L.flatten := by
  induction L with
  | nil => exact .refl _
  | cons l L ih =>
    rw [List.map_cons, List.flatten_cons, List.flatten_cons]
    exact (hf l).append ih

/-- A uniform partition is exact, and the sizes of its parts differ by at most one. -/
theorem iidPartition_ok {targets : List ℤ} {numClients : ℤ} {permutation : ℕ → List ℕ}
    (hne : targets ≠ []) (hpos : 0 < numClients) (hle : numClients ≤ targets.length)
    (hperm : ∀ n, (permutation n).Perm (List.range n)) :
    ∃ partitions, iidPartition targets numClients permutation = .ok partitions ∧
      partitions.length = numClients ∧ partitions.flatten.Perm (List.range targets.length) ∧
      ∀ l ∈ partitions, ∀ l' ∈ partitions, l.length ≤ l'.length + 1 := by
  have hsections : 0 < numClients.toNat := Int.pos_iff_toNat_pos.1 hpos
  refine ⟨(arraySplit (permutation targets.length) numClients.toNat).map fun indices =>
    indices.insertionSort (· ≤ ·), ?_, ?_, ?_, ?_⟩
  · rw [iidPartition, extractTargets_ok hne]
    change (do validateClientCount targets.length numClients; pure _) = _
    rw [validateClientCount_ok hpos hle]
    rfl
  · rw [List.length_map, arraySplit, List.length_map, List.length_range,
      Int.toNat_of_nonneg hpos.le]
  · refine (perm_flatten_map (fun l => List.perm_insertionSort _ l) _).trans ?_
    rw [flatten_arraySplit _ hsections]
    exact hperm _
  · have hsize (l : List ℕ) (hl : l ∈ (arraySplit (permutation targets.length) numClients.toNat).map
        fun indices => indices.insertionSort (· ≤ ·)) :
        l.length ∈ sectionSizes (permutation targets.length).length numClients.toNat := by
      obtain ⟨indices, hmem, rfl⟩ := List.mem_map.1 hl
      rw [List.length_insertionSort, ← map_length_arraySplit _ hsections]
      exact List.mem_map_of_mem hmem
    intro l hl l' hl'
    exact (mem_sectionSizes (hsize l hl)).2.trans
      (Nat.succ_le_succ (mem_sectionSizes (hsize l' hl')).1)

/-! ## Class-wise partitions -/

/-- What the generator returns in an attempt: the shuffled indices of a class, its proportions and
its counts, and the shuffled indices of a client. -/
structure Attempt (K : Type*) where
  shuffleClass : ℤ → List ℕ → List ℕ
  shuffleClass_perm : ∀ classID l, (shuffleClass classID l).Perm l
  dirichlet : ℤ → List K → List K
  length_dirichlet : ∀ classID alpha, (dirichlet classID alpha).length = alpha.length
  multinomial : ℤ → ℕ → List K → List ℕ
  length_multinomial : ∀ classID n proportions, (multinomial classID n proportions).length =
    proportions.length
  sum_multinomial : ∀ classID n proportions, proportions ≠ [] →
    (multinomial classID n proportions).sum = n
  shuffleClient : ℕ → List ℕ → List ℕ
  shuffleClient_perm : ∀ clientID l, (shuffleClient clientID l).Perm l

/-- The chunks and the number of indices of every client. -/
structure Allocation where
  clientIndices : List (List (List ℕ))
  clientSizes : List ℕ

/-- A round of the loop over the clients. -/
def assignChunk (classIndices counts : List ℕ) (allocation : Allocation) (clientID : ℕ) :
    Allocation :=
  let chunk := chunk classIndices counts clientID
  if chunk.length ≠ 0 then
    { clientIndices := allocation.clientIndices.modify clientID (· ++ [chunk])
      clientSizes := allocation.clientSizes.modify clientID (· + chunk.length) }
  else allocation

/-- `np.flatnonzero(targets == class_id)`. -/
def indicesOf (targets : List ℤ) (classID : ℤ) : List ℕ :=
  (List.range targets.length).filter fun i => targets.getD i 0 = classID

/-- `np.unique(targets)`. -/
def unique (targets : List ℤ) : List ℤ := targets.dedup.insertionSort (· ≤ ·)

section Dirichlet

variable {K : Type*} [Field K] [LinearOrder K]

/-- The proportions after the balancing mask. -/
def balance (sampleCount numClients : ℕ) (clientSizes : List ℕ) (proportions : List K) : List K :=
  let averageTarget : K := sampleCount / numClients
  let underTarget := clientSizes.map fun (size : ℕ) => decide ((size : K) < averageTarget)
  if underTarget.any id then
    let proportions := List.zipWith (fun p under => if under then p else 0) proportions underTarget
    let total := proportions.sum
    if 0 < total then proportions.map (· / total) else List.replicate numClients
      (1 / (numClients : K))
  else proportions

/-- A round of the loop over the classes. -/
def assignClass (targets : List ℤ) (numClients : ℕ) (alpha : K) (balanced : Bool)
    (attempt : Attempt K) (allocation : Allocation) (classID : ℤ) : Allocation :=
  let classIndices := attempt.shuffleClass classID (indicesOf targets classID)
  let proportions := attempt.dirichlet classID (List.replicate numClients alpha)
  let proportions :=
    if balanced then balance targets.length numClients allocation.clientSizes proportions
    else proportions
  let counts := attempt.multinomial classID classIndices.length proportions
  (List.range numClients).foldl (assignChunk classIndices counts) allocation

/-- The loop over the classes. -/
def assign (targets : List ℤ) (numClients : ℕ) (alpha : K) (balanced : Bool) (attempt : Attempt K) :
    Allocation :=
  (unique targets).foldl (assignClass targets numClients alpha balanced attempt)
    { clientIndices := List.replicate numClients [], clientSizes := List.replicate numClients 0 }

/-- An attempt; none if a client has too few indices. -/
def attemptPartition (targets : List ℤ) (numClients : ℕ) (alpha : K) (minSamplesPerClient : ℤ)
    (balanced : Bool) (attempt : Attempt K) : Option (List (List ℕ)) :=
  let allocation := assign targets numClients alpha balanced attempt
  if (allocation.clientSizes.min?.getD 0 : ℤ) < minSamplesPerClient then none
  else some (allocation.clientIndices.mapIdx fun clientID chunks =>
    if chunks ≠ [] then attempt.shuffleClient clientID chunks.flatten else [])

/-- The loop over the attempts, from attempt `i` on. -/
def retry (attempt : ℕ → Option (List (List ℕ))) (sampleCount : ℕ) :
    ℕ → ℕ → Except Failure (List (List ℕ))
  | _, 0 => .error (.runtime ("could not satisfy Dirichlet minimum sample constraint; " ++
      "increase alpha, reduce clients, or lower min_samples_per_client"))
  | i, remaining + 1 =>
    match attempt i with
    | none => retry attempt sampleCount (i + 1) remaining
    | some partitions => (validatePartitionCoverage partitions sampleCount).map fun _ => partitions

/-- `dirichlet_partition`. -/
def dirichletPartition (targets : List ℤ) (numClients : ℤ) (alpha : K)
    (minSamplesPerClient maxRetries : ℤ) (balanced : Bool) (attempts : ℕ → Attempt K) :
    Except Failure (List (List ℕ)) := do
  let targets ← extractTargets targets
  validateClientCount targets.length numClients
  if alpha ≤ 0 then .error (.value "alpha must be a finite value greater than zero")
  else if minSamplesPerClient < 0 then .error (.value "min_samples_per_client cannot be negative")
  else if (targets.length : ℤ) < minSamplesPerClient * numClients then
    .error (.value "minimum sample requirement exceeds dataset size")
  else if maxRetries ≤ 0 then .error (.value "max_retries must be positive")
  else
    retry (fun i => attemptPartition targets numClients.toNat alpha minSamplesPerClient balanced
      (attempts i)) targets.length 0 maxRetries.toNat

end Dirichlet

/-! ### The loops -/

/-- The clients have the given indices, and the sizes are those of their chunks. -/
structure Assigned (numClients : ℕ) (allocation : Allocation) (indices : List ℕ) : Prop where
  clients : allocation.clientIndices.length = numClients
  sizes : allocation.clientSizes = allocation.clientIndices.map fun chunks => chunks.flatten.length
  indices : allocation.clientIndices.flatten.flatten.Perm indices

theorem map_modify {α β : Type*} {f : α → α} {g : α → β} {f' : β → β} (h : ∀ x, g (f x) = f' (g x))
    (l : List α) (i : ℕ) : (l.modify i f).map g = (l.map g).modify i f' := by
  refine List.ext_getElem (by simp) fun j h₁ h₂ => ?_
  rw [List.getElem_map, List.getElem_modify, List.getElem_modify, List.getElem_map]
  split_ifs
  · exact h _
  · rfl

theorem flatten_modify {L : List (List (List ℕ))} {i : ℕ} (h : i < L.length) (l : List ℕ) :
    (L.modify i (· ++ [l])).flatten.flatten.Perm (L.flatten.flatten ++ l) := by
  have hsplit : L = L.take i ++ L[i] :: L.drop (i + 1) := by
    rw [← List.drop_eq_getElem_cons h, List.take_append_drop]
  rw [List.modify_eq_take_cons_drop h]
  conv_rhs => rw [hsplit]
  simp only [List.flatten_append, List.flatten_cons, List.flatten_nil, List.append_nil,
    List.append_assoc]
  exact (List.perm_append_comm.append_left _).append_left _

variable {numClients : ℕ} {allocation : Allocation} {indices : List ℕ}

theorem Assigned.perm (h : Assigned numClients allocation indices) {indices' : List ℕ}
    (hperm : indices.Perm indices') : Assigned numClients allocation indices' :=
  ⟨h.clients, h.sizes, h.indices.trans hperm⟩

/-- A client gets its slice of a class. -/
theorem Assigned.assignChunk (h : Assigned numClients allocation indices)
    (classIndices counts : List ℕ) {clientID : ℕ} (hlt : clientID < numClients) :
    Assigned numClients (assignChunk classIndices counts allocation clientID)
      (indices ++ chunk classIndices counts clientID) := by
  simp only [Partitioner.assignChunk]
  split_ifs with hchunk
  · refine ⟨by rw [List.length_modify, h.clients], ?_, ?_⟩
    · rw [h.sizes]
      exact (map_modify (fun chunks => by simp) _ _).symm
    · exact (flatten_modify (h.clients ▸ hlt) _).trans (h.indices.append_right _)
  · rw [not_not, List.length_eq_zero_iff] at hchunk
    rwa [hchunk, List.append_nil]

/-- The clients get their slices of a class. -/
theorem Assigned.foldl_assignChunk (h : Assigned numClients allocation indices)
    (classIndices counts : List ℕ) {clients : List ℕ}
    (hlt : ∀ clientID ∈ clients, clientID < numClients) :
    Assigned numClients (clients.foldl (Partitioner.assignChunk classIndices counts) allocation)
      (indices ++ (clients.map (chunk classIndices counts)).flatten) := by
  induction clients generalizing allocation indices with
  | nil => simpa using h
  | cons clientID clients ih =>
    have hstep := h.assignChunk classIndices counts (hlt clientID List.mem_cons_self)
    have hrest := ih hstep fun c hc => hlt c (List.mem_cons_of_mem clientID hc)
    rwa [List.append_assoc] at hrest

section Dirichlet

variable {K : Type*} [Field K] [LinearOrder K] (targets : List ℤ)

theorem length_balance {sampleCount : ℕ} {clientSizes : List ℕ} {proportions : List K}
    (hsizes : clientSizes.length = numClients) (hproportions : proportions.length = numClients) :
    (balance sampleCount numClients clientSizes proportions).length = numClients := by
  simp only [balance]
  split_ifs
  · rw [List.length_map, List.length_zipWith, List.length_map, hsizes, hproportions, min_self]
  · exact List.length_replicate
  · exact hproportions

/-- The indices of a class are given to the clients. -/
theorem Assigned.assignClass (h : Assigned numClients allocation indices) (hpos : 0 < numClients)
    (alpha : K) (balanced : Bool) (attempt : Attempt K) (classID : ℤ) :
    Assigned numClients (assignClass targets numClients alpha balanced attempt allocation classID)
      (indices ++ indicesOf targets classID) := by
  simp only [Partitioner.assignClass]
  generalize hproportions :
    (if balanced = true then balance targets.length numClients allocation.clientSizes
    (attempt.dirichlet classID (List.replicate numClients alpha)) else
      attempt.dirichlet classID (List.replicate numClients alpha)) = proportions
  have hlength : proportions.length = numClients := by
    have hdirichlet : (attempt.dirichlet classID (List.replicate numClients alpha)).length =
        numClients := by
      rw [attempt.length_dirichlet, List.length_replicate]
    rw [← hproportions]
    split_ifs
    · exact length_balance (by rw [h.sizes, List.length_map, h.clients]) hdirichlet
    · exact hdirichlet
  have hne : proportions ≠ [] := List.length_pos_iff_ne_nil.1 (hlength ▸ hpos)
  have hshuffle := attempt.shuffleClass_perm classID (indicesOf targets classID)
  generalize attempt.shuffleClass classID (indicesOf targets classID) = classIndices at hshuffle ⊢
  have hcounts := attempt.length_multinomial classID classIndices.length proportions
  have hsum := attempt.sum_multinomial classID classIndices.length proportions hne
  generalize attempt.multinomial classID classIndices.length proportions = counts at hcounts hsum ⊢
  have hall := h.foldl_assignChunk classIndices counts fun clientID => List.mem_range.1
  rw [← hlength, ← hcounts, map_chunk, List.flatten_splitLengths _ _ hsum.ge] at hall
  rw [← hlength, ← hcounts]
  exact hall.perm (hshuffle.append_left _)

/-- The indices of some classes are given to the clients. -/
theorem Assigned.foldl_assignClass (h : Assigned numClients allocation indices)
    (hpos : 0 < numClients) (alpha : K) (balanced : Bool) (attempt : Attempt K) (classes : List ℤ) :
    Assigned numClients (classes.foldl
      (Partitioner.assignClass targets numClients alpha balanced attempt) allocation)
      (indices ++ classes.flatMap (indicesOf targets)) := by
  induction classes generalizing allocation indices with
  | nil => simpa using h
  | cons classID classes ih =>
    have hrest := ih (h.assignClass targets hpos alpha balanced attempt classID)
    rwa [List.append_assoc] at hrest

theorem perm_flatMap_indicesOf :
    ((unique targets).flatMap (indicesOf targets)).Perm (List.range targets.length) := by
  have hnodup : (unique targets).Nodup := (List.perm_insertionSort _ _).symm.nodup
    (List.nodup_dedup _)
  have hclasses : ((unique targets).flatMap (indicesOf targets)).Nodup := by
    refine List.nodup_flatMap.2 ⟨fun _ _ => List.nodup_range.filter _,
      hnodup.imp fun hne i hi hi' => hne ?_⟩
    have h := (List.mem_filter.1 hi).2
    have h' := (List.mem_filter.1 hi').2
    exact (of_decide_eq_true h).symm.trans (of_decide_eq_true h')
  refine (List.perm_ext_iff_of_nodup hclasses List.nodup_range).2 fun i => ?_
  simp only [List.mem_flatMap, indicesOf, List.mem_filter, decide_eq_true_eq]
  refine ⟨fun ⟨_, _, hi, _⟩ => hi, fun hi => ⟨targets.getD i 0, ?_, hi, rfl⟩⟩
  have hlt := List.mem_range.1 hi
  rw [unique, (List.perm_insertionSort _ _).mem_iff, List.mem_dedup, List.getD_eq_getElem _ _ hlt]
  exact List.getElem_mem hlt

/-- All indices are given to the clients. -/
theorem assigned_assign (hpos : 0 < numClients) (alpha : K) (balanced : Bool)
    (attempt : Attempt K) :
    Assigned numClients (assign targets numClients alpha balanced attempt)
      (List.range targets.length) := by
  have hempty : Assigned numClients ⟨List.replicate numClients [],
      List.replicate numClients 0⟩ [] :=
    ⟨List.length_replicate, by simp, by simp⟩
  exact (hempty.foldl_assignClass targets hpos alpha balanced attempt (unique targets)).perm
    (perm_flatMap_indicesOf targets)

variable {targets}

theorem perm_flatten_mapIdx {f : ℕ → List (List ℕ) → List ℕ}
    (hf : ∀ i chunks, (f i chunks).Perm chunks.flatten) (L : List (List (List ℕ))) :
    (L.mapIdx f).flatten.Perm L.flatten.flatten := by
  induction L generalizing f with
  | nil => exact .refl _
  | cons chunks L ih =>
    rw [List.mapIdx_cons, List.flatten_cons, List.flatten_cons, List.flatten_append]
    exact (hf 0 chunks).append (ih fun i => hf (i + 1))

/-- A successful attempt hands out every index once, and enough indices to every client. -/
theorem attemptPartition_spec {alpha : K} {minSamplesPerClient : ℤ} {balanced : Bool}
    {attempt : Attempt K} {partitions : List (List ℕ)} (hpos : 0 < numClients)
    (h : attemptPartition targets numClients alpha minSamplesPerClient balanced attempt =
      some partitions) :
    partitions.length = numClients ∧ partitions.flatten.Perm (List.range targets.length) ∧
      ∀ l ∈ partitions, minSamplesPerClient ≤ l.length := by
  have hassigned := assigned_assign targets hpos alpha balanced attempt
  simp only [attemptPartition] at h
  generalize assign targets numClients alpha balanced attempt = allocation at h hassigned
  have hclient (clientID : ℕ) (chunks : List (List ℕ)) :
      (if chunks ≠ [] then attempt.shuffleClient clientID chunks.flatten
        else []).Perm chunks.flatten := by
    split_ifs with hchunks
    · exact attempt.shuffleClient_perm _ _
    · rw [not_not] at hchunks
      rw [hchunks]
      exact .refl _
  split_ifs at h with hmin
  cases h
  refine ⟨by rw [List.length_mapIdx, hassigned.clients], ?_, fun l hl => ?_⟩
  · exact (perm_flatten_mapIdx hclient _).trans hassigned.indices
  · obtain ⟨clientID, hlt, rfl⟩ := List.mem_mapIdx.1 hl
    rw [(hclient _ _).length_eq]
    have hsize : (allocation.clientIndices[clientID]).flatten.length ∈ allocation.clientSizes := by
      rw [hassigned.sizes]
      exact List.mem_map_of_mem (List.getElem_mem hlt)
    obtain ⟨m, hm⟩ := Option.isSome_iff_exists.1 (List.isSome_min?_of_mem hsize)
    rw [hm, Option.getD_some, not_lt] at hmin
    exact hmin.trans (Int.ofNat_le.2 ((List.min?_eq_some_iff.1 hm).2 _ hsize))

/-- The attempts run out, or one of them gives the result. -/
theorem retry_cases {attempt : ℕ → Option (List (List ℕ))} {sampleCount : ℕ}
    (hvalid : ∀ i partitions, attempt i = some partitions →
      validatePartitionCoverage partitions sampleCount = .ok ()) (i remaining : ℕ) :
    retry attempt sampleCount i remaining = .error
      (.runtime ("could not satisfy Dirichlet minimum sample constraint; "
      ++ "increase alpha, reduce clients, or lower min_samples_per_client")) ∨
    ∃ j partitions, attempt j = some partitions ∧ retry attempt sampleCount i remaining =
      .ok partitions := by
  induction remaining generalizing i with
  | zero => exact .inl rfl
  | succ remaining ih =>
    rw [retry]
    rcases hi : attempt i with _ | partitions
    · exact ih (i + 1)
    · refine .inr ⟨i, partitions, hi, ?_⟩
      change (validatePartitionCoverage partitions sampleCount).map _ = _
      rw [hvalid i partitions hi]
      rfl

/-- With arguments that pass the checks, a class-wise partition is exact and gives every client its
minimum, or the attempts run out; the check of the coverage never fails. -/
theorem dirichletPartition_cases {n : ℤ} {alpha : K} {minSamplesPerClient maxRetries : ℤ}
    (hne : targets ≠ []) (hpos : 0 < n) (hle : n ≤ targets.length) (halpha : 0 < alpha)
    (hmin : 0 ≤ minSamplesPerClient) (htotal : minSamplesPerClient * n ≤ targets.length)
    (hretries : 0 < maxRetries) (balanced : Bool) (attempts : ℕ → Attempt K) :
    dirichletPartition targets n alpha minSamplesPerClient maxRetries balanced attempts =
        .error (.runtime ("could not satisfy Dirichlet minimum sample constraint; " ++
          "increase alpha, reduce clients, or lower min_samples_per_client")) ∨
      ∃ partitions,
        dirichletPartition targets n alpha minSamplesPerClient maxRetries balanced attempts =
        .ok partitions ∧
        validatePartitionCoverage partitions targets.length = .ok () ∧ partitions.length = n ∧
        partitions.flatten.Perm (List.range targets.length) ∧ ∀ l ∈ partitions,
        minSamplesPerClient ≤ l.length := by
  have hclients : 0 < n.toNat := Int.pos_iff_toNat_pos.1 hpos
  have hrun : dirichletPartition targets n alpha minSamplesPerClient maxRetries balanced attempts =
      retry (fun i => attemptPartition targets n.toNat alpha minSamplesPerClient balanced
        (attempts i)) targets.length 0 maxRetries.toNat := by
    rw [dirichletPartition, extractTargets_ok hne]
    change (do validateClientCount targets.length n; _) = _
    rw [validateClientCount_ok hpos hle]
    change (if alpha ≤ 0 then _ else _) = _
    rw [if_neg halpha.not_ge, if_neg hmin.not_gt, if_neg htotal.not_gt, if_neg hretries.not_ge]
  rw [hrun]
  have hspec (i : ℕ) (partitions : List (List ℕ))
      (h : attemptPartition targets n.toNat alpha minSamplesPerClient balanced (attempts i) =
        some partitions) :=
    attemptPartition_spec hclients h
  rcases retry_cases (fun i partitions h => validatePartitionCoverage_of_perm
    (hspec i partitions h).2.1) 0 maxRetries.toNat with herror | ⟨j, partitions, hj, hok⟩
  · exact .inl herror
  · obtain ⟨hcount, hperm, hsizes⟩ := hspec j partitions hj
    refine .inr ⟨partitions, hok, validatePartitionCoverage_of_perm hperm, ?_, hperm, hsizes⟩
    rw [hcount, Int.toNat_of_nonneg hpos.le]

variable (targets) in
/-- Both partitions are exact. -/
theorem partitions_exact (n : ℤ) (hne : targets ≠ []) (hpos : 0 < n) (hle : n ≤ targets.length) :
    (∀ (alpha : K) (minSamplesPerClient maxRetries : ℤ) (balanced : Bool) (attempts : ℕ →
      Attempt K), 0 < alpha →
      0 ≤ minSamplesPerClient → minSamplesPerClient * n ≤ targets.length → 0 < maxRetries →
      (∀ i partitions, attemptPartition targets n.toNat alpha minSamplesPerClient balanced
        (attempts i) = some partitions →
        validatePartitionCoverage partitions targets.length = .ok ()) ∧
      ∀ partitions, dirichletPartition targets n alpha minSamplesPerClient maxRetries balanced
        attempts = .ok partitions →
        partitions.length = n ∧ ExactPartition targets.length partitions ∧
          ∀ l ∈ partitions, minSamplesPerClient ≤ l.length) ∧
    ∀ permutation : ℕ → List ℕ, (∀ m, (permutation m).Perm (List.range m)) →
      ∃ partitions, iidPartition targets n permutation = .ok partitions ∧ partitions.length = n ∧
        ExactPartition targets.length partitions ∧ ∀ l ∈ partitions, ∀ l' ∈ partitions,
        l.length ≤ l'.length + 1 := by
  refine ⟨fun alpha minimum maxRetries balanced attempts halpha hmin htotal hretries =>
    ⟨fun i partitions h => ?_, fun partitions h => ?_⟩, fun permutation hperm => ?_⟩
  · exact validatePartitionCoverage_of_perm
      (attemptPartition_spec (Int.pos_iff_toNat_pos.1 hpos) h).2.1
  · rcases dirichletPartition_cases hne hpos hle halpha hmin htotal hretries balanced attempts with
      herror | ⟨partitions', hok, -, hcount, hexact, hsizes⟩
    · rw [herror] at h
      cases h
    · rw [hok] at h
      cases h
      exact ⟨hcount, exactPartition_of_perm hexact, hsizes⟩
  · obtain ⟨partitions, hok, hcount, hexact, hsizes⟩ := iidPartition_ok hne hpos hle hperm
    exact ⟨partitions, hok, hcount, exactPartition_of_perm hexact, hsizes⟩

end Dirichlet

theorem sum_set_replicate (n : ℕ) {proportions : List ℚ} (h : proportions ≠ []) :
    ((List.replicate proportions.length 0).set 0 n).sum = n := by
  obtain ⟨p, proportions, rfl⟩ := List.exists_cons_of_ne_nil h
  rw [List.length_cons, List.replicate_succ, List.set_cons_zero, List.sum_cons, List.sum_replicate,
    smul_zero, add_zero]

/-- The generator that leaves every order as it is and gives a class to the first client. -/
def plainAttempt : Attempt ℚ where
  shuffleClass _ l := l
  shuffleClass_perm _ _ := .refl _
  dirichlet _ alpha := alpha
  length_dirichlet _ _ := rfl
  multinomial _ n proportions := (List.replicate proportions.length 0).set 0 n
  length_multinomial _ _ _ := List.length_set.trans List.length_replicate
  sum_multinomial _ n _ h := sum_set_replicate n h
  shuffleClient _ l := l
  shuffleClient_perm _ _ := .refl _

theorem partitions_exact_plain :
    ∃ partitions, dirichletPartition [3, 5, 3] 2 (1 : ℚ) 0 1 true (fun _ => plainAttempt) =
      .ok partitions ∧
      ExactPartition 3 partitions := by
  have h := (partitions_exact [3, 5, 3] 2 (by simp) (by decide) (by decide)).1 (1 : ℚ) 0 1 true
    (fun _ => plainAttempt) one_pos (by decide) (by decide) (by decide)
  have hrun : dirichletPartition [3, 5, 3] 2 (1 : ℚ) 0 1 true (fun _ => plainAttempt) =
      .ok [[0, 2, 1], []] := by
    decide +kernel
  exact ⟨_, hrun, (h.2 _ hrun).2.1⟩

end Partitioner

end ZeroTrustFL
