import Mathlib
import ZeroTrustFL.Lib.Stride
import ZeroTrustFL.Lib.CheckedFold

/-!
# Encrypted aggregation

`cpp/src/ckks_secure_aggregation.cpp` and `privacy/ckks.py` over an additively homomorphic scheme
that is exact.  A vector is cut into chunks of as many elements as the scheme has slots; the server
adds the ciphertexts chunk by chunk; the key authority puts the decoded chunks together and cuts the
result to its length.
-/

namespace ZeroTrustFL

namespace Ckks

/-- A scheme that encrypts vectors of at most `slots` numbers.  Decrypting a sum of encryptions
gives the sum of the vectors slot by slot; the slots that a vector does not use are zero. -/
structure AdditiveScheme (K ρ C : Type*) [AddCommMonoid K] where
  slots : ℕ
  slots_pos : 0 < slots
  encrypt : ρ → List K → C
  add : C → C → C
  decrypt : C → List K
  decrypt_sum : ∀ (first : ρ × List K) (rest : List (ρ × List K)),
    (∀ x ∈ first :: rest, x.2.length ≤ slots) →
    decrypt (rest.foldl (fun c x => add c (encrypt x.1 x.2)) (encrypt first.1 first.2)) =
      (List.range slots).map fun slot => ((first :: rest).map fun x => x.2.getD slot 0).sum

/-- What an encryptor needs besides the keys; the scale is one that key generation accepts. -/
structure PublicBundle where
  scaleBits : ℤ
  scaleBits_pos : 0 < scaleBits
  scaleBits_lt : scaleBits < 60

/-- `ckks_generate_key_material`, as far as the scale is concerned. -/
def generateKeyMaterial (scaleBits : ℤ) : Except String PublicBundle :=
  if h : scaleBits ≤ 0 ∨ 60 ≤ scaleBits then .error "scale_bits must be in (0, 60)"
  else .ok ⟨scaleBits, not_le.1 fun hle => h (.inl hle), not_le.1 fun hle => h (.inr hle)⟩

structure EncryptedUpdate (K C : Type*) where
  chunks : List C
  originalSize : ℕ
  weight : K

/-! ## The native functions -/

section Native

variable {K ρ C : Type*} [AddCommMonoid K] (scheme : AdditiveScheme K ρ C)

/-- `ckks_encrypt`; `random` is the randomness of the chunk at each offset. -/
def ckksEncrypt (values : List K) (random : ℕ → ρ) (scaleBits : ℤ) : Except String (List C) :=
  if values = [] then .error "at least one value is required for CKKS encryption"
  else if scaleBits ≤ 0 ∨ 60 ≤ scaleBits then .error "scale_bits must be in (0, 60)"
  else .ok ((strided scheme.slots values.length 0).map fun offset =>
    let length := min scheme.slots (values.length - offset)
    scheme.encrypt (random offset) ((values.drop offset).take length))

/-- `ckks_add_ciphertext_sets`. -/
def ckksAddCiphertextSets [Inhabited C] (encryptedUpdates : List (List C)) :
    Except String (List C) :=
  match encryptedUpdates with
  | [] => .error "at least one encrypted update is required"
  | front :: rest =>
    let chunkCount := front.length
    if chunkCount = 0 then .error "encrypted updates must contain at least one chunk"
    else if encryptedUpdates.any fun update => update.length ≠ chunkCount then
      .error "all encrypted updates must contain the same number of chunks"
    else .ok ((List.range chunkCount).map fun chunkIndex =>
      rest.foldl (fun aggregate update => scheme.add aggregate (update.getD chunkIndex default))
        (front.getD chunkIndex default))

/-- The loop of `ckks_decrypt`. -/
def decryptChunks (originalSize : ℕ) : List C → List K → List K
  | [], decodedValues => decodedValues
  | ciphertext :: ciphertexts, decodedValues =>
    let chunk := scheme.decrypt ciphertext
    let remaining := originalSize - decodedValues.length
    let decodedValues := decodedValues ++ chunk.take (min remaining chunk.length)
    if decodedValues.length = originalSize then decodedValues
    else decryptChunks originalSize ciphertexts decodedValues

/-- `ckks_decrypt`. -/
def ckksDecrypt (ciphertexts : List C) (originalSize : ℕ) : Except String (List K) :=
  if ciphertexts = [] then .error "at least one ciphertext chunk is required"
  else if originalSize = 0 then .error "original_size must be positive"
  else
    let decodedValues := decryptChunks scheme originalSize ciphertexts []
    if decodedValues.length ≠ originalSize then
      .error "decrypted CKKS payload is shorter than the declared original size"
    else .ok decodedValues

end Native

/-! ## The parties -/

section Parties

variable {K ρ C : Type*} [Field K] (scheme : AdditiveScheme K ρ C)

/-- `CKKSClientEncryptor.encrypt` of finite numbers. -/
def encrypt [LinearOrder K] (bundle : PublicBundle) (update : List K) (weight : K)
    (random : ℕ → ρ) : Except String (EncryptedUpdate K C) :=
  if weight ≤ 0 then .error "weight must be finite and positive"
  else if update.length = 0 then .error "model update must not be empty"
  else
    let weighted := update.map (· * weight)
    (ckksEncrypt scheme weighted random bundle.scaleBits).map fun chunks =>
    ⟨chunks, weighted.length, weight⟩

/-- `CKKSServerAggregator.aggregate`. -/
def aggregate [Inhabited C] (updates : List (EncryptedUpdate K C)) :
    Except String (EncryptedUpdate K C) :=
  match updates with
  | [] => .error "at least one encrypted update is required"
  | first :: _ =>
    if updates.any fun update => update.originalSize ≠ first.originalSize then
      .error "all encrypted updates must have the same original size"
    else
      (ckksAddCiphertextSets scheme (updates.map EncryptedUpdate.chunks)).map fun chunks =>
        ⟨chunks, first.originalSize, (updates.map EncryptedUpdate.weight).sum⟩

def decryptSum (encrypted : EncryptedUpdate K C) : Except String (List K) :=
  ckksDecrypt scheme encrypted.chunks encrypted.originalSize

def decryptWeightedMean [LinearOrder K] (encrypted : EncryptedUpdate K C) :
    Except String (List K) :=
  if encrypted.weight ≤ 0 then .error "aggregate weight must be positive"
  else (decryptSum scheme encrypted).map fun values => values.map (· / encrypted.weight)

end Parties

/-! ## Chunks -/

section Chunks

variable {K ρ C : Type*} [AddCommMonoid K] {scheme : AdditiveScheme K ρ C}

/-- The element of a chunk in a slot is an element of the vector, or zero. -/
theorem getD_chunk (values : List K) (slots offset slot : ℕ) (hslot : slot < slots) :
    ((values.drop offset).take (min slots (values.length - offset))).getD slot 0 = values.getD
      (offset + slot) 0 := by
  have hlength : ((values.drop offset).take (min slots (values.length - offset))).length =
      min slots (values.length - offset) := by
    rw [List.length_take, List.length_drop, min_assoc, min_self]
  rcases lt_or_ge (offset + slot) values.length with h | h
  · rw [List.getD_eq_getElem _ _ (by omega), List.getD_eq_getElem _ _ h, List.getElem_take,
      List.getElem_drop]
  · rw [List.getD_eq_default _ _ (by omega), List.getD_eq_default _ _ h]

/-- The chunks of a sequence that are put together and cut to its length are the sequence. -/
theorem decryptChunks_eq {f : ℕ → K} {size : ℕ} {ciphertexts : List C} {i : ℕ}
    (hdecrypt : ∀ t, (h : t < ciphertexts.length) → scheme.decrypt (ciphertexts[t]) =
      (List.range scheme.slots).map fun slot => f ((i + t) * scheme.slots + slot))
    (hi : i * scheme.slots < size) (hsize : size ≤ (i + ciphertexts.length) * scheme.slots) :
    decryptChunks scheme size ciphertexts ((List.range (i * scheme.slots)).map f) =
      (List.range size).map f := by
  induction ciphertexts generalizing i with
  | nil => exact absurd hsize (by simpa using hi)
  | cons c cs ih =>
    have hchunk := hdecrypt 0 (Nat.succ_pos _)
    rw [List.getElem_cons_zero, add_zero] at hchunk
    have hnext : (List.range (i * scheme.slots)).map f ++
        (scheme.decrypt c).take (min (size - i * scheme.slots) scheme.slots) =
          (List.range (i * scheme.slots + min (size - i * scheme.slots) scheme.slots)).map f := by
      rw [hchunk, ← List.map_take, List.take_range, List.range_add, List.map_append, List.map_map,
        min_assoc, min_self]
      rfl
    have hlength : (scheme.decrypt c).length = scheme.slots := by
      rw [hchunk, List.length_map, List.length_range]
    simp only [decryptChunks, List.length_map, List.length_range, hlength, hnext]
    split_ifs with hfull
    · rw [hfull]
    · have hstep : i * scheme.slots + min (size - i * scheme.slots) scheme.slots =
          (i + 1) * scheme.slots := by
        rw [add_mul, one_mul]
        omega
      rw [hstep] at hfull ⊢
      refine ih (fun t ht => ?_) (by omega) (hsize.trans_eq ?_)
      · have h := hdecrypt (t + 1) (Nat.succ_lt_succ ht)
        rwa [List.getElem_cons_succ, ← add_assoc, add_right_comm] at h
      · rw [List.length_cons, ← add_assoc, add_right_comm]

end Chunks

/-! ## The weighted mean -/

/-- A client's update, its weight and the randomness of its encryptions. -/
structure Client (K ρ : Type*) where
  update : List K
  weight : K
  random : ℕ → ρ

section Chunk

variable {K ρ C : Type*} [Field K] {scheme : AdditiveScheme K ρ C}

/-- The chunk at an offset of a client's weighted update. -/
def Client.chunk (slots : ℕ) (client : Client K ρ) (offset : ℕ) : List K :=
  let weighted := client.update.map (· * client.weight)
  (weighted.drop offset).take (min slots (weighted.length - offset))

/-- What a client sends. -/
def Client.encrypted (scheme : AdditiveScheme K ρ C) (size : ℕ) (client : Client K ρ) :
    EncryptedUpdate K C where
  chunks := (strided scheme.slots size 0).map fun offset =>
    scheme.encrypt (client.random offset) (client.chunk scheme.slots offset)
  originalSize := size
  weight := client.weight

/-- The sum of the weighted updates in a coordinate. -/
def weightedSum (clients : List (Client K ρ)) (k : ℕ) : K :=
  (clients.map fun client => client.weight * client.update.getD k 0).sum

/-- The sum of the clients' chunks at an offset. -/
def encryptedSum (scheme : AdditiveScheme K ρ C) (first : Client K ρ) (rest : List (Client K ρ))
    (offset : ℕ) : C :=
  rest.foldl (fun c client =>
    scheme.add c (scheme.encrypt (client.random offset) (client.chunk scheme.slots offset)))
    (scheme.encrypt (first.random offset) (first.chunk scheme.slots offset))

/-- The sum of what the clients send. -/
def encryptedTotal (scheme : AdditiveScheme K ρ C) (size : ℕ) (first : Client K ρ)
    (rest : List (Client K ρ)) : EncryptedUpdate K C where
  chunks := (strided scheme.slots size 0).map (encryptedSum scheme first rest)
  originalSize := size
  weight := ((first :: rest).map Client.weight).sum

theorem length_chunk_le (slots : ℕ) (client : Client K ρ) (offset : ℕ) :
    (client.chunk slots offset).length ≤ slots :=
  (List.length_take_le _ _).trans (min_le_left _ _)

theorem Client.getD_chunk {slots slot : ℕ} (client : Client K ρ) (offset : ℕ)
    (hslot : slot < slots) :
    (client.chunk slots offset).getD slot 0 = client.weight * client.update.getD
      (offset + slot) 0 := by
  have hmap : (client.update.map (· * client.weight)).getD (offset + slot) 0 =
      client.update.getD (offset + slot) 0 * client.weight := by
    rw [← zero_mul client.weight, List.getD_map, zero_mul]
  rw [chunk, Ckks.getD_chunk _ _ _ _ hslot, hmap, mul_comm]

/-- A chunk of the sum decrypts to the weighted sums of its coordinates. -/
theorem decrypt_encryptedSum (first : Client K ρ) (rest : List (Client K ρ)) (offset : ℕ) :
    scheme.decrypt (encryptedSum scheme first rest offset) =
      (List.range scheme.slots).map fun slot => weightedSum (first :: rest) (offset + slot) := by
  have hsum := scheme.decrypt_sum (first.random offset, first.chunk scheme.slots offset)
    (rest.map fun client => (client.random offset, client.chunk scheme.slots offset)) (by
      intro x hx
      rw [← List.map_cons (f := fun client : Client K ρ =>
        (client.random offset, client.chunk scheme.slots offset))] at hx
      obtain ⟨client, -, rfl⟩ := List.mem_map.1 hx
      exact length_chunk_le _ _ _)
  rw [List.foldl_map] at hsum
  rw [encryptedSum, hsum]
  refine List.map_congr_left fun slot hslot => ?_
  rw [← List.map_cons (f := fun client : Client K ρ =>
    (client.random offset, client.chunk scheme.slots offset)), List.map_map, weightedSum]
  exact congrArg List.sum (List.map_congr_left fun client _ =>
    client.getD_chunk offset (List.mem_range.1 hslot))

theorem strided_ne_nil {slots size : ℕ} (hslots : 0 < slots) (hsize : 0 < size) :
    (strided slots size 0).length ≠ 0 := by
  rw [strided, dif_pos ⟨hslots, hsize⟩]
  exact Nat.succ_ne_zero _

/-- Adding the ciphertexts chunk by chunk. -/
theorem ckksAddCiphertextSets_eq [Inhabited C] {l : List ℕ} (hl : l.length ≠ 0)
    (f : Client K ρ → ℕ → C) (first : Client K ρ) (rest : List (Client K ρ)) :
    ckksAddCiphertextSets scheme ((first :: rest).map fun client => l.map (f client)) =
      .ok (l.map fun offset => rest.foldl (fun c client => scheme.add c (f client offset))
        (f first offset)) := by
  have hany : (((first :: rest).map fun client => l.map (f client)).any fun update =>
      update.length ≠ (l.map (f first)).length) = false := by
    rw [List.any_eq_false]
    intro update hupdate
    obtain ⟨client, -, rfl⟩ := List.mem_map.1 hupdate
    simp
  have hcount : (l.map (f first)).length ≠ 0 := by rwa [List.length_map]
  rw [List.map_cons] at hany ⊢
  simp only [ckksAddCiphertextSets, if_neg hcount, hany, Bool.false_eq_true, if_false]
  refine congrArg _ (List.ext_getElem (by simp) fun i h₁ h₂ => ?_)
  have hi : i < l.length := by simpa using h₂
  have hget (client : Client K ρ) : (l.map (f client)).getD i default = f client (l[i]) := by
    rw [List.getD_eq_getElem _ _ (by rwa [List.length_map]), List.getElem_map]
  rw [List.getElem_map, List.getElem_map, List.getElem_range, List.foldl_map, hget]
  simp only [hget]

/-- The server's sum of what the clients send. -/
theorem aggregate_eq [Inhabited C] (first : Client K ρ) (rest : List (Client K ρ)) {size : ℕ}
    (hsize : 0 < size) :
    aggregate scheme ((first :: rest).map (Client.encrypted scheme size)) =
      .ok (encryptedTotal scheme size first rest) := by
  have hany : (((first :: rest).map (Client.encrypted scheme size)).any fun update =>
      update.originalSize ≠ (first.encrypted scheme size).originalSize) = false := by
    rw [List.any_eq_false]
    intro update hupdate
    obtain ⟨client, -, rfl⟩ := List.mem_map.1 hupdate
    simp [Client.encrypted]
  have hchunks := @ckksAddCiphertextSets_eq _ _ _ _ scheme
    _ _ (strided_ne_nil scheme.slots_pos hsize)
    (fun client offset => scheme.encrypt (client.random offset) (client.chunk scheme.slots offset))
    first rest
  have hmap : ((first :: rest).map (Client.encrypted scheme size)).map EncryptedUpdate.chunks =
      (first :: rest).map fun client => (strided scheme.slots size 0).map fun offset =>
        scheme.encrypt (client.random offset) (client.chunk scheme.slots offset) := by
    rw [List.map_map]
    rfl
  have hweights : ((first :: rest).map (Client.encrypted scheme size)).map EncryptedUpdate.weight =
      (first :: rest).map Client.weight := by
    rw [List.map_map]
    rfl
  rw [← hmap] at hchunks
  rw [List.map_cons] at hany hchunks hweights ⊢
  simp only [aggregate, hany, Bool.false_eq_true, if_false, hchunks, hweights]
  rfl

/-- The sum decrypts to the weighted sums of all coordinates. -/
theorem ckksDecrypt_encryptedTotal (first : Client K ρ) (rest : List (Client K ρ)) {size : ℕ}
    (hsize : 0 < size) :
    ckksDecrypt scheme (encryptedTotal scheme size first rest).chunks size =
      .ok ((List.range size).map (weightedSum (first :: rest))) := by
  have hne := strided_ne_nil scheme.slots_pos hsize
  obtain ⟨m, hoffsets, hle⟩ := @strided_mul scheme.slots size scheme.slots_pos 0
  rw [Nat.zero_mul] at hoffsets
  have hchunks : (encryptedTotal scheme size first rest).chunks ≠ [] := by
    rwa [encryptedTotal, ne_eq, List.map_eq_nil_iff, ← List.length_eq_zero_iff]
  have hdecoded := @decryptChunks_eq _ _ _ _ scheme (weightedSum (first :: rest)) size
    (encryptedTotal scheme size first rest).chunks 0 (fun t ht => by
      simp only [encryptedTotal, hoffsets, List.getElem_map, List.getElem_range,
        decrypt_encryptedSum])
    (by rwa [Nat.zero_mul]) (by simpa [encryptedTotal, hoffsets] using hle)
  rw [Nat.zero_mul, List.range_zero, List.map_nil] at hdecoded
  rw [ckksDecrypt, if_neg hchunks, if_neg hsize.ne', hdecoded]
  simp

end Chunk

section Mean

variable {K ρ C : Type*} [Field K] [LinearOrder K] {scheme : AdditiveScheme K ρ C} {size : ℕ}

/-- An update that is accepted for a common length. -/
structure Client.Accepted (size : ℕ) (client : Client K ρ) : Prop where
  length : client.update.length = size
  weight_pos : 0 < client.weight

theorem Client.Accepted.encrypt_eq {client : Client K ρ} (h : client.Accepted size)
    (hsize : 0 < size) (bundle : PublicBundle) :
    encrypt scheme bundle client.update client.weight client.random =
      .ok (client.encrypted scheme size) := by
  have hlength : (client.update.map (· * client.weight)).length = size := by
    rw [List.length_map, h.length]
  have hne : client.update.map (· * client.weight) ≠ [] := by
    rw [← List.length_pos_iff_ne_nil, hlength]
    exact hsize
  have hscale : ¬ (bundle.scaleBits ≤ 0 ∨ 60 ≤ bundle.scaleBits) := by
    have := bundle.scaleBits_pos
    have := bundle.scaleBits_lt
    omega
  have hupdate : client.update.length ≠ 0 := by
    rw [h.length]
    exact hsize.ne'
  have hchunks : ckksEncrypt scheme
      (client.update.map (· * client.weight)) client.random bundle.scaleBits =
      .ok (client.encrypted scheme size).chunks := by
    simp only [ckksEncrypt, if_neg hne, if_neg hscale, hlength, encrypted, chunk]
  simp only [encrypt, if_neg h.weight_pos.not_ge, if_neg hupdate, hchunks, hlength]
  rfl

variable [IsStrictOrderedRing K] [Inhabited C]

theorem sum_weight_pos {clients : List (Client K ρ)} (hne : clients ≠ [])
    (h : ∀ client ∈ clients, client.Accepted size) : 0 < (clients.map Client.weight).sum := by
  refine List.sum_pos _ (fun x hx => ?_) (by simpa using hne)
  obtain ⟨client, hmem, rfl⟩ := List.mem_map.1 hx
  exact (h client hmem).weight_pos

/-- Encrypting, adding and decrypting the updates of some clients gives their weighted mean. -/
theorem decryptWeightedMean_aggregate (scheme : AdditiveScheme K ρ C) (bundle : PublicBundle)
    (clients : List (Client K ρ)) (size : ℕ) (hne : clients ≠ []) (hsize : 1 ≤ size)
    (hclients : ∀ client ∈ clients, client.Accepted size) :
    ∃ encrypted total mean,
      clients.mapM (fun client => encrypt scheme bundle client.update client.weight client.random) =
      .ok encrypted ∧
      aggregate scheme encrypted = .ok total ∧ decryptWeightedMean scheme total = .ok mean ∧
        mean.length = size ∧
      ∀ k < size, mean.getD k 0 =
        (clients.map fun client => client.weight * client.update.getD k 0).sum /
        (clients.map Client.weight).sum := by
  have hpos := sum_weight_pos hne hclients
  have hencrypted := mapM_eq_map fun client hmem => @Client.Accepted.encrypt_eq _ _ _ _ _ scheme _ _
    (hclients client hmem) hsize bundle
  obtain ⟨first, rest, rfl⟩ := List.exists_cons_of_ne_nil hne
  have hdecrypt := @ckksDecrypt_encryptedTotal _ _ _ _ scheme first rest size hsize
  refine ⟨_, _, (List.range size).map fun k => weightedSum (first :: rest) k /
    ((first :: rest).map Client.weight).sum,
    hencrypted, aggregate_eq first rest hsize, ?_, by simp, fun k hk => ?_⟩
  · have hweight : ¬ (encryptedTotal scheme size first rest).weight ≤ 0 := hpos.not_ge
    rw [decryptWeightedMean, if_neg hweight, decryptSum]
    change (ckksDecrypt scheme (encryptedTotal scheme size first rest).chunks size).map _ = _
    rw [hdecrypt]
    simp only [Except.map, List.map_map]
    rfl
  · rw [List.getD_eq_getElem _ _ (by simpa using hk), List.getElem_map, List.getElem_range]
    rfl

end Mean

/-! ## A scheme without encryption -/

section Plain

variable {K : Type*} [AddCommMonoid K]

theorem foldl_add_getD (slot : ℕ) (c : ℕ → K) (rest : List (Unit × List K)) :
    rest.foldl (fun c x => c + fun slot => x.2.getD slot 0) c slot =
      c slot + (rest.map fun x => x.2.getD slot 0).sum := by
  induction rest generalizing c with
  | nil => simp
  | cons x rest ih => rw [List.foldl_cons, ih, Pi.add_apply, List.map_cons, List.sum_cons,
      add_assoc]

variable (K) in
/-- The scheme whose ciphertexts are the vectors, filled up with zeros. -/
def plainScheme (slots : ℕ) : AdditiveScheme K Unit (ℕ → K) where
  slots := slots + 1
  slots_pos := Nat.succ_pos slots
  encrypt _ chunk slot := chunk.getD slot 0
  add c d := c + d
  decrypt c := (List.range (slots + 1)).map c
  decrypt_sum _ rest _ := List.map_congr_left fun slot _ => foldl_add_getD slot _ rest

end Plain

/-- The bundle of the default configuration. -/
def sampleBundle : PublicBundle :=
  ⟨40, Int.ofNat_succ_pos 39, Int.lt_of_sub_pos (Int.ofNat_succ_pos 19)⟩

def sampleClients : List (Client ℚ Unit) :=
  [⟨[1, 2, 3], 1, fun _ => ()⟩, ⟨[5, 6, 7], 3, fun _ => ()⟩]

theorem sampleClients_accepted : ∀ client ∈ sampleClients, client.Accepted 3 := by
  intro client hmem
  simp only [sampleClients, List.mem_cons, List.not_mem_nil, or_false] at hmem
  rcases hmem with rfl | rfl
  · exact ⟨rfl, one_pos⟩
  · exact ⟨rfl, three_pos⟩

theorem decryptWeightedMean_aggregate_sampleClients :
    ∃ encrypted total mean,
      sampleClients.mapM (fun client =>
        encrypt (plainScheme ℚ 1) sampleBundle client.update client.weight client.random) =
        .ok encrypted ∧
      aggregate (plainScheme ℚ 1) encrypted = .ok total ∧
        decryptWeightedMean (plainScheme ℚ 1) total = .ok mean ∧
      mean.length = 3 ∧ mean.getD 0 0 = 4 := by
  obtain ⟨encrypted, total, mean, hencrypted, htotal, hmean, hlength, hvalue⟩ :=
    decryptWeightedMean_aggregate
    (plainScheme ℚ 1) sampleBundle sampleClients 3 (by simp [sampleClients]) (by decide)
    sampleClients_accepted
  refine ⟨encrypted, total, mean, hencrypted, htotal, hmean, hlength,
    (hvalue 0 (by decide)).trans ?_⟩
  norm_num [sampleClients]

end Ckks

end ZeroTrustFL
