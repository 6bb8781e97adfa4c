import Mathlib
import ZeroTrustFL.Coordinator.Schema
import ZeroTrustFL.Worker.Training

/-!
# Model schemas of the Python client

`model_schema_sha256` of `client/grpc_worker.py`.  For manifests with positive numbers and lengths
in range it hashes the bytes that the coordinator hashes for the manifest in the request, and these
bytes determine the manifest.
-/

namespace ZeroTrustFL

structure TensorManifestSpec where
  name : String
  dtype : String
  dimensions : List ℤ
  elementCount : ℤ
deriving DecidableEq

/-- `_manifest_message`: the entry of a request. -/
def manifestMessage (entry : TensorManifestSpec) : TensorManifestEntry where
  name := entry.name
  dtype := entry.dtype
  dimensions := entry.dimensions.map fun dimension => UInt64.ofNat dimension.toNat
  elementCount := UInt64.ofNat entry.elementCount.toNat

/-- `struct.pack(">I", value)`. -/
def packUint32 (value : ℤ) : Except Raised Bytes :=
  if 0 ≤ value ∧ value < 2 ^ 32 then .ok (Sha256.bigEndian 4 value.toNat)
  else .error ⟨"struct.error", "argument out of range"⟩

/-- `struct.pack(">Q", value)`. -/
def packUint64 (value : ℤ) : Except Raised Bytes :=
  if 0 ≤ value ∧ value < 2 ^ 64 then .ok (Sha256.bigEndian 8 value.toNat)
  else .error ⟨"struct.error", "argument out of range"⟩

def appendSchemaString (buffer : Bytes) (value : String) : Except Raised Bytes := do
  let encoded := stringBytes value
  let size ← packUint32 encoded.length
  return (buffer ++ size) ++ encoded

/-- One round of the loop over the dimensions of an entry. -/
def appendDimension (encoded : Bytes) (dimension : ℤ) : Except Raised Bytes :=
  if dimension ≤ 0 then .error ⟨"ValueError", "tensor dimensions must be positive"⟩
  else do
    let packed ← packUint64 dimension
    return encoded ++ packed

/-- One round of the loop over the entries of a manifest. -/
def appendEntry (encoded : Bytes) (entry : TensorManifestSpec) : Except Raised Bytes := do
  let encoded ← appendSchemaString encoded entry.name
  let encoded ← appendSchemaString encoded entry.dtype
  let size ← packUint32 entry.dimensions.length
  let encoded ← entry.dimensions.foldlM appendDimension (encoded ++ size)
  if entry.elementCount ≤ 0 then .error ⟨"ValueError", "tensor element_count must be positive"⟩
  else
    let packed ← packUint64 entry.elementCount
    return encoded ++ packed

/-- The bytes that `model_schema_sha256` hashes. -/
def encodeSchema (manifest : List TensorManifestSpec) : Except Raised Bytes := do
  let size ← packUint32 manifest.length
  manifest.foldlM appendEntry (schemaDomainV1 ++ size)

def modelSchemaSha256 (manifest : List TensorManifestSpec) : Except Raised Bytes := do
  let encoded ← encodeSchema manifest
  return sha256 encoded

/-! ## Agreement with the coordinator -/

/-- The numbers of an entry are positive and fit into eight bytes, its lengths fit into four. -/
structure TensorManifestSpec.InRange (entry : TensorManifestSpec) : Prop where
  name : (stringBytes entry.name).length < 2 ^ 32
  dtype : (stringBytes entry.dtype).length < 2 ^ 32
  length : entry.dimensions.length < 2 ^ 32
  dimensions : ∀ dimension ∈ entry.dimensions, 1 ≤ dimension ∧ dimension < 2 ^ 64
  elementCount : 1 ≤ entry.elementCount ∧ entry.elementCount < 2 ^ 64

structure SpecInRange (manifest : List TensorManifestSpec) : Prop where
  length : manifest.length < 2 ^ 32
  entries : ∀ entry ∈ manifest, entry.InRange

theorem packUint32_eq {n : ℕ} (h : n < 2 ^ 32) : packUint32 n = .ok (sizeCode n) := by
  rw [packUint32, if_pos ⟨Int.natCast_nonneg n, by exact_mod_cast h⟩, Int.toNat_natCast, sizeCode,
    UInt32.toNat_ofNat', Nat.mod_eq_of_lt h]

theorem toNat_ofNat_toNat {value : ℤ} (h : 1 ≤ value ∧ value < 2 ^ 64) :
    (UInt64.ofNat value.toNat).toNat = value.toNat := by
  rw [UInt64.toNat_ofNat', Nat.mod_eq_of_lt (by omega)]

theorem packUint64_eq {value : ℤ} (h : 1 ≤ value ∧ value < 2 ^ 64) :
    packUint64 value = .ok (Sha256.bigEndian 8 (UInt64.ofNat value.toNat).toNat) := by
  rw [packUint64, if_pos ⟨by omega, h.2⟩, toNat_ofNat_toNat h]

theorem appendSchemaString_eq {value : String} (h : (stringBytes value).length < 2 ^ 32)
    (buffer : Bytes) : appendSchemaString buffer value = .ok (writeString buffer value) := by
  simp only [appendSchemaString, packUint32_eq h]
  rfl

theorem foldlM_appendDimension {dimensions : List ℤ}
    (h : ∀ dimension ∈ dimensions, 1 ≤ dimension ∧ dimension < 2 ^ 64) (encoded : Bytes) :
    dimensions.foldlM appendDimension encoded =
      .ok ((dimensions.map fun dimension => UInt64.ofNat dimension.toNat).foldl
        writeUint64 encoded) := by
  induction dimensions generalizing encoded with
  | nil => rfl
  | cons dimension dimensions ih =>
    have hdimension := h dimension List.mem_cons_self
    have hstep : appendDimension encoded dimension =
        .ok (writeUint64 encoded (UInt64.ofNat dimension.toNat)) := by
      simp only [appendDimension, if_neg (show ¬ dimension ≤ 0 by omega), packUint64_eq hdimension]
      rfl
    rw [List.foldlM_cons, hstep]
    exact ih (fun d hd => h d (List.mem_cons_of_mem _ hd)) _

theorem ok_bind {α β : Type} (x : α) (f : α → Except Raised β) : (Except.ok x >>= f) = f x := rfl

theorem appendEntry_eq {entry : TensorManifestSpec} (h : entry.InRange) (encoded : Bytes) :
    appendEntry encoded entry = .ok (writeEntry encoded (manifestMessage entry)) := by
  have hpositive : ¬ entry.elementCount ≤ 0 :=
    not_le.2 (lt_of_lt_of_le zero_lt_one h.elementCount.1)
  unfold appendEntry
  rw [appendSchemaString_eq h.name, ok_bind, appendSchemaString_eq h.dtype, ok_bind,
    packUint32_eq h.length, ok_bind, foldlM_appendDimension h.dimensions, ok_bind, if_neg hpositive,
    packUint64_eq h.elementCount, ok_bind]
  simp only [writeEntry, manifestMessage, List.length_map, writeUint32, writeUint64, sizeCode, pure,
    Except.pure]

theorem foldlM_appendEntry {manifest : List TensorManifestSpec}
    (h : ∀ entry ∈ manifest, entry.InRange) (encoded : Bytes) :
    manifest.foldlM appendEntry encoded =
      .ok ((manifest.map manifestMessage).foldl writeEntry encoded) := by
  induction manifest generalizing encoded with
  | nil => rfl
  | cons entry manifest ih =>
    rw [List.foldlM_cons, appendEntry_eq (h entry List.mem_cons_self)]
    exact ih (fun e he => h e (List.mem_cons_of_mem _ he)) _

theorem encodeSchema_eq {manifest : List TensorManifestSpec} (h : SpecInRange manifest) :
    encodeSchema manifest = .ok (writeSchema (manifest.map manifestMessage)) := by
  rw [encodeSchema, packUint32_eq h.length, ok_bind, foldlM_appendEntry h.entries, writeSchema,
    writeUint32, List.length_map, sizeCode]

theorem sized_manifestMessage {manifest : List TensorManifestSpec} (h : SpecInRange manifest) :
    SizedManifest (manifest.map manifestMessage) := by
  refine ⟨by rw [List.length_map]; exact h.length, fun entry hentry => ?_⟩
  obtain ⟨spec, hspec, rfl⟩ := List.mem_map.1 hentry
  have hrange := h.entries spec hspec
  exact ⟨hrange.name, hrange.dtype, by simpa [manifestMessage] using hrange.length⟩

theorem ofNat_toNat_inj {a b : ℤ} (ha : 1 ≤ a ∧ a < 2 ^ 64) (hb : 1 ≤ b ∧ b < 2 ^ 64)
    (h : UInt64.ofNat a.toNat = UInt64.ofNat b.toNat) : a = b := by
  have htoNat := congrArg UInt64.toNat h
  rw [toNat_ofNat_toNat ha, toNat_ofNat_toNat hb] at htoNat
  omega

theorem map_inj_of_mem {α β : Type} {f : α → β} {xs ys : List α}
    (hinj : ∀ x ∈ xs, ∀ y ∈ ys, f x = f y → x = y) (h : xs.map f = ys.map f) : xs = ys := by
  induction xs generalizing ys with
  | nil => exact (List.map_eq_nil_iff.1 h.symm).symm
  | cons x xs ih =>
    rcases ys with _ | ⟨y, ys⟩
    · cases h
    rw [List.map_cons, List.map_cons, List.cons.injEq] at h
    rw [hinj x List.mem_cons_self y List.mem_cons_self h.1,
      ih (fun a ha b hb => hinj a (List.mem_cons_of_mem _ ha) b (List.mem_cons_of_mem _ hb)) h.2]

theorem manifestMessage_inj {x y : TensorManifestSpec} (hx : x.InRange) (hy : y.InRange)
    (h : manifestMessage x = manifestMessage y) : x = y := by
  rcases x with ⟨n, t, d, c⟩
  rcases y with ⟨n', t', d', c'⟩
  simp only [manifestMessage, TensorManifestEntry.mk.injEq, TensorManifestSpec.mk.injEq] at h ⊢
  obtain ⟨hname, hdtype, hdimensions, hcount⟩ := h
  refine ⟨hname, hdtype, ?_, ofNat_toNat_inj hx.elementCount hy.elementCount hcount⟩
  exact map_inj_of_mem (fun a ha b hb => ofNat_toNat_inj (hx.dimensions a ha) (hy.dimensions b hb))
    hdimensions

/-- For manifests in range the client and the coordinator hash the same bytes, and the bytes
determine the manifest. -/
theorem schema_identity (manifest : List TensorManifestSpec) (h : SpecInRange manifest) :
    encodeSchema manifest = .ok (writeSchema (manifest.map manifestMessage)) ∧
      ∀ manifest', SpecInRange manifest' →
        (encodeSchema manifest' = encodeSchema manifest ∨
          writeSchema (manifest'.map manifestMessage) = writeSchema
          (manifest.map manifestMessage)) →
        manifest' = manifest := by
  refine ⟨encodeSchema_eq h, fun manifest' h' heq => ?_⟩
  rw [encodeSchema_eq h, encodeSchema_eq h', Except.ok.injEq, or_self] at heq
  have hmessages := writeSchema_injOn (sized_manifestMessage h') (sized_manifestMessage h) heq
  exact map_inj_of_mem (fun x hx y hy => manifestMessage_inj (h'.entries x hx)
    (h.entries y hy)) hmessages

/-- The manifest of a vector of three elements. -/
def vectorManifest : List TensorManifestSpec := [⟨flatTensorName, float32DType, [3], 3⟩]

theorem schema_identity_vectorManifest :
    SpecInRange vectorManifest ∧
      encodeSchema vectorManifest = .ok (writeSchema (manifestForElementCount 3)) := by
  have hrange : SpecInRange vectorManifest := by
    refine ⟨by decide, fun entry hentry => ?_⟩
    rw [vectorManifest, List.mem_singleton] at hentry
    subst hentry
    exact ⟨by decide, by decide, by decide, by decide, by decide⟩
  exact ⟨hrange, (schema_identity vectorManifest hrange).1⟩

example : hexEncode (modelSchemaDigest (manifestForElementCount 3)) =
    "cff606025d8af83f907bc6d4c6b82000e3c22b67d16bf8a3e9999f816c1c5e64" := by
  decide +kernel

end ZeroTrustFL
