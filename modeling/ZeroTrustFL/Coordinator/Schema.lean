import Mathlib
import ZeroTrustFL.Lib.PrefixCode
import ZeroTrustFL.Coordinator.Messages
import ZeroTrustFL.Coordinator.NpySafety

/-!
# Model schemas

The tensor manifests of `pkg/coordinator/envelope_service.go` and the bytes whose digest identifies
a schema.  The bytes of a manifest with lengths in range determine it (`writeSchema_injOn`).
-/

namespace ZeroTrustFL

def flatTensorName : String := "flat_weights"

def float32DType : String := "float32"

/-- The bytes of `ztfl-model-schema-v1` and a zero byte. -/
def schemaDomainV1 : Bytes := stringBytes "ztfl-model-schema-v1\x00"

def manifestForElementCount (elements : UInt64) : List TensorManifestEntry :=
  [{ name := flatTensorName
     dtype := float32DType
     dimensions := [elements]
     elementCount := elements }]

def manifestForPayload (payload : Bytes) : Except Fault (List TensorManifestEntry) :=
  match decodeNPYFloat32 payload with
  | .error (.error message) => .error (.error ("decode float32 NPY payload: " ++ message))
  | .error (.crash message) => .error (.crash message)
  | .ok values =>
    if values.length = 0 then .error (.error "tensor payload must not be empty")
    else .ok (manifestForElementCount (UInt64.ofNat values.length))

/-! ## The hashed bytes -/

/-- What the hasher has been given, with four more bytes. -/
def writeUint32 (written : Bytes) (value : UInt32) : Bytes :=
  written ++ Sha256.bigEndian 4 value.toNat

def writeUint64 (written : Bytes) (value : UInt64) : Bytes :=
  written ++ Sha256.bigEndian 8 value.toNat

def writeString (written : Bytes) (value : String) : Bytes :=
  writeUint32 written (UInt32.ofNat (stringBytes value).length) ++ stringBytes value

/-- One round of the loop of `modelSchemaDigest`. -/
def writeEntry (written : Bytes) (entry : TensorManifestEntry) : Bytes :=
  let written := writeString written entry.name
  let written := writeString written entry.dtype
  let written := writeUint32 written (UInt32.ofNat entry.dimensions.length)
  let written := entry.dimensions.foldl writeUint64 written
  writeUint64 written entry.elementCount

/-- The bytes that `modelSchemaDigest` hashes. -/
def writeSchema (manifest : List TensorManifestEntry) : Bytes :=
  manifest.foldl writeEntry (writeUint32 schemaDomainV1 (UInt32.ofNat manifest.length))

def modelSchemaDigest (manifest : List TensorManifestEntry) : Bytes := sha256 (writeSchema manifest)

/-! ## The codes of the parts -/

/-- A length as four bytes. -/
def sizeCode (n : ℕ) : Bytes := Sha256.bigEndian 4 (UInt32.ofNat n).toNat

def stringCode (value : String) : Bytes := sizeCode (stringBytes value).length ++ stringBytes value

def dimensionsCode (dimensions : List UInt64) : Bytes :=
  sizeCode dimensions.length ++ dimensions.flatMap fun d => Sha256.bigEndian 8 d.toNat

def entryCode (entry : TensorManifestEntry) : Bytes :=
  stringCode entry.name ++ (stringCode entry.dtype ++
    (dimensionsCode entry.dimensions ++ Sha256.bigEndian 8 entry.elementCount.toNat))

theorem foldl_append_eq_flatMap {α : Type} (code : α → Bytes) (xs : List α) (written : Bytes) :
    xs.foldl (fun written x => written ++ code x) written = written ++ xs.flatMap code := by
  induction xs generalizing written with
  | nil => simp
  | cons x xs ih => rw [List.foldl_cons, ih, List.flatMap_cons, List.append_assoc]

theorem writeEntry_eq (written : Bytes) (entry : TensorManifestEntry) :
    writeEntry written entry = written ++ entryCode entry := by
  have hdimensions (written : Bytes) : entry.dimensions.foldl writeUint64 written =
      written ++ entry.dimensions.flatMap fun d => Sha256.bigEndian 8 d.toNat :=
    foldl_append_eq_flatMap _ _ _
  simp only [writeEntry, hdimensions, writeUint64, writeUint32, writeString, entryCode, stringCode,
    sizeCode, dimensionsCode, List.append_assoc]

theorem writeSchema_eq (manifest : List TensorManifestEntry) :
    writeSchema manifest = schemaDomainV1 ++
      (sizeCode manifest.length ++ manifest.flatMap entryCode) := by
  have hentries (written : Bytes) : manifest.foldl writeEntry written =
      written ++ manifest.flatMap entryCode := by
    rw [← foldl_append_eq_flatMap]
    exact List.foldl_ext _ _ _ fun written entry _ => writeEntry_eq written entry
  rw [writeSchema, hentries, writeUint32, List.append_assoc]
  rfl

/-! ## Unique decoding -/

theorem bigEndian_mod {n x y : ℕ} (h : Sha256.bigEndian n x = Sha256.bigEndian n y) :
    x % 256 ^ n = y % 256 ^ n := by
  induction n with
  | zero => simp [Nat.mod_one]
  | succ n ih =>
    simp only [Sha256.bigEndian, List.cons.injEq] at h
    have hhigh : x / 256 ^ n % 256 = y / 256 ^ n % 256 := by
      have hbyte := congrArg UInt8.toNat h.1
      rwa [UInt8.toNat_ofNat', UInt8.toNat_ofNat', Nat.shiftRight_eq_div_pow,
        Nat.shiftRight_eq_div_pow, pow_mul, show 2 ^ 8 = 256 from rfl] at hbyte
    rw [pow_succ, Nat.mod_mul, Nat.mod_mul, ih h.2, hhigh]

theorem prefixCode_bigEndian (n : ℕ) : PrefixCode (Sha256.bigEndian n) {x | x < 256 ^ n} := by
  refine .of_length (fun x _ => Sha256.length_bigEndian n x) fun x hx y hy h => ?_
  rw [← Nat.mod_eq_of_lt hx, ← Nat.mod_eq_of_lt hy]
  exact bigEndian_mod h

theorem prefixCode_sizeCode : PrefixCode sizeCode {n | n < 2 ^ 32} := by
  have htoNat (n : ℕ) (hn : n < 2 ^ 32) : (UInt32.ofNat n).toNat = n := by
    rw [UInt32.toNat_ofNat', Nat.mod_eq_of_lt hn]
  refine (prefixCode_bigEndian 4).comp (fun n _ => (UInt32.ofNat n).toNat_lt) ?_
  intro x hx y hy (hxy : (UInt32.ofNat x).toNat = (UInt32.ofNat y).toNat)
  rwa [htoNat x hx, htoNat y hy] at hxy

theorem prefixCode_uint64 : PrefixCode (fun d : UInt64 => Sha256.bigEndian 8 d.toNat) Set.univ :=
  (prefixCode_bigEndian 8).comp (fun d _ => d.toNat_lt) fun _ _ _ _ h => UInt64.toNat_inj.1 h

theorem stringBytes_injective : Function.Injective stringBytes := by
  intro s t h
  have hbytes : s.toUTF8 = t.toUTF8 := ByteArray.ext (Array.ext' h)
  exact String.toByteArray_inj.1 hbytes

theorem prefixCode_stringCode : PrefixCode stringCode {s | (stringBytes s).length < 2 ^ 32} := by
  have hbytes : PrefixCode (fun b : UInt8 => [b]) Set.univ :=
    .of_length (fun _ _ => rfl) fun _ _ _ _ h => List.singleton_injective h
  have hlist := (prefixCode_sizeCode.list hbytes).comp (f := stringBytes)
    (t := {s | (stringBytes s).length < 2 ^ 32}) (fun s hs => ⟨hs, fun _ _ => trivial⟩)
    stringBytes_injective.injOn
  simp only [List.flatMap_singleton'] at hlist
  exact hlist

/-- The lengths in an entry fit into four bytes. -/
structure TensorManifestEntry.Sized (entry : TensorManifestEntry) : Prop where
  name : (stringBytes entry.name).length < 2 ^ 32
  dtype : (stringBytes entry.dtype).length < 2 ^ 32
  dimensions : entry.dimensions.length < 2 ^ 32

theorem prefixCode_entryCode : PrefixCode entryCode {entry | entry.Sized} := by
  have hdimensions := prefixCode_sizeCode.list prefixCode_uint64
  have hparts := prefixCode_stringCode.prod
    (prefixCode_stringCode.prod (hdimensions.prod prefixCode_uint64))
  refine hparts.comp (f := fun entry : TensorManifestEntry =>
    (entry.name, entry.dtype, entry.dimensions, entry.elementCount)) ?_ ?_
  · exact fun entry h => ⟨h.name, h.dtype, ⟨h.dimensions, fun _ _ => trivial⟩, trivial⟩
  · rintro ⟨n, t, d, c⟩ - ⟨n', t', d', c'⟩ - h
    simpa only [Prod.mk.injEq, TensorManifestEntry.mk.injEq] using h

/-- A manifest whose lengths fit into four bytes. -/
structure SizedManifest (manifest : List TensorManifestEntry) : Prop where
  length : manifest.length < 2 ^ 32
  entries : ∀ entry ∈ manifest, entry.Sized

/-- The hashed bytes determine the manifest. -/
theorem writeSchema_injOn : Set.InjOn writeSchema {manifest | SizedManifest manifest} := by
  intro x hx y hy h
  rw [writeSchema_eq, writeSchema_eq, List.append_cancel_left_eq] at h
  exact (prefixCode_sizeCode.list prefixCode_entryCode).injOn ⟨hx.length, hx.entries⟩
    ⟨hy.length, hy.entries⟩ h

end ZeroTrustFL
