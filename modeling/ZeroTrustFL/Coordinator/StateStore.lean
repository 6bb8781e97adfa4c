import Mathlib
import ZeroTrustFL.Coordinator.AuditChain
import ZeroTrustFL.Coordinator.Durable

/-!
# The state stores

The two stores of the coordinator state and the store of model artifacts: `state_store.go`,
`postgres_state_store.go`, `postgres_audit.go` and `artifact_store.go` of `pkg/coordinator`, with
the decoder of registrations of `pkg/security`.  JSON and protobuf encodings are lossless, so files,
rows and objects hold the encoded values themselves; only the size of an encoded file matters.
-/

namespace ZeroTrustFL

def legacyCoordinatorStateSchemaVersion : ℕ := 1
def previousCoordinatorStateSchemaVersion : ℕ := 2
def maxCoordinatorStateBytes : ℕ := 256 * 2 ^ 20

/-! ## Encoded states -/

/-- `Registration.UnmarshalJSON`, once the fields are decoded. -/
def unmarshalRegistration (decoded : Registration) : Except String Registration :=
  let entry := normalizeLegacyRegistration decoded
  if trimSpace entry.nodeID = "" ∨ trimSpace entry.role = "" ∨
      trimSpace entry.certificateFingerprint = "" ∨ trimSpace entry.registrationID = "" then
    .error "registration lifecycle state contains an incomplete identity binding"
  else if isZeroTime entry.expiresAt then .error "registration lifecycle state has no lease expiry"
  else if maxRegistrationRevocationReasonBytes < entry.revocationReason.utf8ByteSize then
    .error s!"registration revocation reason exceeds {maxRegistrationRevocationReasonBytes} bytes"
  else if isZeroTime entry.revokedAt ∧ entry.revocationReason ≠ "" then
    .error "registration revocation reason requires a revocation timestamp"
  else if !isZeroTime entry.revokedAt ∧ trimSpace entry.revocationReason = "" then
    .error "revoked registration requires a revocation reason"
  else if !isZeroTime entry.revokedAt ∧ entry.expiresAt < entry.revokedAt then
    .error "registration revocation timestamp is after lease expiry"
  else .ok entry

/-- The snapshot with its lists in the order in which they are stored. -/
def StateSnapshot.canonical (snapshot : StateSnapshot) : StateSnapshot :=
  { snapshot with
    pending := snapshot.pending.insertionSort fun a b => a.nodeID ≤ b.nodeID
    registrations := snapshot.registrations.insertionSort fun a b => a.nodeID ≤ b.nodeID
    nonces := snapshot.nonces.insertionSort fun a b => a.key ≤ b.key
    rateWindows := snapshot.rateWindows.insertionSort fun a b => a.nodeID ≤ b.nodeID }

structure DiskState where
  schemaVersion : ℕ
  state : StateSnapshot
deriving DecidableEq

/-- The message without fields, whose encoding is empty. -/
def emptyGlobalModel : GlobalModel where
  modelVersion := ""
  roundID := 0
  weightsPayload := []
  weightsFormat := ""
  sha256 := []
  createdAtUnix := 0
  protocolVersion := 0
  modelID := ""
  schemaSha256 := []
  tensorManifest := []

/-- The schema versions that a store reads. -/
def supportedSchemaVersion (version : ℕ) : Bool :=
  version = legacyCoordinatorStateSchemaVersion ∨ version = previousCoordinatorStateSchemaVersion ∨
    version = coordinatorStateSchemaVersion

/-- An error with the text in front that a caller gives it; a panic stays one. -/
def Fault.wrap (context : String) : Fault → Fault
  | .error e => .error (context ++ e)
  | .crash e => .crash e

/-- The final check of a loaded state. -/
def checkLoaded (context : String) (snapshot : StateSnapshot) (schemaVersion : ℕ) :
    Except Fault (Option StateSnapshot) :=
  match validateStateSnapshotForSchema snapshot schemaVersion with
  | .error e => .error (e.wrap context)
  | .ok () => .ok (some snapshot)

/-! ## The file store -/

/-- What the path of a file store refers to; a regular file has a size and decodes or not. -/
inductive FileStateStore where
  | missing
  | symlink
  | irregular
  | regular (size : ℕ) (content : Option DiskState)
deriving DecidableEq

namespace FileStateStore

def load : FileStateStore → Except Fault (Option StateSnapshot)
  | missing => .ok none
  | symlink => .error (.error "coordinator state file must not be a symbolic link")
  | irregular => .error (.error "coordinator state path must be a regular file")
  | regular size content =>
    if maxCoordinatorStateBytes < size then
      .error (.error s!"coordinator state file exceeds {maxCoordinatorStateBytes} bytes")
    else
      match content with
      | none => .error (.error "decode coordinator state")
      | some encoded =>
        match encoded.state.registrations.mapM unmarshalRegistration with
        | .error e => .error (.error ("decode coordinator state: " ++ e))
        | .ok registrations =>
          if !supportedSchemaVersion encoded.schemaVersion then
            .error (.error s!"unsupported coordinator state schema version {encoded.schemaVersion}")
          else if encoded.state.model = emptyGlobalModel then
            .error (.error "coordinator state is missing the global model")
          else
            checkLoaded "validate coordinator state: " { encoded.state with registrations }
              encoded.schemaVersion

/-- The file with a state in it. -/
def write (encodedSize : DiskState → ℕ) (snapshot : StateSnapshot) : FileStateStore :=
  let encoded : DiskState := ⟨coordinatorStateSchemaVersion, snapshot.canonical⟩
  regular (encodedSize encoded) (some encoded)

def commit (encodedSize : DiskState → ℕ) (file : FileStateStore) (snapshot : StateSnapshot)
    (outcome : CommitOutcome) : Except Fault Unit × FileStateStore :=
  match validateStateSnapshot snapshot with
  | .error e => (.error (e.wrap "validate coordinator state before commit: "), file)
  | .ok () =>
    if maxCoordinatorStateBytes < encodedSize ⟨coordinatorStateSchemaVersion,
        snapshot.canonical⟩ then
      (.error (.error s!"coordinator state exceeds {maxCoordinatorStateBytes} bytes"), file)
    else
      match file with
      | symlink => (.error (.error "coordinator state file must not be a symbolic link"), file)
      | irregular => (.error (.error "coordinator state path must be a regular file"), file)
      | missing | regular _ _ =>
        match outcome with
        | .success => (.ok (), write encodedSize snapshot)
        | .failure applied message =>
          (.error (.error message), if applied then write encodedSize snapshot else file)

end FileStateStore

/-! ## The artifact store -/

structure ModelArtifactRef where
  bucket : String
  key : String
  sha256 : Bytes
  sizeBytes : ℤ
deriving DecidableEq

/-- The key of the object with a digest. -/
def artifactKey (keyPrefix : String) (digest : Bytes) : String :=
  keyPrefix ++ "/sha256/" ++ hexEncode digest ++ ".npy"

/-- The objects of the bucket hold one with the digest, under the key of the digest. -/
def HoldsArtifact (keyPrefix : String) (objects : OrdMap String Bytes) (digest : Bytes) : Prop :=
  ∃ data, objects.get? (artifactKey keyPrefix digest) = some data ∧ sha256 data = digest

/-- `S3ModelArtifactStore` with the objects of its bucket.  The digests that it has verified are
those of stored objects. -/
structure ArtifactStore where
  bucket : String
  keyPrefix : String
  objects : OrdMap String Bytes
  verified : List Bytes
  sound : ∀ digest ∈ verified, HoldsArtifact keyPrefix objects digest

/-- What becomes of an upload. -/
inductive UploadOutcome where
  | stored
  | failed (applied : Bool) (message : String)
deriving DecidableEq

/-- The failures of the requests that a call makes to the object store: of the inspection and the
upload of `Put`, and of the reads of `Get`.  An upload that reports a wrong size has failed. -/
structure S3Faults where
  inspect : Option String
  upload : UploadOutcome
  read : Option String
deriving DecidableEq

def S3Faults.none : S3Faults where
  inspect := .none
  upload := .stored
  read := .none

namespace ArtifactStore

def referenceForDigest (store : ArtifactStore) (digest : Bytes) (size : ℤ) : ModelArtifactRef where
  bucket := store.bucket
  key := artifactKey store.keyPrefix digest
  sha256 := digest
  sizeBytes := size

def validateReference (store : ArtifactStore) (ref : ModelArtifactRef) : Except String Unit :=
  if ref.bucket ≠ store.bucket then
    .error ("model artifact bucket " ++ quote ref.bucket ++ " does not match configured bucket")
  else if ref.sha256.length ≠ 32 then
    .error "model artifact reference requires a 32-byte SHA-256 digest"
  else if ref.sizeBytes ≤ 0 ∨ maxCoordinatorStateBytes < ref.sizeBytes then
    .error s!"model artifact reference has invalid size {ref.sizeBytes}"
  else if ref.key ≠ (store.referenceForDigest ref.sha256 ref.sizeBytes).key then
    .error ("model artifact key " ++ quote ref.key ++
      " is outside the configured content-addressed namespace")
  else .ok ()

theorem validateReference_ok_iff {store : ArtifactStore} {ref : ModelArtifactRef} :
    store.validateReference ref = .ok () ↔
      ref.bucket = store.bucket ∧ ref.sha256.length = 32 ∧
        (0 < ref.sizeBytes ∧ ref.sizeBytes ≤ maxCoordinatorStateBytes) ∧
        ref.key = artifactKey store.keyPrefix ref.sha256 := by
  unfold validateReference
  split_ifs with h₁ h₂ h₃ h₄
  · simp [h₁]
  · simp [h₂]
  · simp only [false_iff, not_and]
    omega
  · simp only [false_iff, not_and]
    exact fun _ _ _ => h₄
  · rw [not_or, not_le, not_lt] at h₃
    exact iff_of_true rfl ⟨not_not.1 h₁, not_not.1 h₂, h₃, not_not.1 h₄⟩

/-- The store with one more verified digest. -/
def remember (store : ArtifactStore) (digest : Bytes)
    (h : HoldsArtifact store.keyPrefix store.objects digest) : ArtifactStore :=
  { store with
    verified := digest :: store.verified
    sound := List.forall_mem_cons.2 ⟨h, store.sound⟩ }

def get (store : ArtifactStore) (fault : Option String) (ref : ModelArtifactRef) :
    Except String Bytes × ArtifactStore :=
  match href : store.validateReference ref with
  | .error e => (.error e, store)
  | .ok () =>
    match fault with
    | some e => (.error ("inspect model artifact " ++ quote ref.key ++ ": " ++ e), store)
    | none =>
      match hobject : store.objects.get? ref.key with
      | none => (.error ("model artifact not found: " ++ ref.bucket ++ "/" ++ ref.key), store)
      | some data =>
        if (data.length : ℤ) ≠ ref.sizeBytes then
          (.error ("model artifact " ++ quote ref.key ++
            s!" has size {data.length}, want {ref.sizeBytes}"), store)
        else if hdigest : ZeroTrustFL.sha256 data = ref.sha256 then
          (.ok data, store.remember ref.sha256
            ⟨data, (validateReference_ok_iff.1 href).2.2.2 ▸ hobject, hdigest⟩)
        else (.error ("model artifact " ++ quote ref.key ++ " SHA-256 digest mismatch"), store)

theorem artifactKey_injective (keyPrefix : String) :
    Function.Injective (artifactKey keyPrefix) := by
  intro a b h
  unfold artifactKey at h
  rw [String.append_left_inj, String.append_right_inj] at h
  exact hexChars_injective (String.ofList_injective h)

/-- The store after an upload under the key of the payload. -/
def upload (store : ArtifactStore) (payload : Bytes) : ArtifactStore :=
  { store with
    objects := store.objects.insert (artifactKey store.keyPrefix (sha256 payload)) payload
    sound := by
      intro digest hdigest
      obtain ⟨data, hdata, hsha⟩ := store.sound digest hdigest
      by_cases hkey :
        artifactKey store.keyPrefix digest = artifactKey store.keyPrefix (sha256 payload)
      · have hsame := artifactKey_injective store.keyPrefix hkey
        exact ⟨payload, by rw [OrdMap.get?_insert, if_pos hkey], hsame.symm⟩
      · exact ⟨data, by rw [OrdMap.get?_insert_of_ne _ _ hkey]; exact hdata, hsha⟩ }

local instance : LawfulBEq Bytes := inferInstanceAs (LawfulBEq (List UInt8))

def put (store : ArtifactStore) (faults : S3Faults) (payload : Bytes) :
    Except String ModelArtifactRef × ArtifactStore :=
  if payload.length = 0 then (.error "model artifact payload is empty", store)
  else if maxCoordinatorStateBytes < payload.length then
    (.error s!"model artifact exceeds {maxCoordinatorStateBytes} bytes", store)
  else
    let ref := store.referenceForDigest (sha256 payload) payload.length
    if ref.sha256 ∈ store.verified then (.ok ref, store)
    else
      match faults.inspect with
      | some e => (.error ("inspect model artifact " ++ quote ref.key ++ ": " ++ e), store)
      | none =>
        match store.objects.get? ref.key with
        | some data =>
          if (data.length : ℤ) ≠ ref.sizeBytes then
            (.error ("existing model artifact " ++ quote ref.key ++
              s!" has size {data.length}, want {ref.sizeBytes}"), store)
          else
            match store.get faults.read ref with
            | (.error e, store) =>
              (.error ("verify existing model artifact " ++ quote ref.key ++ ": " ++ e), store)
            | (.ok existing, store) =>
              if existing ≠ payload then
                (.error ("existing model artifact " ++ quote ref.key ++
                  " does not match content-addressed payload"), store)
              else (.ok ref, store)
        | none =>
          match faults.upload with
          | .failed applied message =>
            (.error ("upload model artifact " ++ quote ref.key ++ ": " ++ message),
              if applied then store.upload payload else store)
          | .stored =>
            match (store.upload payload).get faults.read ref with
            | (.error e, store) =>
              (.error ("verify uploaded model artifact " ++ quote ref.key ++ ": " ++ e), store)
            | (.ok persisted, store) =>
              if persisted ≠ payload then
                (.error ("uploaded model artifact " ++ quote ref.key ++
                  " does not match source payload"), store)
              else (.ok ref, store)

end ArtifactStore

/-! ## The PostgreSQL store -/

/-- The row of `ztfl_coordinator_state`. -/
structure StateRow where
  schemaVersion : ℕ
  state : StateSnapshot
  artifactBucket : Option String
  artifactKey : Option String
  artifactSHA256 : Option Bytes
  artifactSize : Option ℤ
deriving DecidableEq

/-- The database with the artifact store that the state store is configured with. -/
structure PostgresStateStore where
  state : Option StateRow
  audit : AuditTable
  artifacts : Option ArtifactStore

namespace PostgresStateStore

/-- The model of a row with the payload of its artifact. -/
def attachArtifact (store : PostgresStateStore) (fault : Option String) (row : StateRow) :
    Except String GlobalModel × PostgresStateStore :=
  if row.artifactBucket.isNone ∧ row.artifactKey.isNone ∧ row.artifactSHA256.isNone ∧
      row.artifactSize.isNone then
    (.ok row.state.model, store)
  else
    match row.artifactBucket, row.artifactKey, row.artifactSHA256, row.artifactSize with
    | some bucket, some key, some sha256, some sizeBytes =>
      if sha256.length = 0 then
        (.error "PostgreSQL coordinator state contains an incomplete model artifact reference",
          store)
      else if row.state.model.weightsPayload.length ≠ 0 then
        (.error ("PostgreSQL coordinator state contains both inline and artifact-backed model " ++
          "payloads"), store)
      else
        match store.artifacts with
        | none =>
          (.error
            ("PostgreSQL coordinator state references a model artifact but no artifact store is " ++
            "configured"), store)
        | some artifacts =>
          if row.state.model.sha256 ≠ sha256 then
            (.error "PostgreSQL model metadata digest does not match the artifact reference", store)
          else
            match artifacts.get fault ⟨bucket, key, sha256, sizeBytes⟩ with
            | (.error e, artifacts) =>
              (.error ("load global model artifact: " ++ e),
                { store with artifacts := some artifacts })
            | (.ok payload, artifacts) =>
              (.ok { row.state.model with weightsPayload := payload },
                { store with artifacts := some artifacts })
    | _, _, _, _ =>
      (.error "PostgreSQL coordinator state contains an incomplete model artifact reference", store)

def load (store : PostgresStateStore) (fault : Option String) :
    Except Fault (Option StateSnapshot) × PostgresStateStore :=
  match store.state with
  | none => (.ok none, store)
  | some row =>
    if !supportedSchemaVersion row.schemaVersion then
      (.error (.error s!"unsupported coordinator state schema version {row.schemaVersion}"), store)
    else if row.state.model = emptyGlobalModel then
      (.error (.error "PostgreSQL coordinator state is missing the global model"), store)
    else
      match row.state.registrations.mapM unmarshalRegistration with
      | .error e => (.error (.error ("decode PostgreSQL registrations: " ++ e)), store)
      | .ok registrations =>
        match store.attachArtifact fault row with
        | (.error e, store) => (.error (.error e), store)
        | (.ok model, store) =>
          (checkLoaded "validate PostgreSQL coordinator state: "
            { row.state with model, registrations } row.schemaVersion, store)

/-- The row of a snapshot whose model is stored inline, or as the artifact of a reference. -/
def stateRow (snapshot : StateSnapshot) : Option ModelArtifactRef → StateRow
  | none => ⟨coordinatorStateSchemaVersion, snapshot, none, none, none, none⟩
  | some ref =>
    ⟨coordinatorStateSchemaVersion,
      { snapshot with model := { snapshot.model with weightsPayload := [] } },
      some ref.bucket, some ref.key, some ref.sha256, some ref.sizeBytes⟩

/-- The payload of the model goes to the artifact store, where there is one, before the row is
written. -/
def persistModel (store : PostgresStateStore) (context : String) (canonical : StateSnapshot)
    (faults : S3Faults) : Except String StateRow × PostgresStateStore :=
  match store.artifacts with
  | none => (.ok (stateRow canonical none), store)
  | some artifacts =>
    if 0 < canonical.model.weightsPayload.length then
      match artifacts.put faults canonical.model.weightsPayload with
      | (.error e, artifacts) => (.error (context ++ e), { store with artifacts := some artifacts })
      | (.ok ref, artifacts) =>
        if canonical.model.sha256 ≠ ref.sha256 then
          (.error "model artifact digest does not match validated global model digest",
            { store with artifacts := some artifacts })
        else (.ok (stateRow canonical (some ref)), { store with artifacts := some artifacts })
    else (.ok (stateRow canonical none), store)

/-- The end of a transaction that writes the row and the audit table. -/
def finish (store : PostgresStateStore) (row : StateRow) (audit : AuditTable)
    (outcome : CommitOutcome) : Except Fault Unit × PostgresStateStore :=
  match outcome with
  | .success => (.ok (), { store with state := some row, audit })
  | .failure applied message =>
    (.error (.error message), if applied then { store with state := some row, audit } else store)

def commit (store : PostgresStateStore) (snapshot : StateSnapshot) (faults : S3Faults)
    (outcome : CommitOutcome) : Except Fault Unit × PostgresStateStore :=
  match validateStateSnapshot snapshot with
  | .error e => (.error (e.wrap "validate PostgreSQL coordinator state before commit: "), store)
  | .ok () =>
    match store.persistModel "persist global model artifact: " snapshot.canonical faults with
    | (.error e, store) => (.error (.error e), store)
    | (.ok row, store) => store.finish row store.audit outcome

def commitWithAudit (json : AuditHashEnvelope → Bytes) (store : PostgresStateStore)
    (snapshot : StateSnapshot) (events : List AuditEvent) (faults : S3Faults)
    (outcome : CommitOutcome) : Except Fault Unit × PostgresStateStore :=
  match validateStateSnapshot snapshot with
  | .error e =>
    (.error (e.wrap "validate PostgreSQL coordinator state before audited commit: "), store)
  | .ok () =>
    let events := events.map AuditEvent.normalized
    match Store.validateAuditEvents 0 events with
    | .error e => (.error (.error e), store)
    | .ok () =>
      match store.persistModel "persist global model artifact for audited state: "
          snapshot.canonical faults with
      | (.error e, store) => (.error (.error e), store)
      | (.ok row, store) =>
        match appendAuditEventsTx json store.audit events with
        | .error e => (.error (.error e), store)
        | .ok audit => store.finish row audit outcome

end PostgresStateStore

end ZeroTrustFL
