import Mathlib
import ZeroTrustFL.Coordinator.Service

/-!
# Snapshots of the coordinator state

The state that a durable coordinator persists and the checks on it: `state_store.go`,
`experiment.go` and `model_identity.go` of `pkg/coordinator`.
-/

namespace ZeroTrustFL

def defaultExperimentID : String := "default"
def maxExperimentIDLen : ℕ := 256
def maxModelIDBytes : ℕ := 256
def defaultModelID : String := "global-model"

/-- The identity of an experiment as its operator gives it. -/
structure ExperimentConfig where
  id : String
  configSHA256 : String
deriving DecidableEq

structure ExperimentMetadata where
  id : String
  configSHA256 : String
  createdAt : ℤ
deriving DecidableEq

structure StatePolicy where
  leaseTTL : ℤ
  maxUpdateBytes : ℤ
  minUpdates : ℤ
  maxUpdatesPerMinute : ℤ
  aggregationMethod : String
  modelID : String
  experiment : ExperimentMetadata
deriving DecidableEq

structure PersistedNonce where
  key : String
  seenAt : ℤ
deriving DecidableEq

structure PersistedRateWindow where
  nodeID : String
  startedAt : ℤ
  count : ℤ
deriving DecidableEq

structure StateSnapshot where
  policy : StatePolicy
  model : GlobalModel
  pending : List PendingUpdate
  registrations : List Registration
  nonces : List PersistedNonce
  rateWindows : List PersistedRateWindow
deriving DecidableEq

/-! ## Identities -/

/-- `strings.ContainsAny(s, "\x00\r\n")`. -/
def hasControlCharacters (s : String) : Bool := s.toList.any fun c => c.toNat ∈ [0x00, 0x0d, 0x0a]

def normalizeModelID (value : String) : Except String String :=
  let normalized := trimSpace value
  if normalized = "" then .error "model id is required"
  else if maxModelIDBytes < normalized.utf8ByteSize then
    .error s!"model id exceeds {maxModelIDBytes} bytes"
  else if hasControlCharacters normalized then .error "model id contains control characters"
  else .ok normalized

def validatePersistedModelID (value : String) : Except String Unit :=
  match normalizeModelID value with
  | .error e => .error e
  | .ok normalized =>
    if normalized ≠ value then .error "persisted model id must use canonical whitespace" else .ok ()

def validateExperimentID (id : String) : Except String Unit :=
  if id = "" ∨ id ≠ trimSpace id then
    .error "experiment id is required and must not contain surrounding whitespace"
  else if maxExperimentIDLen < id.utf8ByteSize then
    .error s!"experiment id exceeds {maxExperimentIDLen} bytes"
  else if hasControlCharacters id then .error "experiment id contains control characters"
  else .ok ()

def validateExperimentConfigDigest (value : String) : Except String Unit :=
  if value = "" ∨ value ≠ toLower value then
    .error "experiment config SHA-256 must be lowercase hexadecimal"
  else if (hexDecode value.toList).map List.length ≠ some 32 then
    .error "experiment config SHA-256 must encode exactly 32 bytes"
  else .ok ()

/-- `normalizeExperimentTime`. -/
def normalizeExperimentTime (t : ℤ) : ℤ := truncateMicrosecond t

def validateExperimentMetadata (metadata : ExperimentMetadata) : Except String Unit :=
  match validateExperimentID metadata.id with
  | .error e => .error e
  | .ok () =>
    match validateExperimentConfigDigest metadata.configSHA256 with
    | .error e => .error e
    | .ok () =>
      if isZeroTime metadata.createdAt ∨
          metadata.createdAt ≠ normalizeExperimentTime metadata.createdAt then
        .error "experiment created_at must use UTC microsecond precision"
      else .ok ()

/-- The digest of what the coordinator itself knows of an experiment, over its JSON encoding. -/
def coordinatorVisibleExperimentDigest (policy : StatePolicy) : String :=
  hexEncode (sha256 (stringBytes (
    "\x7b\"schema_version\":1," ++
    s!"\"lease_ttl_ns\":{policy.leaseTTL},\"max_update_bytes\":{policy.maxUpdateBytes}," ++
    s!"\"min_updates\":{policy.minUpdates}," ++
    s!"\"max_updates_per_minute\":{policy.maxUpdatesPerMinute}," ++
    s!"\"aggregation_method\":\"{policy.aggregationMethod}\"" ++ "\x7d")))

def newExperimentMetadata (cfg : ExperimentConfig) (policy : StatePolicy) (now : ℤ) :
    Except String ExperimentMetadata :=
  let id := if trimSpace cfg.id = "" then defaultExperimentID else trimSpace cfg.id
  match validateExperimentID id with
  | .error e => .error e
  | .ok () =>
    let configDigest := if trimSpace cfg.configSHA256 = "" then
      coordinatorVisibleExperimentDigest policy else trimSpace cfg.configSHA256
    match validateExperimentConfigDigest configDigest with
    | .error e => .error e
    | .ok () =>
      let metadata : ExperimentMetadata := ⟨id, configDigest, normalizeExperimentTime now⟩
      match validateExperimentMetadata metadata with
      | .error e => .error e
      | .ok () => .ok metadata

def sameExperimentIdentity (left right : ExperimentMetadata) : Bool :=
  left.id = right.id ∧ left.configSHA256 = right.configSHA256

def experimentMetadataMissing (metadata : ExperimentMetadata) : Bool :=
  metadata.id = "" ∧ metadata.configSHA256 = "" ∧ isZeroTime metadata.createdAt

/-! ## Validation -/

def validateStatePolicy (policy : StatePolicy) : Except String Unit :=
  if policy.leaseTTL ≤ 0 then .error "state policy registration lease must be positive"
  else if policy.maxUpdateBytes ≤ 0 then .error "state policy max_update_bytes must be positive"
  else if policy.minUpdates ≤ 0 then .error "state policy min_updates must be positive"
  else if policy.maxUpdatesPerMinute ≤ 0 then
    .error "state policy max_updates_per_minute must be positive"
  else
    match normalizeAggregationMethod policy.aggregationMethod with
    | .error e => .error e
    | .ok normalizedAggregation =>
      if policy.aggregationMethod ≠ normalizedAggregation then
        .error ("state policy aggregation_method must use canonical value " ++
          quote normalizedAggregation)
      else
        match validatePersistedModelID policy.modelID with
        | .error e => .error ("validate model identity: " ++ e)
        | .ok () =>
          match validateExperimentMetadata policy.experiment with
          | .error e => .error ("validate experiment metadata: " ++ e)
          | .ok () => .ok ()

/-- The checks on the model; the result is the length of its vector, zero without a payload. -/
def validateSnapshotModel (model : GlobalModel) : Except Fault ℕ :=
  if trimSpace model.modelVersion = "" then .error (.error "global model version is required")
  else if model.weightsFormat ≠ networkWeightsFormat then
    .error (.error ("global model weights_format must be " ++ quote networkWeightsFormat))
  else if 0 < model.weightsPayload.length then
    match decodeNPYFloat32 model.weightsPayload with
    | .error (.error e) => .error (.error ("decode global model payload: " ++ e))
    | .error (.crash e) => .error (.crash e)
    | .ok values =>
      if model.sha256.length ≠ 32 ∨ sha256 model.weightsPayload ≠ model.sha256 then
        .error (.error "global model SHA-256 digest does not match payload")
      else .ok values.length
  else if model.sha256.length ≠ 0 then
    .error (.error "global model without payload must not contain a SHA-256 digest")
  else .ok 0

/-- The loop over the pending updates: the nodes seen so far and the length of the vectors. -/
def validatePendingUpdates (seen : List String) (vectorLength : ℕ) :
    List PendingUpdate → Except String Unit
  | [] => .ok ()
  | update :: updates =>
    if trimSpace update.nodeID = "" ∨ trimSpace update.updateID = "" then
      .error "pending updates require node_id and update_id"
    else if update.nodeID ∈ seen then
      .error ("duplicate pending update for node " ++ quote update.nodeID)
    else if update.sampleCount = 0 ∨ maxReportedSampleCount < update.sampleCount then
      .error ("pending update for " ++ quote update.nodeID ++ " has invalid sample count")
    else if update.values.length = 0 then
      .error ("pending update for " ++ quote update.nodeID ++ " has an empty vector")
    else
      let vectorLength := if vectorLength = 0 then update.values.length else vectorLength
      if update.values.length ≠ vectorLength then
        .error "pending update vector lengths do not match"
      else if update.values.any isNonFinite then
        .error ("pending update for " ++ quote update.nodeID ++ " contains non-finite values")
      else validatePendingUpdates (update.nodeID :: seen) vectorLength updates

/-- A loop over entries that checks each one and that their keys are distinct. -/
def validateDistinct {α : Type} (check : α → Except String Unit) (key : α → String)
    (duplicate : String → String) (seen : List String) : List α → Except String Unit
  | [] => .ok ()
  | entry :: entries =>
    match check entry with
    | .error e => .error e
    | .ok () =>
      if key entry ∈ seen then .error (duplicate (key entry))
      else validateDistinct check key duplicate (key entry :: seen) entries

def checkPersistedRegistration (registration : Registration) : Except String Unit :=
  if trimSpace registration.nodeID = "" ∨ trimSpace registration.role = "" ∨
      trimSpace registration.certificateFingerprint = "" ∨
      trimSpace registration.registrationID = "" then
    .error "persisted registration is missing a required binding"
  else if isZeroTime registration.expiresAt then
    .error ("persisted registration for " ++ quote registration.nodeID ++ " has no expiry")
  else .ok ()

def checkPersistedNonce (nonce : PersistedNonce) : Except String Unit :=
  if trimSpace nonce.key = "" ∨ isZeroTime nonce.seenAt then
    .error "persisted replay nonce is incomplete"
  else .ok ()

def checkPersistedRateWindow (maxUpdatesPerMinute : ℤ) (window : PersistedRateWindow) :
    Except String Unit :=
  if trimSpace window.nodeID = "" ∨ isZeroTime window.startedAt then
    .error "persisted rate window is incomplete"
  else if window.count ≤ 0 ∨ maxUpdatesPerMinute < window.count then
    .error ("persisted rate window for " ++ quote window.nodeID ++
      s!" has invalid count {window.count}")
  else .ok ()

def validateRegistrations : List Registration → Except String Unit :=
  validateDistinct checkPersistedRegistration Registration.nodeID
    (fun node => "duplicate persisted registration for node " ++ quote node) []

def validateNonces : List PersistedNonce → Except String Unit :=
  validateDistinct checkPersistedNonce PersistedNonce.key
    (fun key => "duplicate persisted replay nonce " ++ quote key) []

def validateRateWindows (maxUpdatesPerMinute : ℤ) : List PersistedRateWindow → Except String Unit :=
  validateDistinct (checkPersistedRateWindow maxUpdatesPerMinute) PersistedRateWindow.nodeID
    (fun node => "duplicate persisted rate window for node " ++ quote node) []

def validateStateSnapshot (snapshot : StateSnapshot) : Except Fault Unit :=
  match validateStatePolicy snapshot.policy with
  | .error e => .error (.error e)
  | .ok () =>
    match validateSnapshotModel snapshot.model with
    | .error e => .error e
    | .ok expectedVectorLength =>
      if snapshot.policy.minUpdates ≤ snapshot.pending.length then
        .error
          (.error
            (s!"persisted pending update count {snapshot.pending.length} must remain below " ++
          s!"quorum {snapshot.policy.minUpdates}"))
      else
        match validatePendingUpdates [] expectedVectorLength snapshot.pending with
        | .error e => .error (.error e)
        | .ok () =>
          match validateRegistrations snapshot.registrations with
          | .error e => .error (.error e)
          | .ok () =>
            match validateNonces snapshot.nonces with
            | .error e => .error (.error e)
            | .ok () =>
              match validateRateWindows snapshot.policy.maxUpdatesPerMinute
                  snapshot.rateWindows with
              | .error e => .error (.error e)
              | .ok () => .ok ()

/-! ## Older snapshots -/

def legacyExperimentValidationPlaceholder : ExperimentMetadata where
  id := "legacy-v1-validation"
  configSHA256 := String.ofList (List.replicate 64 '0')
  createdAt := unixTime 1

def legacyModelIDValidationPlaceholder : String := defaultModelID

/-- The model id a check of an older snapshot works with. -/
def withModelID (snapshot : StateSnapshot) (modelID : String) : StateSnapshot :=
  if snapshot.policy.modelID = "" then
    { snapshot with policy := { snapshot.policy with modelID := modelID } }
  else snapshot

/-- The experiment a check of an older snapshot works with. -/
def withExperiment (snapshot : StateSnapshot) (experiment : ExperimentMetadata) : StateSnapshot :=
  if experimentMetadataMissing snapshot.policy.experiment then
    { snapshot with policy := { snapshot.policy with experiment := experiment } }
  else snapshot

def coordinatorStateSchemaVersion : ℕ := 3

def validateStateSnapshotForSchema (snapshot : StateSnapshot) (schemaVersion : ℕ) :
    Except Fault Unit :=
  if schemaVersion = 3 then
    if snapshot.policy.modelID = "" then
      .error (.error "state policy model_id is required in schema v3")
    else validateStateSnapshot snapshot
  else if schemaVersion = 2 then
    validateStateSnapshot (withModelID snapshot legacyModelIDValidationPlaceholder)
  else if schemaVersion = 1 then
    validateStateSnapshot (withModelID
      (withExperiment snapshot legacyExperimentValidationPlaceholder)
      legacyModelIDValidationPlaceholder)
  else .error (.error s!"unsupported coordinator state schema version {schemaVersion}")

end ZeroTrustFL
