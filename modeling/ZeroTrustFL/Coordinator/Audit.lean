import Mathlib
import ZeroTrustFL.Coordinator.Snapshot

/-!
# Audit events

The events that accompany the transitions of a durable coordinator and the checks on them:
`audit.go`, `durable_audit.go` and `durable_credential_lifecycle.go` of `pkg/coordinator`.
-/

namespace ZeroTrustFL

def auditSchemaVersion : ℕ := 1
def maxAuditRoundID : UInt64 := 0x7fffffffffffffff
def auditOutcomeSuccess : String := "success"

inductive AuditEventType where
  | stateInitialized
  | stateRecovered
  | nodeRegistered
  | leaseRenewed
  | updateAccepted
  | roundAggregated
  | credentialRotated
  | registrationRevoked
  /-- Any other text in the place of a type. -/
  | unsupported (name : String)
deriving DecidableEq

structure AuditEvent where
  schemaVersion : ℕ
  occurredAt : ℤ
  type : AuditEventType
  outcome : String
  nodeID : String
  registrationIDHash : String
  updateID : String
  updateSHA256 : String
  baseModelVersion : String
  roundID : UInt64
  modelVersion : String
  modelSHA256 : String
  sampleCount : UInt64
  pendingUpdates : ℤ
  quorum : ℤ
  aggregationMethod : String
  leaseExpiresUnix : ℤ
  credentialGeneration : UInt64
  targetNodeID : String
  blockedUntilUnix : ℤ
deriving DecidableEq

def normalizeAuditTime (t : ℤ) : ℤ := truncateMicrosecond t

def newAuditEvent (type : AuditEventType) (now : ℤ) : AuditEvent where
  schemaVersion := auditSchemaVersion
  occurredAt := normalizeAuditTime now
  type := type
  outcome := auditOutcomeSuccess
  nodeID := ""
  registrationIDHash := ""
  updateID := ""
  updateSHA256 := ""
  baseModelVersion := ""
  roundID := 0
  modelVersion := ""
  modelSHA256 := ""
  sampleCount := 0
  pendingUpdates := 0
  quorum := 0
  aggregationMethod := ""
  leaseExpiresUnix := 0
  credentialGeneration := 0
  targetNodeID := ""
  blockedUntilUnix := 0

def hashAuditOpaqueIdentifier (value : String) : String :=
  if value = "" then "" else hexEncode (sha256 (stringBytes value))

def modelAuditDigestHex (digest : Bytes) : String :=
  if digest.length = 0 then "" else hexEncode digest

/-! ## Checks -/

/-- The check on one of the digests of an event. -/
def validateAuditDigest (name value : String) : Except String Unit :=
  if value = "" then .ok ()
  else if (hexDecode value.toList).map List.length ≠ some 32 ∨ value ≠ toLower value then
    .error ("audit " ++ name ++ " must be a lowercase 32-byte SHA-256 hex digest")
  else .ok ()

/-- The fields that the type of an event requires. -/
def validateAuditFields (event : AuditEvent) : Except String Unit :=
  match event.type with
  | .stateInitialized | .stateRecovered =>
    if event.modelVersion = "" then .error "coordinator state audit event requires model_version"
    else .ok ()
  | .nodeRegistered | .leaseRenewed =>
    if event.nodeID = "" ∨ event.registrationIDHash = "" ∨ event.leaseExpiresUnix ≤ 0 then
      .error "registration/lease audit event requires node, registration hash, and lease expiry"
    else .ok ()
  | .credentialRotated =>
    if event.nodeID = "" ∨ event.registrationIDHash = "" ∨ event.leaseExpiresUnix ≤ 0 ∨
        event.credentialGeneration = 0 then
      .error "credential rotation audit event is missing required lifecycle metadata"
    else .ok ()
  | .registrationRevoked =>
    if event.nodeID = "" ∨ event.targetNodeID = "" ∨ event.credentialGeneration = 0 ∨
        event.blockedUntilUnix ≤ 0 then
      .error "registration revocation audit event is missing required lifecycle metadata"
    else .ok ()
  | .updateAccepted =>
    if event.nodeID = "" ∨ event.registrationIDHash = "" ∨ event.updateID = "" ∨
        event.updateSHA256 = "" ∨ event.baseModelVersion = "" ∨ event.quorum ≤ 0 then
      .error "update audit event is missing required update metadata"
    else .ok ()
  | .roundAggregated =>
    if event.nodeID = "" ∨ event.modelVersion = "" ∨ event.modelSHA256 = "" ∨ event.quorum ≤ 0 ∨
        event.aggregationMethod = "" then
      .error "round aggregation audit event is missing required model metadata"
    else
      match normalizeAggregationMethod event.aggregationMethod with
      | .error e => .error ("validate audit aggregation method: " ++ e)
      | .ok _ => .ok ()
  | .unsupported name => .error ("unsupported audit event type " ++ quote name)

def validateAuditEvent (event : AuditEvent) : Except String Unit :=
  if event.schemaVersion ≠ auditSchemaVersion then
    .error s!"unsupported audit schema version {event.schemaVersion}"
  else if isZeroTime event.occurredAt then .error "audit event occurred_at is required"
  else if event.occurredAt ≠ normalizeAuditTime event.occurredAt then
    .error "audit event occurred_at must be UTC microsecond precision"
  else if event.outcome ≠ auditOutcomeSuccess then
    .error ("unsupported audit outcome " ++ quote event.outcome)
  else if 256 < event.nodeID.utf8ByteSize ∨ 256 < event.targetNodeID.utf8ByteSize ∨
      256 < event.updateID.utf8ByteSize ∨ 512 < event.baseModelVersion.utf8ByteSize ∨
      512 < event.modelVersion.utf8ByteSize ∨ 64 < event.aggregationMethod.utf8ByteSize then
    .error "audit event contains an oversized identifier"
  else if maxAuditRoundID < event.roundID then
    .error "audit round_id exceeds PostgreSQL BIGINT range"
  else if maxReportedSampleCount < event.sampleCount then
    .error s!"audit sample_count exceeds {maxReportedSampleCount.toNat}"
  else if event.pendingUpdates < 0 ∨ 1000000 < event.pendingUpdates ∨ event.quorum < 0 ∨
      1000000 < event.quorum then
    .error "audit event contains an invalid pending/quorum count"
  else
    match validateAuditDigest "registration_id_hash" event.registrationIDHash with
    | .error e => .error e
    | .ok () =>
      match validateAuditDigest "update_sha256" event.updateSHA256 with
      | .error e => .error e
      | .ok () =>
        match validateAuditDigest "model_sha256" event.modelSHA256 with
        | .error e => .error e
        | .ok () => validateAuditFields event

/-! ## The events of the transitions -/

def stateAuditEvent (type : AuditEventType) (snapshot : StateSnapshot) (now : ℤ) : AuditEvent :=
  { newAuditEvent type now with
    roundID := snapshot.model.roundID
    modelVersion := snapshot.model.modelVersion
    modelSHA256 := modelAuditDigestHex snapshot.model.sha256 }

def registrationAuditEvent (req : RegisterNodeRequest) (response : RegisterNodeResponse)
    (snapshot : StateSnapshot) (now : ℤ) : AuditEvent :=
  { stateAuditEvent .nodeRegistered snapshot now with
    nodeID := req.nodeID
    registrationIDHash := hashAuditOpaqueIdentifier response.registrationID
    leaseExpiresUnix := response.leaseExpiresUnix
    credentialGeneration := response.credentialGeneration }

def heartbeatAuditEvent (req : HeartbeatRequest) (response : HeartbeatResponse)
    (snapshot : StateSnapshot) (now : ℤ) : AuditEvent :=
  { stateAuditEvent .leaseRenewed snapshot now with
    nodeID := req.nodeID
    registrationIDHash := hashAuditOpaqueIdentifier req.registrationID
    leaseExpiresUnix := response.leaseExpiresUnix
    credentialGeneration := response.credentialGeneration }

def rotationAuditEvent (req : RotateRegistrationRequest) (response : RotateRegistrationResponse)
    (snapshot : StateSnapshot) (now : ℤ) : AuditEvent :=
  { stateAuditEvent .credentialRotated snapshot now with
    nodeID := req.nodeID
    registrationIDHash := hashAuditOpaqueIdentifier response.registrationID
    leaseExpiresUnix := response.leaseExpiresUnix
    credentialGeneration := response.credentialGeneration }

def revocationAuditEvent (req : RevokeRegistrationRequest) (response : RevokeRegistrationResponse)
    (snapshot : StateSnapshot) (now : ℤ) : AuditEvent :=
  { stateAuditEvent .registrationRevoked snapshot now with
    nodeID := req.nodeID
    targetNodeID := response.targetNodeID
    credentialGeneration := response.revokedGeneration
    blockedUntilUnix := response.blockedUntilUnix }

/-- The event of an accepted update, and that of the round when the update has closed it. -/
def updateAuditEvents (settings : Settings) (req : SubmitLocalUpdateRequest)
    (response : SubmitLocalUpdateResponse) (before after : StateSnapshot) (clock : Clock) :
    List AuditEvent :=
  let accepted : AuditEvent :=
    { newAuditEvent .updateAccepted (clock.read 0) with
      nodeID := req.nodeID
      registrationIDHash := hashAuditOpaqueIdentifier req.registrationID
      updateID := response.updateID
      updateSHA256 := modelAuditDigestHex req.updateSha256
      baseModelVersion := req.baseModelVersion
      roundID := req.roundID
      modelVersion := response.currentModelVersion
      sampleCount := (req.metrics.map LocalUpdateMetrics.sampleCount).getD 0
      pendingUpdates := after.pending.length
      quorum := settings.minUpdates }
  if before.model.roundID < after.model.roundID then
    [accepted,
      { stateAuditEvent .roundAggregated after (clock.read 1) with
        nodeID := req.nodeID
        quorum := settings.minUpdates
        aggregationMethod := settings.aggregationMethod }]
  else [accepted]

end ZeroTrustFL
