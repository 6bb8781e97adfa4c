import Mathlib.Tactic
import ZeroTrustFL.Security.Registration
import ZeroTrustFL.Coordinator.Aggregation
import ZeroTrustFL.Coordinator.Messages

/-!
# The coordinator service

`pkg/coordinator/service.go` and `credential_lifecycle.go`: node registration, leases, the rounds of
updates and the credential lifecycle.  A call gets the identity that the transport has established
and its environment, and returns its answer together with the service it leaves.  The part of a
call that runs under `roundMu` is a definition of its own, named `…Locked`.
-/

namespace ZeroTrustFL

def defaultMaxUpdateBytes : ℤ := 8 * 2 ^ 20
def defaultMaxUpdatesPerMinute : ℤ := 60
def maxReportedSampleCount : UInt64 := 10000000
def networkWeightsFormat : String := "application/x-npy-f32"
def requestReplayWindow : ℤ := 2 * minute
def minimumNonceBytes : ℕ := 16

/-- The configuration of a service as its operator gives it. -/
structure Config where
  leaseTTL : ℤ
  maxUpdateBytes : ℤ
  initialModel : Option GlobalModel
  minUpdates : ℤ
  maxUpdatesPerMinute : ℤ
  aggregationMethod : String

/-- The settings a service runs with. -/
structure Settings where
  leaseTTL : ℤ
  maxUpdateBytes : ℤ
  minUpdates : ℤ
  maxUpdatesPerMinute : ℤ
  aggregationMethod : String
  leaseTTL_pos : 0 < leaseTTL
  maxUpdateBytes_pos : 0 < maxUpdateBytes
  minUpdates_pos : 0 < minUpdates
  maxUpdatesPerMinute_pos : 0 < maxUpdatesPerMinute
  method : aggregationMethod = "median" ∨ aggregationMethod = "weighted_mean"
deriving DecidableEq

/-- The submissions of a node since the start of a window. -/
structure UpdateRateWindow where
  startedAt : ℤ
  count : ℤ
deriving DecidableEq

structure Service where
  settings : Settings
  registry : RegistrationStore
  model : GlobalModel
  pending : OrdMap String PendingUpdate
  rates : OrdMap String UpdateRateWindow
  nonces : OrdMap String ℤ
deriving DecidableEq

/-! ## Construction -/

/-- The configured value, or the default for one that is not positive. -/
def orDefault (value default : ℤ) : ℤ := if value ≤ 0 then default else value

theorem orDefault_pos {value default : ℤ} (h : 0 < default) : 0 < orDefault value default := by
  unfold orDefault
  split_ifs <;> omega

theorem normalizeAggregationMethod_ok {value method : String}
    (h : normalizeAggregationMethod value = .ok method) :
    method = "median" ∨ method = "weighted_mean" := by
  unfold normalizeAggregationMethod at h
  split_ifs at h with hmethod
  exact Except.ok.inj h ▸ hmethod

/-- The model of a service that is given none. -/
def bootstrapModel (now : ℤ) : GlobalModel where
  modelVersion := "bootstrap"
  roundID := 0
  weightsPayload := []
  weightsFormat := networkWeightsFormat
  sha256 := []
  createdAtUnix := unixSeconds now
  protocolVersion := 0
  modelID := ""
  schemaSha256 := []
  tensorManifest := []

/-- Checks an initial model and sets its digest. -/
def checkInitialModel (model : GlobalModel) : Except Fault GlobalModel :=
  if model.weightsPayload.length = 0 then .ok model
  else if model.weightsFormat ≠ networkWeightsFormat then
    .error (.error ("initial model weights_format must be " ++ quote networkWeightsFormat))
  else
    match decodeNPYFloat32 model.weightsPayload with
    | .error (.error e) => .error (.error ("validate initial model payload: " ++ e))
    | .error (.crash e) => .error (.crash e)
    | .ok _ =>
      let digest := sha256 model.weightsPayload
      if 0 < model.sha256.length ∧ digest ≠ model.sha256 then
        .error (.error "initial model SHA-256 digest does not match payload")
      else .ok { model with sha256 := digest }

def newService (registry : RegistrationStore) (cfg : Config) (clock : Clock) :
    Except Fault Service :=
  match h : normalizeAggregationMethod cfg.aggregationMethod with
  | .error e => .error (.error e)
  | .ok method =>
    match checkInitialModel (cfg.initialModel.getD (bootstrapModel (clock.read 0))) with
    | .error e => .error e
    | .ok model => .ok
        { settings :=
            { leaseTTL := orDefault cfg.leaseTTL (5 * minute)
              maxUpdateBytes := orDefault cfg.maxUpdateBytes defaultMaxUpdateBytes
              minUpdates := orDefault cfg.minUpdates 1
              maxUpdatesPerMinute := orDefault cfg.maxUpdatesPerMinute defaultMaxUpdatesPerMinute
              aggregationMethod := method
              leaseTTL_pos := orDefault_pos (by decide)
              maxUpdateBytes_pos := orDefault_pos (by decide)
              minUpdates_pos := orDefault_pos (by decide)
              maxUpdatesPerMinute_pos := orDefault_pos (by decide)
              method := normalizeAggregationMethod_ok h }
          registry := registry
          model := model
          pending := ∅
          rates := ∅
          nonces := ∅ }

/-! ## Checks -/

/-- `secureIdentifier(24)`. -/
def secureIdentifier (env : Env) : Except String String :=
  match env.random with
  | none => .error "generate secure identifier"
  | some bytes => .ok (hexEncode bytes.toList)

def requireIdentityAndRegistration (identity : Option PeerIdentity) (registry : RegistrationStore)
    (nodeID registrationID : String) (now : ℤ) : Except Failure PeerIdentity :=
  match identity with
  | none => .error (.status .internal "authorized peer identity is missing from context")
  | some identity =>
    if trimSpace nodeID = "" ∨ nodeID ≠ identity.nodeID then
      .error (.status .invalidArgument "node_id must match the authenticated certificate identity")
    else if trimSpace registrationID = "" then
      .error (.status .permissionDenied "registration_id is required")
    else
      match registry.validate identity registrationID now with
      | .error _ => .error (.status .permissionDenied "registration is invalid or expired")
      | .ok _ => .ok identity

def validateMetrics (metrics : Option LocalUpdateMetrics) : Except String Unit :=
  match metrics with
  | none => .error "update metrics are required"
  | some metrics =>
    if metrics.dynamicEpochs = 0 then .error "dynamic_epochs must be greater than zero"
    else if metrics.sampleCount = 0 ∨ maxReportedSampleCount < metrics.sampleCount then
      .error s!"sample_count must be between 1 and {maxReportedSampleCount.toNat}"
    else if metrics.loss.isNaN || metrics.loss.isInf then .error "loss must be finite"
    else if metrics.gradientNorms.any fun norm => decide (norm < 0) || norm.isNaN || norm.isInf then
      .error "gradient norms must be finite and non-negative"
    else .ok ()

def validateSecurityMetadata (metadata : Option SecurityMetadata) (now : ℤ) : Except String Unit :=
  match metadata with
  | none => .error "security metadata is required"
  | some metadata =>
    if metadata.nonce.length < minimumNonceBytes then
      .error s!"security nonce must contain at least {minimumNonceBytes} bytes"
    else
      let issuedAt := unixTime metadata.issuedAtUnix
      if isZeroTime issuedAt ∨ issuedAt < now - requestReplayWindow ∨
          now + requestReplayWindow < issuedAt then
        .error "security metadata timestamp is outside the accepted replay window"
      else .ok ()

/-- The nonce of a request, empty when there is no security metadata. -/
def nonceOf (metadata : Option SecurityMetadata) : Bytes :=
  match metadata with
  | none => []
  | some metadata => metadata.nonce

def currentModelVector (model : GlobalModel) (expectedLength : ℕ) : Except Fault (List Float32) :=
  if expectedLength = 0 then .error (.error "model update vector must not be empty")
  else if model.weightsPayload.length = 0 then .ok (List.replicate expectedLength 0)
  else if model.weightsFormat ≠ networkWeightsFormat then
    .error (.error ("current model uses unsupported weights format " ++ quote model.weightsFormat))
  else
    match decodeNPYFloat32 model.weightsPayload with
    | .error (.error e) => .error (.error ("decode current global model: " ++ e))
    | .error (.crash e) => .error (.crash e)
    | .ok values =>
      if values.length ≠ expectedLength then
        .error
          (.error (s!"update vector length {expectedLength} does not match global model length " ++
          s!"{values.length}"))
      else .ok values

/-- Adds the aggregate to the model coordinate by coordinate, until a sum is not finite. -/
def addVectors : List Float32 → List Float32 → Option (List Float32)
  | x :: xs, y :: ys =>
    let z := x + y
    if isNonFinite z then none
    else (addVectors xs ys).map (z :: ·)
  | xs, _ => some xs

namespace Service

/-! ## Registration and leases -/

def registerNode (s : Service) (identity : Option PeerIdentity) (req : Option RegisterNodeRequest)
    (env : Env) : Except Failure RegisterNodeResponse × Service :=
  match identity with
  | none => (.error (.status .internal "authorized peer identity is missing from context"), s)
  | some identity =>
    match req with
    | none => (.error (.status .invalidArgument "registration request is required"), s)
    | some req =>
      if trimSpace req.nodeID = "" ∨ req.nodeID ≠ identity.nodeID then
        (.error (.status .invalidArgument
          "node_id must match the authenticated certificate identity"), s)
      else if req.certificateCommonName ≠ identity.commonName then
        (.error (.status .invalidArgument
          "certificate_common_name must match the authenticated certificate"), s)
      else if !req.hasHardware then
        (.error (.status .invalidArgument "hardware profile is required"), s)
      else
        match secureIdentifier env with
        | .error _ => (.error (.status .internal "could not create registration"), s)
        | .ok registrationID =>
          match s.registry.register identity registrationID s.settings.leaseTTL
              (env.clock.read 0) with
          | (.error _, registry) =>
            (.error (.status .internal "could not persist registration"),
              { s with registry := registry })
          | (.ok entry, registry) =>
            (.ok
              { accepted := true
                registrationID := entry.registrationID
                assignedRole := entry.role
                leaseExpiresUnix := unixSeconds entry.expiresAt
                credentialGeneration := entry.generation }, { s with registry := registry })

def heartbeat (s : Service) (identity : Option PeerIdentity) (req : Option HeartbeatRequest)
    (env : Env) : Except Failure HeartbeatResponse × Service :=
  match req with
  | none => (.error (.status .invalidArgument "heartbeat request is required"), s)
  | some req =>
    match requireIdentityAndRegistration identity s.registry req.nodeID req.registrationID
      (env.clock.read 0) with
    | .error e => (.error e, s)
    | .ok identity =>
      match s.registry.refresh identity req.registrationID s.settings.leaseTTL
          (env.clock.read 1) with
      | (.error _, registry) =>
        (.error (.status .permissionDenied "registration is invalid or expired"),
          { s with registry := registry })
      | (.ok entry, registry) =>
        (.ok
          { accepted := true
            serverTimeUnix := unixSeconds (env.clock.read 2)
            currentModelVersion := s.model.modelVersion
            leaseExpiresUnix := unixSeconds entry.expiresAt
            credentialGeneration := entry.generation }, { s with registry := registry })

def getGlobalModel (s : Service) (identity : Option PeerIdentity)
    (req : Option GetGlobalModelRequest) (env : Env) : Except Failure GlobalModel :=
  match req with
  | none => .error (.status .invalidArgument "global model request is required")
  | some req =>
    match requireIdentityAndRegistration identity s.registry req.nodeID req.registrationID
      (env.clock.read 0) with
    | .error e => .error e
    | .ok _ => .ok s.model

/-! ## Nonces and rates -/

/-- The key under which the nonce of a node is remembered. -/
def nonceKey (nodeID : String) (nonce : Bytes) : String := nodeID ++ ":" ++ hexEncode nonce

def acceptNonceLocked (s : Service) (nodeID : String) (nonce : Bytes) (now : ℤ) : Bool × Service :=
  let cutoff := now - requestReplayWindow
  let s := { s with nonces := s.nonces.filter fun _ seenAt => !decide (seenAt < cutoff) }
  let key := nonceKey nodeID nonce
  if (s.nonces.get? key).isSome then (false, s)
  else (true, { s with nonces := s.nonces.insert key now })

def allowUpdateLocked (s : Service) (nodeID : String) (now : ℤ) : Bool × Service :=
  let window := (s.rates.get? nodeID).getD ⟨0, 0⟩
  if isZeroTime window.startedAt ∨ minute ≤ now - window.startedAt then
    (true, { s with rates := s.rates.insert nodeID ⟨now, 1⟩ })
  else if s.settings.maxUpdatesPerMinute ≤ window.count then (false, s)
  else (true, { s with rates := s.rates.insert nodeID { window with count := window.count + 1 } })

/-! ## Updates -/

/-- The model of the next round. -/
def nextModel (model : GlobalModel) (payload : Bytes) (now : ℤ) : GlobalModel :=
  let modelDigest := sha256 payload
  let nextRound := model.roundID + 1
  { modelVersion := s!"round-{nextRound.toNat}-" ++ hexEncode (modelDigest.take 8)
    roundID := nextRound
    weightsPayload := payload
    weightsFormat := networkWeightsFormat
    sha256 := modelDigest
    createdAtUnix := unixSeconds now
    protocolVersion := 0
    modelID := ""
    schemaSha256 := []
    tensorManifest := [] }

/-- Aggregates the pending updates into the next model; a failure takes the new update back. -/
def closeRound (s : Service) (nodeID updateID : String) (currentValues : List Float32) (now : ℤ)
    (order : IterOrder) : Except Failure SubmitLocalUpdateResponse × Service :=
  let undone := { s with pending := s.pending.erase nodeID }
  match aggregatePendingUpdates order s.pending currentValues.length
      s.settings.aggregationMethod with
  | .error e => (.error (.status .internal e), undone)
  | .ok aggregated =>
    match addVectors currentValues aggregated with
    | none =>
      (.error (.status .invalidArgument "aggregated model contains non-finite values"), undone)
    | some values =>
      match encodeNPYFloat32 values with
      | .error _ => (.error (.status .internal "could not encode aggregated global model"), undone)
      | .ok payload =>
        let model := nextModel s.model payload now
        (.ok
          { accepted := true
            updateID := updateID
            reason := "accepted; round aggregated"
            currentModelVersion := model.modelVersion }, { s with model := model, pending := ∅ })

/-- Takes an update of the current round into the pending updates, and closes the round when enough
have come. -/
def admitUpdate (s : Service) (req : SubmitLocalUpdateRequest) (values : List Float32) (now : ℤ)
    (env : Env) : Except Failure SubmitLocalUpdateResponse × Service :=
  if req.baseModelVersion ≠ s.model.modelVersion then
    (.error (.status .failedPrecondition ("base model version " ++ quote req.baseModelVersion ++
      " is stale; current version is " ++ quote s.model.modelVersion)), s)
  else if req.roundID ≠ s.model.roundID then
    (.error (.status .failedPrecondition (s!"update round {req.roundID.toNat} does not match " ++
      s!"current round {s.model.roundID.toNat}")), s)
  else if (s.pending.get? req.nodeID).isSome then
    (.error (.status .alreadyExists "worker already submitted an update for the current round"), s)
  else
    match currentModelVector s.model values.length with
    | .error (.error e) => (.error (.status .invalidArgument e), s)
    | .error (.crash e) => (.error (.crash e), s)
    | .ok currentValues =>
      match secureIdentifier env with
      | .error _ => (.error (.status .internal "could not create update identifier"), s)
      | .ok updateID =>
        let update : PendingUpdate :=
          { nodeID := req.nodeID
            updateID := updateID
            values := values
            sampleCount := (req.metrics.map LocalUpdateMetrics.sampleCount).getD 0 }
        let s := { s with pending := s.pending.insert req.nodeID update }
        if (s.pending.size : ℤ) < s.settings.minUpdates then
          (.ok
            { accepted := true
              updateID := updateID
              reason := s!"accepted; waiting for quorum ({s.pending.size}/{s.settings.minUpdates})"
              currentModelVersion := s.model.modelVersion }, s)
        else s.closeRound req.nodeID updateID currentValues now env.order

/-- What a submission brings into its locked part. -/
structure PreparedUpdate where
  identity : PeerIdentity
  values : List Float32
  now : ℤ

/-- The part of a submission before the lock. -/
def prepareUpdate (s : Service) (identity : Option PeerIdentity) (req : SubmitLocalUpdateRequest)
    (env : Env) : Except Failure PreparedUpdate :=
  match requireIdentityAndRegistration identity s.registry req.nodeID req.registrationID
    (env.clock.read 0) with
  | .error e => .error e
  | .ok identity =>
    if req.weightsPayload.length = 0 then
      .error (.status .invalidArgument "weights payload is required")
    else if s.settings.maxUpdateBytes < req.weightsPayload.length then
      .error
        (.status .resourceExhausted s!"weights payload exceeds {s.settings.maxUpdateBytes} bytes")
    else if req.weightsFormat ≠ networkWeightsFormat then
      .error (.status .invalidArgument ("weights_format must be " ++ quote networkWeightsFormat))
    else if req.updateSha256.length ≠ 32 then
      .error (.status .invalidArgument "update_sha256 must contain a 32-byte SHA-256 digest")
    else if sha256 req.weightsPayload ≠ req.updateSha256 then
      .error (.status .invalidArgument
        "weights payload SHA-256 digest does not match update_sha256")
    else
      match validateMetrics req.metrics with
      | .error e => .error (.status .invalidArgument e)
      | .ok () =>
        match decodeNPYFloat32 req.weightsPayload with
        | .error (.error e) =>
          .error (.status .invalidArgument ("invalid model update payload: " ++ e))
        | .error (.crash e) => .error (.crash e)
        | .ok values =>
          let now := env.clock.read 1
          match validateSecurityMetadata req.security now with
          | .error e => .error (.status .invalidArgument e)
          | .ok () => .ok ⟨identity, values, now⟩

/-- The part of a submission under the lock. -/
def submitLocalUpdateLocked (s : Service) (req : SubmitLocalUpdateRequest)
    (prepared : PreparedUpdate) (env : Env) : Except Failure SubmitLocalUpdateResponse × Service :=
  match s.registry.validate prepared.identity req.registrationID (env.clock.read 2) with
  | .error _ => (.error (.status .permissionDenied
      "registration was revoked, rotated, or expired before update commit"), s)
  | .ok _ =>
    match s.acceptNonceLocked req.nodeID (nonceOf req.security) prepared.now with
    | (false, s) => (.error (.status .alreadyExists "request nonce was already used"), s)
    | (true, s) =>
      match s.allowUpdateLocked req.nodeID prepared.now with
      | (false, s) => (.error (.status .resourceExhausted "worker update rate limit exceeded"), s)
      | (true, s) => s.admitUpdate req prepared.values prepared.now env

def submitLocalUpdate (s : Service) (identity : Option PeerIdentity)
    (req : Option SubmitLocalUpdateRequest) (env : Env) :
    Except Failure SubmitLocalUpdateResponse × Service :=
  match req with
  | none => (.error (.status .invalidArgument "local update request is required"), s)
  | some req =>
    match s.prepareUpdate identity req env with
    | .error e => (.error e, s)
    | .ok prepared => s.submitLocalUpdateLocked req prepared env

/-! ## Credential lifecycle -/

/-- The part of a rotation before the lock: the identity, the time and the new registration id. -/
def prepareRotation (s : Service) (identity : Option PeerIdentity) (req : RotateRegistrationRequest)
    (env : Env) : Except Failure (PeerIdentity × ℤ × String) :=
  match requireIdentityAndRegistration identity s.registry req.nodeID req.registrationID
    (env.clock.read 0) with
  | .error e => .error e
  | .ok identity =>
    let now := env.clock.read 1
    match validateSecurityMetadata req.security now with
    | .error e => .error (.status .invalidArgument e)
    | .ok () =>
      match secureIdentifier env with
      | .error _ =>
        .error (.status .internal "could not create replacement registration credential")
      | .ok nextRegistrationID => .ok (identity, now, nextRegistrationID)

/-- The part of a rotation under the lock. -/
def rotateRegistrationLocked (s : Service) (req : RotateRegistrationRequest)
    (identity : PeerIdentity) (now : ℤ) (nextRegistrationID : String) (env : Env) :
    Except Failure RotateRegistrationResponse × Service :=
  match s.registry.validate identity req.registrationID (env.clock.read 2) with
  | .error _ => (.error (.status .permissionDenied
      "registration was revoked, rotated, or expired before rotation"), s)
  | .ok _ =>
    match s.acceptNonceLocked req.nodeID (nonceOf req.security) now with
    | (false, s) => (.error (.status .alreadyExists "request nonce was already used"), s)
    | (true, s) =>
      match s.registry.rotate identity req.registrationID nextRegistrationID s.settings.leaseTTL
        (env.clock.read 3) with
      | (.error _, registry) => (.error (.status .permissionDenied
          "registration could not be rotated"), { s with registry := registry })
      | (.ok entry, registry) =>
        (.ok
          { accepted := true
            registrationID := entry.registrationID
            leaseExpiresUnix := unixSeconds entry.expiresAt
            credentialGeneration := entry.generation }, { s with registry := registry })

def rotateRegistration (s : Service) (identity : Option PeerIdentity)
    (req : Option RotateRegistrationRequest) (env : Env) :
    Except Failure RotateRegistrationResponse × Service :=
  match req with
  | none => (.error (.status .invalidArgument "registration rotation request is required"), s)
  | some req =>
    match s.prepareRotation identity req env with
    | .error e => (.error e, s)
    | .ok (identity, now, nextRegistrationID) =>
      s.rotateRegistrationLocked req identity now nextRegistrationID env

def mapRegistrationRevocationError (message : String) : Failure :=
  let chars := message.toList
  if containsChars "reason".toList chars || containsChars "target node ID".toList chars then
    .status .invalidArgument message
  else if containsChars "not registered".toList chars || containsChars "expired".toList chars then
    .status .notFound "target registration is not active"
  else .status .permissionDenied "registration could not be revoked"

/-- The part of a revocation before the lock: the identity of the admin and the time. -/
def prepareRevocation (s : Service) (identity : Option PeerIdentity)
    (req : RevokeRegistrationRequest) (env : Env) : Except Failure (PeerIdentity × ℤ) :=
  match requireIdentityAndRegistration identity s.registry req.nodeID req.registrationID
    (env.clock.read 0) with
  | .error e => .error e
  | .ok identity =>
    if identity.role ≠ "admin" then
      .error (.status .permissionDenied "only an admin identity may revoke registrations")
    else if trimSpace req.targetNodeID = "" then
      .error (.status .invalidArgument "target_node_id is required")
    else
      let now := env.clock.read 1
      match validateSecurityMetadata req.security now with
      | .error e => .error (.status .invalidArgument e)
      | .ok () => .ok (identity, now)

/-- The part of a revocation under the lock. -/
def revokeRegistrationLocked (s : Service) (req : RevokeRegistrationRequest)
    (identity : PeerIdentity) (now : ℤ) (env : Env) :
    Except Failure RevokeRegistrationResponse × Service :=
  match s.registry.validate identity req.registrationID (env.clock.read 2) with
  | .error _ => (.error (.status .permissionDenied
      "admin registration was revoked, rotated, or expired before revocation"), s)
  | .ok _ =>
    match s.acceptNonceLocked req.nodeID (nonceOf req.security) now with
    | (false, s) => (.error (.status .alreadyExists "request nonce was already used"), s)
    | (true, s) =>
      match s.registry.revoke req.targetNodeID req.reason (env.clock.read 3) with
      | (.error e, registry) =>
        (.error (mapRegistrationRevocationError e), { s with registry := registry })
      | (.ok entry, registry) =>
        (.ok
          { accepted := true
            targetNodeID := entry.nodeID
            revokedGeneration := entry.generation
            revokedAtUnix := unixSeconds entry.revokedAt
            blockedUntilUnix := unixSeconds entry.expiresAt },
          { s with
            registry := registry
            pending := s.pending.erase entry.nodeID
            rates := s.rates.erase entry.nodeID })

def revokeRegistration (s : Service) (identity : Option PeerIdentity)
    (req : Option RevokeRegistrationRequest) (env : Env) :
    Except Failure RevokeRegistrationResponse × Service :=
  match req with
  | none => (.error (.status .invalidArgument "registration revocation request is required"), s)
  | some req =>
    match s.prepareRevocation identity req env with
    | .error e => (.error e, s)
    | .ok (identity, now) => s.revokeRegistrationLocked req identity now env

end Service

/-! ## Calls -/

/-- The requests of the service. -/
inductive Request where
  | registerNode (req : Option RegisterNodeRequest)
  | heartbeat (req : Option HeartbeatRequest)
  | getGlobalModel (req : Option GetGlobalModelRequest)
  | submitLocalUpdate (req : Option SubmitLocalUpdateRequest)
  | rotateRegistration (req : Option RotateRegistrationRequest)
  | revokeRegistration (req : Option RevokeRegistrationRequest)
deriving DecidableEq

/-- The answers of the service. -/
inductive Response where
  | registerNode (resp : RegisterNodeResponse)
  | heartbeat (resp : HeartbeatResponse)
  | getGlobalModel (model : GlobalModel)
  | submitLocalUpdate (resp : SubmitLocalUpdateResponse)
  | rotateRegistration (resp : RotateRegistrationResponse)
  | revokeRegistration (resp : RevokeRegistrationResponse)
deriving DecidableEq

/-- A request with the identity of its caller and its environment. -/
structure Call where
  identity : Option PeerIdentity
  request : Request
  env : Env

namespace Service

/-- Serves one call. -/
def serve (s : Service) (c : Call) : Except Failure Response × Service :=
  match c.request with
  | .registerNode req => (s.registerNode c.identity req c.env).map (Except.map .registerNode) id
  | .heartbeat req => (s.heartbeat c.identity req c.env).map (Except.map .heartbeat) id
  | .getGlobalModel req => ((s.getGlobalModel c.identity req c.env).map .getGlobalModel, s)
  | .submitLocalUpdate req =>
    (s.submitLocalUpdate c.identity req c.env).map (Except.map .submitLocalUpdate) id
  | .rotateRegistration req =>
    (s.rotateRegistration c.identity req c.env).map (Except.map .rotateRegistration) id
  | .revokeRegistration req =>
    (s.revokeRegistration c.identity req c.env).map (Except.map .revokeRegistration) id

end Service

end ZeroTrustFL
