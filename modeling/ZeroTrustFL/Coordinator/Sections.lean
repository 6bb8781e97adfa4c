import Mathlib
import ZeroTrustFL.Lib.Threads
import ZeroTrustFL.Coordinator.Service

/-!
# Concurrent calls of the service

A call of the service has two parts: a first one that checks the caller and the request, and one
that reads or changes the state, under `roundMu` for submissions, rotations and revocations and
under the lock of the registrations or of the model for the other calls.  What the first part has
found can be outdated when the second one runs.
-/

namespace ZeroTrustFL

/-- A call after its first part. -/
inductive Prepared where
  | registerNode (identity : PeerIdentity) (registrationID : String)
  | heartbeat (identity : PeerIdentity) (req : HeartbeatRequest)
  | getGlobalModel
  | submitLocalUpdate (req : SubmitLocalUpdateRequest) (prepared : Service.PreparedUpdate)
  | rotateRegistration (req : RotateRegistrationRequest) (identity : PeerIdentity) (now : ℤ)
      (nextRegistrationID : String)
  | revokeRegistration (req : RevokeRegistrationRequest) (identity : PeerIdentity) (now : ℤ)

namespace Service

/-- `RegisterNode` before it writes the registration. -/
def prepareRegistration (identity : Option PeerIdentity) (req : Option RegisterNodeRequest)
    (env : Env) : Except Failure Prepared :=
  match identity with
  | none => .error (.status .internal "authorized peer identity is missing from context")
  | some identity =>
    match req with
    | none => .error (.status .invalidArgument "registration request is required")
    | some req =>
      if trimSpace req.nodeID = "" ∨ req.nodeID ≠ identity.nodeID then
        .error
          (.status .invalidArgument "node_id must match the authenticated certificate identity")
      else if req.certificateCommonName ≠ identity.commonName then
        .error
          (.status .invalidArgument
            "certificate_common_name must match the authenticated certificate")
      else if !req.hasHardware then .error (.status .invalidArgument "hardware profile is required")
      else
        match secureIdentifier env with
        | .error _ => .error (.status .internal "could not create registration")
        | .ok registrationID => .ok (.registerNode identity registrationID)

/-- The first part of a call. -/
def prepare (s : Service) (c : Call) : Except Failure Prepared :=
  match c.request with
  | .registerNode req => prepareRegistration c.identity req c.env
  | .heartbeat none => .error (.status .invalidArgument "heartbeat request is required")
  | .heartbeat (some req) =>
    (requireIdentityAndRegistration c.identity s.registry req.nodeID req.registrationID
      (c.env.clock.read 0)).map fun identity => .heartbeat identity req
  | .getGlobalModel none => .error (.status .invalidArgument "global model request is required")
  | .getGlobalModel (some req) =>
    (requireIdentityAndRegistration c.identity s.registry req.nodeID req.registrationID
      (c.env.clock.read 0)).map fun _ => .getGlobalModel
  | .submitLocalUpdate none => .error (.status .invalidArgument "local update request is required")
  | .submitLocalUpdate (some req) =>
    (s.prepareUpdate c.identity req c.env).map fun prepared => .submitLocalUpdate req prepared
  | .rotateRegistration none =>
    .error (.status .invalidArgument "registration rotation request is required")
  | .rotateRegistration (some req) =>
    (s.prepareRotation c.identity req c.env).map fun prepared =>
      .rotateRegistration req prepared.1 prepared.2.1 prepared.2.2
  | .revokeRegistration none =>
    .error (.status .invalidArgument "registration revocation request is required")
  | .revokeRegistration (some req) =>
    (s.prepareRevocation c.identity req c.env).map fun prepared =>
      .revokeRegistration req prepared.1 prepared.2

/-- The second part of a call. -/
def complete (s : Service) (env : Env) : Prepared → Except Failure Response × Service
  | .registerNode identity registrationID =>
    match s.registry.register identity registrationID s.settings.leaseTTL (env.clock.read 0) with
    | (.error _, registry) =>
      (.error (.status .internal "could not persist registration"), { s with registry := registry })
    | (.ok entry, registry) =>
      (.ok (.registerNode
        { accepted := true
          registrationID := entry.registrationID
          assignedRole := entry.role
          leaseExpiresUnix := unixSeconds entry.expiresAt
          credentialGeneration := entry.generation }), { s with registry := registry })
  | .heartbeat identity req =>
    match s.registry.refresh identity req.registrationID s.settings.leaseTTL (env.clock.read 1) with
    | (.error _, registry) =>
      (.error (.status .permissionDenied "registration is invalid or expired"),
        { s with registry := registry })
    | (.ok entry, registry) =>
      (.ok (.heartbeat
        { accepted := true
          serverTimeUnix := unixSeconds (env.clock.read 2)
          currentModelVersion := s.model.modelVersion
          leaseExpiresUnix := unixSeconds entry.expiresAt
          credentialGeneration := entry.generation }), { s with registry := registry })
  | .getGlobalModel => (.ok (.getGlobalModel s.model), s)
  | .submitLocalUpdate req prepared =>
    (s.submitLocalUpdateLocked req prepared env).map (Except.map .submitLocalUpdate) id
  | .rotateRegistration req identity now nextRegistrationID =>
    (s.rotateRegistrationLocked req identity now nextRegistrationID env).map
      (Except.map .rotateRegistration) id
  | .revokeRegistration req identity now =>
    (s.revokeRegistrationLocked req identity now env).map (Except.map .revokeRegistration) id

/-- A call whose parts run one after the other is served as a whole. -/
theorem serve_eq_complete (s : Service) (c : Call) :
    s.serve c = match s.prepare c with
      | .error e => (.error e, s)
      | .ok prepared => s.complete c.env prepared := by
  rcases hc : c.request with req | (_ | req) | (_ | req) | (_ | req) | (_ | req) | (_ | req)
  · simp only [serve, prepare, hc]
    rcases c.identity with _ | i
    · rfl
    rcases req with _ | req
    · rfl
    simp only [registerNode, prepareRegistration]
    split_ifs
    · rfl
    · rfl
    · rfl
    rcases secureIdentifier c.env with e | id
    · rfl
    simp only [complete]
    rcases s.registry.register i id s.settings.leaseTTL (c.env.clock.read 0) with
      ⟨e | entry, registry⟩
    · rfl
    · rfl
  · simp only [serve, prepare, hc]
    rfl
  · simp only [serve, prepare, hc, heartbeat]
    rcases requireIdentityAndRegistration c.identity s.registry req.nodeID req.registrationID
      (c.env.clock.read 0) with e | i
    · rfl
    simp only [Except.map, complete]
    rcases s.registry.refresh i req.registrationID s.settings.leaseTTL (c.env.clock.read 1) with
      ⟨e | entry, registry⟩
    · rfl
    · rfl
  · simp only [serve, prepare, hc]
    rfl
  · simp only [serve, prepare, hc, getGlobalModel]
    rcases requireIdentityAndRegistration c.identity s.registry req.nodeID req.registrationID
      (c.env.clock.read 0) with e | i
    · rfl
    · rfl
  · simp only [serve, prepare, hc]
    rfl
  · simp only [serve, prepare, hc, submitLocalUpdate]
    rcases s.prepareUpdate c.identity req c.env with e | prepared
    · rfl
    · rfl
  · simp only [serve, prepare, hc]
    rfl
  · simp only [serve, prepare, hc, rotateRegistration]
    rcases s.prepareRotation c.identity req c.env with e | prepared
    · rfl
    · rfl
  · simp only [serve, prepare, hc]
    rfl
  · simp only [serve, prepare, hc, revokeRegistration]
    rcases s.prepareRevocation c.identity req c.env with e | prepared
    · rfl
    · rfl

end Service

/-- What is left of a running call. -/
inductive Task where
  | first (c : Call)
  | second (prepared : Prepared) (env : Env)

/-- Concurrent calls of a service. -/
def serviceSections : Sections Service Task Call (Except Failure Response) where
  start := .first
  next _ s
    | .first c =>
      match s.prepare c with
      | .error e => some (.inl (.error e), s)
      | .ok prepared => some (.inr (.second prepared c.env), s)
    | .second prepared env => some ((s.complete env prepared).map .inl id)

end ZeroTrustFL
