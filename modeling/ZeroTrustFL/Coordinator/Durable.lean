import Mathlib
import ZeroTrustFL.Coordinator.Audit

/-!
# The durable coordinator

`durable_service.go`, `durable_audit.go` and `durable_credential_lifecycle.go` of `pkg/coordinator`:
the service together with a store.  Every mutating call changes the service in memory first, then
commits a snapshot, and rolls memory and store back when the commit reports a failure.  Whether a
commit takes effect and what it reports is part of the environment of a call.
-/

namespace ZeroTrustFL

/-! ## The store -/

/-- What becomes of a commit whose snapshot and events pass the checks of the store. -/
inductive CommitOutcome where
  | success
  | failure (applied : Bool) (message : String)
deriving DecidableEq

/-- A state store; one with audit also keeps a chain of events. -/
structure Store where
  audited : Bool
  state : Option (ℕ × StateSnapshot)
  chain : List AuditEvent
deriving DecidableEq

namespace Store

/-- The snapshot that the store holds. -/
def persisted (st : Store) : Option StateSnapshot := st.state.map Prod.snd

def load (st : Store) : Except Fault (Option StateSnapshot) :=
  match st.state with
  | none => .ok none
  | some (schemaVersion, snapshot) =>
    match validateStateSnapshotForSchema snapshot schemaVersion with
    | .error (.error e) => .error (.error ("validate coordinator state: " ++ e))
    | .error (.crash e) => .error (.crash e)
    | .ok () => .ok (some snapshot)

/-- The loop over the events of a commit, from the index of the first one. -/
def validateAuditEvents (index : ℕ) : List AuditEvent → Except String Unit
  | [] => .ok ()
  | event :: events =>
    match validateAuditEvent event with
    | .error e => .error (s!"validate audit event {index} before commit: " ++ e)
    | .ok () => validateAuditEvents (index + 1) events

/-- The checks before a commit. -/
def checkCommit (st : Store) (snapshot : StateSnapshot) (events : List AuditEvent) :
    Except Fault Unit :=
  match validateStateSnapshot snapshot with
  | .error (.crash e) => .error (.crash e)
  | .error (.error e) => .error (.error (if st.audited then
      "validate PostgreSQL coordinator state before audited commit: " ++ e
      else "validate coordinator state before commit: " ++ e))
  | .ok () =>
    if st.audited then
      match validateAuditEvents 0 events with
      | .error e => .error (.error e)
      | .ok () => .ok ()
    else .ok ()

/-- The store after a commit has taken effect: the state and its events together. -/
def apply (st : Store) (snapshot : StateSnapshot) (events : List AuditEvent) : Store :=
  { st with
    state := some (coordinatorStateSchemaVersion, snapshot)
    chain := if st.audited then st.chain ++ events else st.chain }

/-- `CommitWithAudit`, and `Commit` of a store without audit. -/
def commit (st : Store) (snapshot : StateSnapshot) (events : List AuditEvent)
    (outcome : CommitOutcome) : Except Fault Unit × Store :=
  match st.checkCommit snapshot events with
  | .error e => (.error e, st)
  | .ok () =>
    match outcome with
    | .success => (.ok (), st.apply snapshot events)
    | .failure applied message =>
      (.error (.error message), if applied then st.apply snapshot events else st)

end Store

/-! ## Snapshots of the service -/

structure DurableService where
  service : Service
  experiment : ExperimentMetadata
  modelID : String
deriving DecidableEq

namespace DurableService

def basePolicy (settings : Settings) (modelID : String) (experiment : ExperimentMetadata) :
    StatePolicy where
  leaseTTL := settings.leaseTTL
  maxUpdateBytes := settings.maxUpdateBytes
  minUpdates := settings.minUpdates
  maxUpdatesPerMinute := settings.maxUpdatesPerMinute
  aggregationMethod := settings.aggregationMethod
  modelID := modelID
  experiment := experiment

def currentPolicy (d : DurableService) : StatePolicy :=
  basePolicy d.service.settings d.modelID d.experiment

/-- The nonce is older than the replay window. -/
def nonceExpired (now seenAt : ℤ) : Bool := seenAt < now - requestReplayWindow

def captureSnapshot (d : DurableService) (clock : Clock) : StateSnapshot where
  policy := d.currentPolicy
  model := d.service.model
  pending := d.service.pending.values.insertionSort fun a b => a.nodeID ≤ b.nodeID
  registrations := d.service.registry.snapshot (clock.read 1)
  nonces := (d.service.nonces.filter fun _ seenAt =>
    !nonceExpired (clock.read 0) seenAt).entries.map fun entry => ⟨entry.1, entry.2⟩
  rateWindows := (d.service.rates.filter fun _ window =>
    !(isZeroTime window.startedAt || decide (minute ≤ clock.read 0 - window.startedAt))).entries.map
    fun entry => ⟨entry.1, entry.2.startedAt, entry.2.count⟩

/-- The pending updates of a snapshot by node. -/
def restorePending (updates : List PendingUpdate) : OrdMap String PendingUpdate :=
  updates.foldl (fun pending update => pending.insert update.nodeID update) ∅

def restoreNonces (now : ℤ) (nonces : List PersistedNonce) : OrdMap String ℤ :=
  nonces.foldl (fun m nonce =>
    if nonceExpired now nonce.seenAt then m else m.insert nonce.key nonce.seenAt) ∅

def restoreRates (now : ℤ) (windows : List PersistedRateWindow) : OrdMap String UpdateRateWindow :=
  windows.foldl (fun m window =>
    if minute ≤ now - window.startedAt then m
    else m.insert window.nodeID ⟨window.startedAt, window.count⟩) ∅

def restoreSnapshot (d : DurableService) (snapshot : StateSnapshot) (clock : Clock) :
    Except Fault Unit × DurableService :=
  let snapshot := withModelID (withExperiment snapshot d.experiment) d.modelID
  match validateStateSnapshot snapshot with
  | .error e => (.error e, d)
  | .ok () =>
    if snapshot.policy.modelID ≠ d.modelID then
      (.error (.error "durable model identity does not match current runtime configuration"), d)
    else if !sameExperimentIdentity snapshot.policy.experiment d.experiment then
      (.error (.error "durable experiment identity does not match current runtime configuration"),
        d)
    else if snapshot.policy ≠ { d.currentPolicy with
        experiment := { d.experiment with createdAt := snapshot.policy.experiment.createdAt } } then
      (.error (.error "durable coordinator policy does not match current runtime configuration"), d)
    else
      let d := { d with experiment := snapshot.policy.experiment }
      match d.service.registry.restoreSnapshot snapshot.registrations (clock.read 1) with
      | (.error e, _) => (.error (.error ("restore registration snapshot: " ++ e)), d)
      | (.ok (), registry) =>
        (.ok (), { d with service :=
          { d.service with
            registry := registry
            model := snapshot.model
            pending := restorePending snapshot.pending
            nonces := restoreNonces (clock.read 0) snapshot.nonces
            rates := restoreRates (clock.read 0) snapshot.rateWindows } })

end DurableService

/-- A durable service together with its store. -/
structure DurableState where
  durable : DurableService
  store : Store
deriving DecidableEq

/-! ## Construction -/

/-- The commit of the state that a starting coordinator has initialized or recovered. -/
def commitCurrentStateWithAudit (d : DurableService) (st : Store) (type : AuditEventType)
    (clock : Clock) (outcome : CommitOutcome) (context : String) : Except Fault DurableState :=
  let event := stateAuditEvent type (d.captureSnapshot clock) (clock.read 2)
  match st.commit (d.captureSnapshot (clock.drop 3)) [event] outcome with
  | (.error (.error e), _) => .error (.error (context ++ e))
  | (.error (.crash e), _) => .error (.crash e)
  | (.ok (), st) => .ok ⟨d, st⟩

def recoverOrInitialize (d : DurableService) (st : Store) (clock : Clock)
    (outcome : CommitOutcome) : Except Fault DurableState :=
  match st.load with
  | .error (.error e) => .error (.error ("load durable coordinator state: " ++ e))
  | .error (.crash e) => .error (.crash e)
  | .ok none =>
    commitCurrentStateWithAudit d st .stateInitialized clock outcome
      "initialize durable coordinator state: "
  | .ok (some snapshot) =>
    match d.restoreSnapshot snapshot clock with
    | (.error (.error e), _) => .error (.error ("restore durable coordinator state: " ++ e))
    | (.error (.crash e), _) => .error (.crash e)
    | (.ok (), d) =>
      commitCurrentStateWithAudit d st .stateRecovered (clock.drop 2) outcome
        "normalize recovered coordinator state: "

def newDurableServiceWithIdentity (registry : RegistrationStore) (cfg : Config) (st : Store)
    (experimentConfig : ExperimentConfig) (modelID : String) (clock : Clock)
    (outcome : CommitOutcome) : Except Fault DurableState :=
  match normalizeModelID modelID with
  | .error e => .error (.error ("configure durable model identity: " ++ e))
  | .ok modelID =>
    match newService registry cfg clock with
    | .error e => .error e
    | .ok service =>
      match newExperimentMetadata experimentConfig
        (DurableService.basePolicy service.settings modelID ⟨"", "", 0⟩) (clock.read 1) with
      | .error e => .error (.error ("configure experiment identity: " ++ e))
      | .ok experiment => recoverOrInitialize ⟨service, experiment, modelID⟩ st
          (clock.drop 2) outcome

/-! ## Calls -/

/-- The outcomes of the commits of one call. -/
structure CommitOutcomes where
  forward : CommitOutcome
  rollback : CommitOutcome
deriving DecidableEq

/-- The text of an error. -/
def Fault.message : Fault → String
  | .error e => e
  | .crash e => e

namespace DurableState

def commitOrRollbackTransition (d : DurableState) (before after : StateSnapshot)
    (operation : String) (events : List AuditEvent) (clock : Clock) (outcomes : CommitOutcomes) :
    Except Failure Unit × DurableState :=
  match d.store.commit after events outcomes.forward with
  | (.ok (), st) => (.ok (), { d with store := st })
  | (.error (.crash e), st) => (.error (.crash e), { d with store := st })
  | (.error (.error _), st) =>
    match d.durable.restoreSnapshot before clock with
    | (.error e, durable) =>
      (.error (.status .internal ("durable " ++ operation ++
        " commit failed and in-memory rollback failed: " ++ e.message)), ⟨durable, st⟩)
    | (.ok (), durable) =>
      match st.commit before [] outcomes.rollback with
      | (.error e, st) =>
        (.error (.status .internal ("durable " ++ operation ++
          " commit failed and persistent rollback failed: " ++ e.message)), ⟨durable, st⟩)
      | (.ok (), st) =>
        (.error (.status .internal ("durable " ++ operation ++
          " commit failed; previous state restored")), ⟨durable, st⟩)

/-- A mutating call: the service runs between two snapshots, and the transition is committed when it
succeeds. -/
def mutate {α : Type} (d : DurableState) (env : Env) (outcomes : CommitOutcomes)
    (operation : String) (run : Service → Env → Except Failure α × Service)
    (events : α → StateSnapshot → StateSnapshot → Clock → List AuditEvent) :
    Except Failure α × DurableState :=
  let before := d.durable.captureSnapshot env.clock
  match run d.durable.service { env with clock := env.clock.drop 2 } with
  | (.error e, service) => (.error e, { d with durable := { d.durable with service := service } })
  | (.ok response, service) =>
    let d := { d with durable := { d.durable with service := service } }
    let after := d.durable.captureSnapshot (env.clock.drop 6)
    match d.commitOrRollbackTransition before after operation
      (events response before after (env.clock.drop 8)) (env.clock.drop 10) outcomes with
    | (.error e, d) => (.error e, d)
    | (.ok (), d) => (.ok response, d)

def registerNode (d : DurableState) (identity : Option PeerIdentity)
    (req : Option RegisterNodeRequest) (env : Env) (outcomes : CommitOutcomes) :
    Except Failure RegisterNodeResponse × DurableState :=
  d.mutate env outcomes "registration" (fun s env => s.registerNode identity req env)
    fun response _ after clock =>
      req.toList.map fun req => registrationAuditEvent req response after (clock.read 0)

def heartbeat (d : DurableState) (identity : Option PeerIdentity) (req : Option HeartbeatRequest)
    (env : Env) (outcomes : CommitOutcomes) : Except Failure HeartbeatResponse × DurableState :=
  d.mutate env outcomes "lease" (fun s env => s.heartbeat identity req env)
    fun response _ after clock =>
      req.toList.map fun req => heartbeatAuditEvent req response after (clock.read 0)

def submitLocalUpdate (d : DurableState) (identity : Option PeerIdentity)
    (req : Option SubmitLocalUpdateRequest) (env : Env) (outcomes : CommitOutcomes) :
    Except Failure SubmitLocalUpdateResponse × DurableState :=
  d.mutate env outcomes "model-state" (fun s env => s.submitLocalUpdate identity req env)
    fun response before after clock => req.toList.flatMap fun req =>
      updateAuditEvents d.durable.service.settings req response before after clock

def rotateRegistration (d : DurableState) (identity : Option PeerIdentity)
    (req : Option RotateRegistrationRequest) (env : Env) (outcomes : CommitOutcomes) :
    Except Failure RotateRegistrationResponse × DurableState :=
  d.mutate env outcomes "registration-credential-rotation"
    (fun s env => s.rotateRegistration identity req env)
    fun response _ after clock =>
      req.toList.map fun req => rotationAuditEvent req response after (clock.read 0)

def revokeRegistration (d : DurableState) (identity : Option PeerIdentity)
    (req : Option RevokeRegistrationRequest) (env : Env) (outcomes : CommitOutcomes) :
    Except Failure RevokeRegistrationResponse × DurableState :=
  d.mutate env outcomes "registration-revocation"
    (fun s env => s.revokeRegistration identity req env)
    fun response _ after clock =>
      req.toList.map fun req => revocationAuditEvent req response after (clock.read 0)

def getGlobalModel (d : DurableState) (identity : Option PeerIdentity)
    (req : Option GetGlobalModelRequest) (env : Env) : Except Failure GlobalModel :=
  d.durable.service.getGlobalModel identity req env

end DurableState

/-- A call of a durable coordinator with the outcomes of its commits. -/
structure DurableCall where
  call : Call
  outcomes : CommitOutcomes

/-- Serves one call. -/
def DurableState.serve (d : DurableState) (c : DurableCall) :
    Except Failure Response × DurableState :=
  match c.call.request with
  | .registerNode req =>
    (d.registerNode c.call.identity req c.call.env c.outcomes).map (Except.map .registerNode) id
  | .heartbeat req =>
    (d.heartbeat c.call.identity req c.call.env c.outcomes).map (Except.map .heartbeat) id
  | .getGlobalModel req =>
    ((d.getGlobalModel c.call.identity req c.call.env).map .getGlobalModel, d)
  | .submitLocalUpdate req =>
    (d.submitLocalUpdate c.call.identity req c.call.env c.outcomes).map
      (Except.map .submitLocalUpdate) id
  | .rotateRegistration req =>
    (d.rotateRegistration c.call.identity req c.call.env c.outcomes).map
      (Except.map .rotateRegistration) id
  | .revokeRegistration req =>
    (d.revokeRegistration c.call.identity req c.call.env c.outcomes).map
      (Except.map .revokeRegistration) id

end ZeroTrustFL
