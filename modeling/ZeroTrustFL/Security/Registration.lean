import Mathlib.Data.String.Basic
import ZeroTrustFL.Lib.OrdMap
import ZeroTrustFL.Lib.Text
import ZeroTrustFL.Lib.Time

/-!
# The registration store

`pkg/security/middleware.go`: registrations of nodes with their lease, credential generation and
revocation tombstone.  Every operation takes the clock reading at which it runs and returns its
answer together with the store it leaves.
-/

namespace ZeroTrustFL

/-- The authenticated identity of a peer. -/
structure PeerIdentity where
  nodeID : String
  commonName : String
  role : String
  certificateFingerprint : String
deriving DecidableEq

/-- A registration; a zero `revokedAt` means that it is not revoked. -/
structure Registration where
  nodeID : String
  role : String
  certificateFingerprint : String
  registrationID : String
  expiresAt : ℤ
  generation : UInt64
  revokedAt : ℤ
  revocationReason : String
deriving DecidableEq

/-- Registrations by node. -/
structure RegistrationStore where
  entries : OrdMap String Registration
deriving DecidableEq

def maxRegistrationRevocationReasonBytes : ℕ := 256

/-- The largest credential generation. -/
def maxGeneration : UInt64 := 0xffffffffffffffff

def newRegistrationStore : RegistrationStore := ⟨∅⟩

def normalizeLegacyRegistration (entry : Registration) : Registration :=
  if entry.generation = 0 then { entry with generation := 1 } else entry

def validateRegistrationEntry (entry : Registration) (identity : PeerIdentity)
    (registrationID : String) (now : ℤ) : Except String Unit :=
  if ¬ now < entry.expiresAt then .error "node registration has expired"
  else if !isZeroTime entry.revokedAt then .error "node registration is revoked"
  else if entry.registrationID ≠ registrationID then .error "registration ID does not match"
  else if entry.certificateFingerprint ≠ identity.certificateFingerprint then
    .error "registration certificate binding does not match"
  else if entry.role ≠ identity.role then .error "registration role binding does not match"
  else .ok ()

namespace RegistrationStore

/-- The generation a new registration of the node gets, or why it is refused. -/
def nextGeneration (s : RegistrationStore) (identity : PeerIdentity) (now : ℤ) :
    Except String UInt64 :=
  match s.entries.get? identity.nodeID with
  | none => .ok 1
  | some existing =>
    let existing := normalizeLegacyRegistration existing
    if now < existing.expiresAt ∧ !isZeroTime existing.revokedAt then
      .error "node registration is revoked until the current lease expires"
    else if now < existing.expiresAt ∧ (existing.role ≠ identity.role ∨
        existing.certificateFingerprint ≠ identity.certificateFingerprint) then
      .error "active registration is bound to a different certificate or role"
    else if existing.generation = maxGeneration then
      .error "registration credential generation is exhausted"
    else .ok (existing.generation + 1)

def register (s : RegistrationStore) (identity : PeerIdentity) (registrationID : String)
    (lease now : ℤ) : Except String Registration × RegistrationStore :=
  if trimSpace identity.nodeID = "" ∨ trimSpace identity.role = "" ∨
      trimSpace identity.certificateFingerprint = "" then
    (.error "registration identity binding is incomplete", s)
  else if registrationID = "" then (.error "registration ID is required", s)
  else if lease ≤ 0 then (.error "registration lease must be positive", s)
  else
    match s.nextGeneration identity now with
    | .error e => (.error e, s)
    | .ok generation =>
      let entry : Registration :=
        { nodeID := identity.nodeID
          role := identity.role
          certificateFingerprint := identity.certificateFingerprint
          registrationID := registrationID
          expiresAt := now + lease
          generation := generation
          revokedAt := 0
          revocationReason := "" }
      (.ok entry, ⟨s.entries.insert identity.nodeID entry⟩)

def validate (s : RegistrationStore) (identity : PeerIdentity) (registrationID : String) (now : ℤ) :
    Except String Registration :=
  match s.entries.get? identity.nodeID with
  | none => .error "node is not registered"
  | some entry =>
    let entry := normalizeLegacyRegistration entry
    match validateRegistrationEntry entry identity registrationID now with
    | .error e => .error e
    | .ok () => .ok entry

def isRegistered (s : RegistrationStore) (identity : PeerIdentity) (now : ℤ) : Bool :=
  match s.entries.get? identity.nodeID with
  | none => false
  | some entry =>
    let entry := normalizeLegacyRegistration entry
    now < entry.expiresAt && isZeroTime entry.revokedAt &&
      entry.certificateFingerprint == identity.certificateFingerprint &&
      entry.role == identity.role

def refresh (s : RegistrationStore) (identity : PeerIdentity) (registrationID : String)
    (lease now : ℤ) : Except String Registration × RegistrationStore :=
  if lease ≤ 0 then (.error "registration lease must be positive", s)
  else
    match s.validate identity registrationID now with
    | .error e => (.error e, s)
    | .ok entry =>
      let entry := { entry with expiresAt := now + lease }
      (.ok entry, ⟨s.entries.insert identity.nodeID entry⟩)

def rotate (s : RegistrationStore) (identity : PeerIdentity)
    (currentRegistrationID nextRegistrationID : String) (lease now : ℤ) :
    Except String Registration × RegistrationStore :=
  if trimSpace nextRegistrationID = "" then (.error "next registration ID is required", s)
  else if currentRegistrationID = nextRegistrationID then
    (.error "next registration ID must differ from the current credential", s)
  else if lease ≤ 0 then (.error "registration lease must be positive", s)
  else
    match s.validate identity currentRegistrationID now with
    | .error e => (.error e, s)
    | .ok entry =>
      if entry.generation = maxGeneration then
        (.error "registration credential generation is exhausted", s)
      else
        let entry :=
          { entry with
            registrationID := nextRegistrationID
            generation := entry.generation + 1
            expiresAt := now + lease
            revokedAt := 0
            revocationReason := "" }
        (.ok entry, ⟨s.entries.insert identity.nodeID entry⟩)

def revoke (s : RegistrationStore) (nodeID reason : String) (now : ℤ) :
    Except String Registration × RegistrationStore :=
  let nodeID := trimSpace nodeID
  let reason := trimSpace reason
  if nodeID = "" then (.error "target node ID is required", s)
  else if reason = "" then (.error "registration revocation reason is required", s)
  else if maxRegistrationRevocationReasonBytes < reason.utf8ByteSize then
    (.error s!"registration revocation reason exceeds {maxRegistrationRevocationReasonBytes} bytes",
      s)
  else
    match s.entries.get? nodeID with
    | none => (.error "target node is not registered", s)
    | some entry =>
      let entry := normalizeLegacyRegistration entry
      if ¬ now < entry.expiresAt then
        (.error "target node registration has expired", ⟨s.entries.erase nodeID⟩)
      else if !isZeroTime entry.revokedAt then (.ok entry, s)
      else
        let entry := { entry with revokedAt := now, revocationReason := reason }
        (.ok entry, ⟨s.entries.insert nodeID entry⟩)

/-- The registrations that have not expired, ordered by node. -/
def snapshot (s : RegistrationStore) (now : ℤ) : List Registration :=
  ((s.entries.values.map normalizeLegacyRegistration).filter fun entry =>
    now < entry.expiresAt).insertionSort fun a b => a.nodeID ≤ b.nodeID

/-- The checks on one entry of a snapshot that is being restored. -/
def checkSnapshotEntry (entry : Registration) : Except String Unit :=
  if trimSpace entry.nodeID = "" ∨ trimSpace entry.role = "" ∨
      trimSpace entry.certificateFingerprint = "" ∨ trimSpace entry.registrationID = "" then
    .error "registration snapshot contains an incomplete identity binding"
  else if isZeroTime entry.expiresAt then
    .error ("registration snapshot for " ++ quote entry.nodeID ++ " has no expiry")
  else if entry.generation = 0 then
    .error ("registration snapshot for " ++ quote entry.nodeID ++ " has no credential generation")
  else if maxRegistrationRevocationReasonBytes < entry.revocationReason.utf8ByteSize then
    .error ("registration snapshot for " ++ quote entry.nodeID ++
      " has an oversized revocation reason")
  else if isZeroTime entry.revokedAt ∧ entry.revocationReason ≠ "" then
    .error ("registration snapshot for " ++ quote entry.nodeID ++
      " has a revocation reason without a revocation timestamp")
  else if !isZeroTime entry.revokedAt ∧ trimSpace entry.revocationReason = "" then
    .error ("registration snapshot for " ++ quote entry.nodeID ++ " is revoked without a reason")
  else if !isZeroTime entry.revokedAt ∧ entry.expiresAt < entry.revokedAt then
    .error ("registration snapshot for " ++ quote entry.nodeID ++ " was revoked after lease expiry")
  else .ok ()

/-- One iteration of the loop of `restoreSnapshot`. -/
def restoreEntry (now : ℤ) (restored : OrdMap String Registration) (rawEntry : Registration) :
    Except String (OrdMap String Registration) :=
  let entry := normalizeLegacyRegistration rawEntry
  match checkSnapshotEntry entry with
  | .error e => .error e
  | .ok () =>
    if (restored.get? entry.nodeID).isSome then
      .error ("registration snapshot contains duplicate node " ++ quote entry.nodeID)
    else if ¬ now < entry.expiresAt then .ok restored
    else .ok (restored.insert entry.nodeID entry)

def restoreSnapshot (s : RegistrationStore) (entries : List Registration) (now : ℤ) :
    Except String Unit × RegistrationStore :=
  match entries.foldlM (restoreEntry now) ∅ with
  | .error e => (.error e, s)
  | .ok restored => (.ok (), ⟨restored⟩)

end RegistrationStore

end ZeroTrustFL
