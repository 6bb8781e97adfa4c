import ZeroTrustFL.Lib.Time
import ZeroTrustFL.Lib.OrdMap
import ZeroTrustFL.Lib.Text

/-!
# Messages of the coordinator

The requests and responses of the coordinator service with the fields that the coordinator reads or
sets, the status codes it answers with, and what a call takes from its environment.
-/

namespace ZeroTrustFL

/-- The gRPC status codes in use. -/
inductive Code where
  | invalidArgument
  | notFound
  | alreadyExists
  | permissionDenied
  | resourceExhausted
  | failedPrecondition
  | internal
  | unavailable
deriving DecidableEq

/-- How a call fails: with a status, or by a panic that ends the process. -/
inductive Failure where
  | status (code : Code) (message : String)
  | crash (message : String)
deriving DecidableEq

/-- What a call takes from its environment: clock readings, random bytes, which can fail to be read,
and the orders in which it meets the entries of maps. -/
structure Env where
  clock : Clock
  random : Option (Vector UInt8 24)
  order : IterOrder

structure SecurityMetadata where
  issuedAtUnix : Int64
  nonce : Bytes
deriving DecidableEq

structure TensorManifestEntry where
  name : String
  dtype : String
  dimensions : List UInt64
  elementCount : UInt64
deriving DecidableEq

structure GlobalModel where
  modelVersion : String
  roundID : UInt64
  weightsPayload : Bytes
  weightsFormat : String
  sha256 : Bytes
  createdAtUnix : ℤ
  protocolVersion : UInt32
  modelID : String
  schemaSha256 : Bytes
  tensorManifest : List TensorManifestEntry
deriving DecidableEq

structure RegisterNodeRequest where
  nodeID : String
  certificateCommonName : String
  hasHardware : Bool
deriving DecidableEq

structure RegisterNodeResponse where
  accepted : Bool
  registrationID : String
  assignedRole : String
  leaseExpiresUnix : ℤ
  credentialGeneration : UInt64
deriving DecidableEq

structure HeartbeatRequest where
  nodeID : String
  registrationID : String
deriving DecidableEq

structure HeartbeatResponse where
  accepted : Bool
  serverTimeUnix : ℤ
  currentModelVersion : String
  leaseExpiresUnix : ℤ
  credentialGeneration : UInt64
deriving DecidableEq

structure GetGlobalModelRequest where
  nodeID : String
  registrationID : String
deriving DecidableEq

structure LocalUpdateMetrics where
  dynamicEpochs : UInt32
  loss : Float
  gradientNorms : List Float
  sampleCount : UInt64
deriving DecidableEq

structure SubmitLocalUpdateRequest where
  nodeID : String
  registrationID : String
  roundID : UInt64
  baseModelVersion : String
  weightsPayload : Bytes
  weightsFormat : String
  updateSha256 : Bytes
  metrics : Option LocalUpdateMetrics
  security : Option SecurityMetadata
  protocolVersion : UInt32
  modelID : String
  schemaSha256 : Bytes
  tensorManifest : List (Option TensorManifestEntry)
deriving DecidableEq

structure SubmitLocalUpdateResponse where
  accepted : Bool
  updateID : String
  reason : String
  currentModelVersion : String
deriving DecidableEq

structure RotateRegistrationRequest where
  nodeID : String
  registrationID : String
  security : Option SecurityMetadata
deriving DecidableEq

structure RotateRegistrationResponse where
  accepted : Bool
  registrationID : String
  leaseExpiresUnix : ℤ
  credentialGeneration : UInt64
deriving DecidableEq

structure RevokeRegistrationRequest where
  nodeID : String
  registrationID : String
  targetNodeID : String
  reason : String
  security : Option SecurityMetadata
deriving DecidableEq

structure RevokeRegistrationResponse where
  accepted : Bool
  targetNodeID : String
  revokedGeneration : UInt64
  revokedAtUnix : ℤ
  blockedUntilUnix : ℤ
deriving DecidableEq

end ZeroTrustFL
