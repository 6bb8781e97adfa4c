import Mathlib
import ZeroTrustFL.Coordinator.Schema
import ZeroTrustFL.Coordinator.Sections

/-!
# The model envelope

`pkg/coordinator/envelope_service.go`: the service around a coordinator that requires every update
to name the protocol, the model and the schema of its vector.  A submission reads the model and,
when that has no payload, the pending updates, before it reaches the wrapped coordinator.
`updateMu` is held over all of this; the wrapped coordinator has locks of its own, so its calls are
given in sections.
-/

namespace ZeroTrustFL

def modelProtocolVersion : UInt32 := 1

/-! ## Envelopes -/

def manifestEqual (expected : List TensorManifestEntry)
    (actual : List (Option TensorManifestEntry)) : Bool :=
  expected.length = actual.length && (expected.zip actual).all fun entry =>
    match entry.2 with
    | none => false
    | some right =>
      entry.1.name = right.name && entry.1.dtype = right.dtype && entry.1.elementCount =
        right.elementCount &&
        entry.1.dimensions.length = right.dimensions.length &&
        (entry.1.dimensions.zip right.dimensions).all fun dimension => dimension.1 = dimension.2

/-- The model with its protocol version, its id and its schema. -/
def decorateGlobalModel (modelID : String) (model : GlobalModel) : Except Fault GlobalModel :=
  let decorated := { model with protocolVersion := modelProtocolVersion, modelID := modelID }
  let payload := decorated.weightsPayload
  if payload.length = 0 then .ok { decorated with schemaSha256 := [], tensorManifest := [] }
  else if decorated.weightsFormat ≠ networkWeightsFormat then
    .error (.error ("weights_format must be " ++ quote networkWeightsFormat))
  else if decorated.sha256.length ≠ 32 ∨ sha256 payload ≠ decorated.sha256 then
    .error (.error "global model payload SHA-256 digest is invalid")
  else
    match manifestForPayload payload with
    | .error e => .error e
    | .ok manifest =>
      .ok { decorated with
        tensorManifest := manifest
        schemaSha256 := modelSchemaDigest manifest }

def validateUpdateEnvelope (modelID : String) (req : SubmitLocalUpdateRequest) :
    Except Failure Unit :=
  if req.protocolVersion ≠ modelProtocolVersion then
    .error (.status .invalidArgument s!"protocol_version must be {modelProtocolVersion.toNat}")
  else if req.modelID ≠ modelID then
    .error (.status .failedPrecondition ("model_id " ++ quote req.modelID ++
      " does not match coordinator model " ++ quote modelID))
  else if req.schemaSha256.length ≠ 32 then
    .error (.status .invalidArgument "schema_sha256 must contain a 32-byte SHA-256 digest")
  else
    match manifestForPayload req.weightsPayload with
    | .error (.error e) => .error (.status .invalidArgument ("invalid update tensor schema: " ++ e))
    | .error (.crash e) => .error (.crash e)
    | .ok manifest =>
      if !manifestEqual manifest req.tensorManifest then
        .error
          (.status .invalidArgument "tensor_manifest does not match the submitted weights payload")
      else if modelSchemaDigest manifest ≠ req.schemaSha256 then
        .error (.status .invalidArgument "schema_sha256 does not match tensor_manifest")
      else .ok ()

/-- The loop of `pendingSchemaDigest`: the length of the vectors so far, zero before the first
one. -/
def pendingElementCount (elementCount : ℕ) : List PendingUpdate → Except String ℕ
  | [] => .ok elementCount
  | update :: updates =>
    if update.values.length = 0 then .error "pending update vector must not be empty"
    else if elementCount = 0 then pendingElementCount update.values.length updates
    else if update.values.length ≠ elementCount then
      .error "pending update vector lengths do not match"
    else pendingElementCount elementCount updates

/-- The digest of the schema of the pending updates, if there are any. -/
def pendingSchemaDigest (order : IterOrder) (pending : OrdMap String PendingUpdate) :
    Except String (Option Bytes) :=
  match pendingElementCount 0 (order.arrange pending.values) with
  | .error e => .error e
  | .ok elementCount =>
    if elementCount = 0 then .ok none
    else .ok (some (modelSchemaDigest (manifestForElementCount (UInt64.ofNat elementCount))))

/-- How an error about a model is reported. -/
def invalidModel (context : String) : Fault → Failure
  | .error e => .status .internal (context ++ e)
  | .crash e => .crash e

/-- What a submission finds in the model it has read: a mismatch, or whether the model has a
schema. -/
def checkModelSchema (modelID : String) (req : SubmitLocalUpdateRequest) (model : GlobalModel) :
    Except Failure Bool :=
  match decorateGlobalModel modelID model with
  | .error e => .error (invalidModel "invalid current model envelope: " e)
  | .ok current =>
    if 0 < current.schemaSha256.length then
      if current.schemaSha256 ≠ req.schemaSha256 then
        .error
          (.status .failedPrecondition "update schema does not match current global model schema")
      else .ok true
    else .ok false

/-- What a submission finds in the pending updates. -/
def checkPendingSchema (order : IterOrder) (req : SubmitLocalUpdateRequest)
    (pending : OrdMap String PendingUpdate) : Except Failure Unit :=
  match pendingSchemaDigest order pending with
  | .error e => .error (.status .internal ("invalid recovered pending update schema: " ++ e))
  | .ok none => .ok ()
  | .ok (some pendingSchema) =>
    if pendingSchema ≠ req.schemaSha256 then
      .error (.status .failedPrecondition "update schema does not match the bootstrap round schema")
    else .ok ()

/-- The call by which a submission reads the model. -/
def readingCall (c : Call) (req : SubmitLocalUpdateRequest) : Call :=
  { c with request := .getGlobalModel (some ⟨req.nodeID, req.registrationID⟩) }

/-- The call that reaches the wrapped coordinator, after the clock has been read for the model. -/
def submittingCall (c : Call) : Call := { c with env := { c.env with clock := c.env.clock.drop 1 } }

/-! ## Concurrent calls -/

universe u v w

/-- A coordinator that is wrapped: its calls in sections, the service that `unwrapCoreService`
finds, and the call in an input. -/
structure Wrapped (σ : Type u) (τ : Type v) (ι : Type w) where
  sections : Sections σ τ ι (Except Failure Response)
  core : σ → Service
  call : ι → Call
  withCall : ι → Call → ι

/-- The wrapped coordinator and the thread that holds `updateMu`. -/
structure EnvelopeState (σ : Type u) where
  inner : σ
  updateMu : Option ℕ

/-- What is left of a call. -/
inductive EnvelopeTask (τ : Type v) (ι : Type w) where
  | entered (i : ι)
  /-- The call is in the wrapped coordinator. -/
  | passed (task : τ)
  /-- `GetGlobalModel` is. -/
  | decorating (task : τ)
  /-- A submission waits for `updateMu`. -/
  | waiting (i : ι) (req : SubmitLocalUpdateRequest)
  /-- It holds it and reads the model, -/
  | reading (i : ι) (req : SubmitLocalUpdateRequest) (task : τ)
  /-- then the pending updates, -/
  | checking (i : ι) (req : SubmitLocalUpdateRequest)
  /-- and is then in the wrapped coordinator. -/
  | submitting (task : τ)

namespace EnvelopeService

variable {σ : Type u} {τ : Type v} {ι : Type w}

/-- The answer to `GetGlobalModel` with the model decorated. -/
def decorateResponse (modelID : String) : Except Failure Response → Except Failure Response
  | .ok (.getGlobalModel model) =>
    match decorateGlobalModel modelID model with
    | .error e => .error (invalidModel "invalid coordinator model envelope source: " e)
    | .ok decorated => .ok (.getGlobalModel decorated)
  | response => response

/-- What a submission does with the answer to its reading of the model: it fails, goes on to the
pending updates, or submits. -/
def afterReading (modelID : String) (req : SubmitLocalUpdateRequest) :
    Except Failure Response → Except (Except Failure Response) Bool
  | .ok (.getGlobalModel model) =>
    match checkModelSchema modelID req model with
    | .error e => .error (.error e)
    | .ok schemaKnown => .ok schemaKnown
  | response => .error response

variable (wrapped : Wrapped σ τ ι) (modelID : String)

/-- The submission goes on to the wrapped coordinator. -/
def submit (i : ι) : EnvelopeTask τ ι :=
  .submitting (wrapped.sections.start (wrapped.withCall i (submittingCall (wrapped.call i))))

/-- The sections of the calls. -/
def sections : Sections (EnvelopeState σ) (EnvelopeTask τ ι) ι (Except Failure Response) where
  start := .entered
  next k s
    | .entered i =>
      match (wrapped.call i).request with
      | .submitLocalUpdate none =>
        some (.inl (.error (.status .invalidArgument "local update request is required")), s)
      | .submitLocalUpdate (some req) =>
        match validateUpdateEnvelope modelID req with
        | .error e => some (.inl (.error e), s)
        | .ok () => some (.inr (.waiting i req), s)
      | .getGlobalModel _ => some (.inr (.decorating (wrapped.sections.start i)), s)
      | _ => some (.inr (.passed (wrapped.sections.start i)), s)
    | .passed task =>
      match wrapped.sections.next k s.inner task with
      | none => none
      | some (.inl answer, inner) => some (.inl answer, { s with inner })
      | some (.inr task, inner) => some (.inr (.passed task), { s with inner })
    | .decorating task =>
      match wrapped.sections.next k s.inner task with
      | none => none
      | some (.inl answer, inner) => some (.inl (decorateResponse modelID answer), { s with inner })
      | some (.inr task, inner) => some (.inr (.decorating task), { s with inner })
    | .waiting i req =>
      match s.updateMu with
      | some _ => none
      | none =>
        let task := wrapped.sections.start (wrapped.withCall i (readingCall (wrapped.call i) req))
        some (.inr (.reading i req task), { s with updateMu := some k })
    | .reading i req task =>
      match wrapped.sections.next k s.inner task with
      | none => none
      | some (.inr task, inner) => some (.inr (.reading i req task), { s with inner })
      | some (.inl answer, inner) =>
        match afterReading modelID req answer with
        | .error answer => some (.inl answer, ⟨inner, none⟩)
        | .ok true => some (.inr (submit wrapped i), { s with inner })
        | .ok false => some (.inr (.checking i req), { s with inner })
    | .checking i req =>
      match checkPendingSchema (wrapped.call i).env.order req (wrapped.core s.inner).pending with
      | .error e => some (.inl (.error e), { s with updateMu := none })
      | .ok () => some (.inr (submit wrapped i), s)
    | .submitting task =>
      match wrapped.sections.next k s.inner task with
      | none => none
      | some (.inr task, inner) => some (.inr (.submitting task), { s with inner })
      | some (.inl answer, inner) => some (.inl answer, ⟨inner, none⟩)

end EnvelopeService

/-- A service without a store. -/
def wrappedService : Wrapped Service Task Call := ⟨serviceSections, id, id, fun _ c => c⟩

end ZeroTrustFL
