import Mathlib
import ZeroTrustFL.Coordinator.Audit

/-!
# Checked audit events

What the checks of `validateAuditEvent` amount to, and for which models the events about the state
of a coordinator pass them.
-/

namespace ZeroTrustFL

/-- An event about the state of the model passes the checks. -/
structure GlobalModel.Auditable (m : GlobalModel) : Prop where
  round : m.roundID ≤ maxAuditRoundID
  version : m.modelVersion ≠ ""
  version_size : m.modelVersion.utf8ByteSize ≤ 512
  digest : validateAuditDigest "model_sha256" (modelAuditDigestHex m.sha256) = .ok ()

/-- What the checks on an event amount to. -/
structure AuditEvent.Checked (event : AuditEvent) : Prop where
  schema : event.schemaVersion = auditSchemaVersion
  time : event.occurredAt ≠ 0
  precision : event.occurredAt = normalizeAuditTime event.occurredAt
  outcome : event.outcome = auditOutcomeSuccess
  sizes : event.nodeID.utf8ByteSize ≤ 256 ∧ event.targetNodeID.utf8ByteSize ≤ 256 ∧
    event.updateID.utf8ByteSize ≤ 256 ∧ event.baseModelVersion.utf8ByteSize ≤ 512 ∧
    event.modelVersion.utf8ByteSize ≤ 512 ∧ event.aggregationMethod.utf8ByteSize ≤ 64
  round : event.roundID ≤ maxAuditRoundID
  samples : event.sampleCount ≤ maxReportedSampleCount
  counts : 0 ≤ event.pendingUpdates ∧ event.pendingUpdates ≤ 1000000 ∧ 0 ≤ event.quorum ∧
    event.quorum ≤ 1000000
  registrationDigest : validateAuditDigest "registration_id_hash" event.registrationIDHash = .ok ()
  updateDigest : validateAuditDigest "update_sha256" event.updateSHA256 = .ok ()
  modelDigest : validateAuditDigest "model_sha256" event.modelSHA256 = .ok ()
  fields : validateAuditFields event = .ok ()

theorem validateAuditEvent_ok_iff (event : AuditEvent) :
    validateAuditEvent event = .ok () ↔ event.Checked := by
  constructor
  · intro h
    unfold validateAuditEvent at h
    split_ifs at h with h₁ h₂ h₃ h₄ h₅ h₆ h₇ h₈
    simp only [not_or, not_lt] at h₅ h₈
    rcases hd₁ : validateAuditDigest "registration_id_hash" event.registrationIDHash with
      e | ⟨⟨⟩⟩ <;> simp only [hd₁, reduceCtorEq] at h
    rcases hd₂ : validateAuditDigest "update_sha256" event.updateSHA256 with e | ⟨⟨⟩⟩ <;>
      simp only [hd₂, reduceCtorEq] at h
    rcases hd₃ : validateAuditDigest "model_sha256" event.modelSHA256 with e | ⟨⟨⟩⟩ <;>
      simp only [hd₃, reduceCtorEq] at h
    exact ⟨not_not.1 h₁, by simpa [isZeroTime] using h₂, not_not.1 h₃, not_not.1 h₄, h₅,
      UInt64.not_lt.1 h₆, UInt64.not_lt.1 h₇, h₈, hd₁, hd₂, hd₃, h⟩
  · intro h
    have hsizes := h.sizes
    have hcounts := h.counts
    rw [validateAuditEvent, if_neg (not_not.2 h.schema),
      if_neg (by simpa [isZeroTime] using h.time), if_neg (not_not.2 h.precision),
      if_neg (not_not.2 h.outcome), if_neg (by omega), if_neg (UInt64.not_lt.2 h.round),
      if_neg (UInt64.not_lt.2 h.samples), if_neg (by omega), h.registrationDigest, h.updateDigest,
      h.modelDigest, h.fields]

theorem validateAuditEvent_stateRecovered {snapshot : StateSnapshot} (h : snapshot.model.Auditable)
    {now : ℤ} (hnow : normalizeAuditTime now ≠ 0) :
    validateAuditEvent (stateAuditEvent .stateRecovered snapshot now) = .ok () :=
  (validateAuditEvent_ok_iff _).2
    { schema := rfl
      time := hnow
      precision := (truncateMicrosecond_idem now).symm
      outcome := rfl
      sizes := ⟨Nat.zero_le _, Nat.zero_le _, Nat.zero_le _, Nat.zero_le _, h.version_size,
        Nat.zero_le _⟩
      round := h.round
      samples := (by decide : (0 : UInt64) ≤ maxReportedSampleCount)
      counts := (by decide : (0 : ℤ) ≤ 0 ∧ (0 : ℤ) ≤ 1000000 ∧ (0 : ℤ) ≤ 0 ∧ (0 : ℤ) ≤ 1000000)
      registrationDigest := rfl
      updateDigest := rfl
      modelDigest := h.digest
      fields := if_neg h.version }

theorem auditable_of_state {type : AuditEventType} {snapshot : StateSnapshot} {now : ℤ}
    (htype : type = .stateInitialized ∨ type = .stateRecovered)
    (h : validateAuditEvent (stateAuditEvent type snapshot now) = .ok ()) :
    normalizeAuditTime now ≠ 0 ∧ snapshot.model.Auditable := by
  have hchecked := (validateAuditEvent_ok_iff _).1 h
  refine ⟨hchecked.time, hchecked.round, fun hversion => ?_, hchecked.sizes.2.2.2.2.1,
    hchecked.modelDigest⟩
  have hfields := hchecked.fields
  rcases htype with rfl | rfl <;>
    simp only [validateAuditFields, stateAuditEvent, newAuditEvent, hversion, if_true,
      reduceCtorEq] at hfields

/-- The event of a round that the submission has closed. -/
def aggregatedEvent (settings : Settings) (req : SubmitLocalUpdateRequest) (after : StateSnapshot)
    (now : ℤ) : AuditEvent :=
  { stateAuditEvent .roundAggregated after now with
    nodeID := req.nodeID
    quorum := settings.minUpdates
    aggregationMethod := settings.aggregationMethod }

theorem aggregatedEvent_mem {settings : Settings} {req : SubmitLocalUpdateRequest}
    (response : SubmitLocalUpdateResponse) {before after : StateSnapshot} {clock : Clock}
    (h : before.model.roundID < after.model.roundID) :
    aggregatedEvent settings req after (clock.read 1) ∈
      updateAuditEvents settings req response before after clock := by
  simp only [updateAuditEvents, if_pos h]
  exact List.mem_cons_of_mem _ List.mem_cons_self

end ZeroTrustFL
