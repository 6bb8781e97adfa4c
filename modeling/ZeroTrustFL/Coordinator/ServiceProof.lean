import Mathlib.Tactic
import ZeroTrustFL.Coordinator.Sections

/-!
# What the calls of the service do

One theorem says what the first part of a call has checked, one lists how the second part ends and
one how the whole call does.  A submission fails and leaves the round as it was, or is accepted and
waits, or is accepted and closes the round.
-/

namespace ZeroTrustFL

/-! ## Vectors -/

theorem addVectors_eq_some {xs ys zs : List Float32} (h : addVectors xs ys = some zs)
    (hlen : xs.length ≤ ys.length) :
    zs = List.zipWith (· + ·) xs ys ∧ ∀ z ∈ zs, isNonFinite z = false := by
  induction xs generalizing ys zs with
  | nil =>
    cases h
    simp
  | cons x xs ih =>
    rcases ys with _ | ⟨y, ys⟩
    · simp at hlen
    · simp only [addVectors] at h
      split_ifs at h with hz
      obtain ⟨zs', hzs, rfl⟩ := Option.map_eq_some_iff.1 h
      obtain ⟨rfl, hfin⟩ := ih hzs (by simpa using hlen)
      refine ⟨rfl, ?_⟩
      simp only [List.mem_cons, forall_eq_or_imp]
      exact ⟨by simpa using hz, hfin⟩

theorem length_currentModelVector {model : GlobalModel} {n : ℕ} {values : List Float32}
    (h : currentModelVector model n = .ok values) : n ≠ 0 ∧ values.length = n := by
  unfold currentModelVector at h
  split_ifs at h with h₁ h₂ h₃
  · cases h
    exact ⟨h₁, by simp⟩
  · rcases hd : decodeNPYFloat32 model.weightsPayload with (e | e) | vs
    · rw [hd] at h
      cases h
    · rw [hd] at h
      cases h
    · rw [hd] at h
      simp only at h
      split_ifs at h with h₄
      cases h
      exact ⟨h₁, not_not.1 h₄⟩

/-- What `requireIdentityAndRegistration` has checked. -/
theorem requireIdentityAndRegistration_ok {identity : Option PeerIdentity}
    {registry : RegistrationStore} {nodeID registrationID : String} {now : ℤ} {i : PeerIdentity}
    (h : requireIdentityAndRegistration identity registry nodeID registrationID now = .ok i) :
    identity = some i ∧ trimSpace nodeID ≠ "" ∧ nodeID = i.nodeID ∧ trimSpace registrationID ≠ "" ∧
      ∃ entry, registry.validate i registrationID now = .ok entry := by
  unfold requireIdentityAndRegistration at h
  rcases identity with _ | identity
  · cases h
  · simp only at h
    split_ifs at h with h₁ h₂
    rw [not_or, not_not] at h₁
    rcases hv : registry.validate identity registrationID now with e | entry <;>
      rw [hv] at h <;> cases h
    exact ⟨rfl, h₁.1, h₁.2, h₂, entry, hv⟩

theorem secureIdentifier_ok {env : Env} {id : String} (h : secureIdentifier env = .ok id) :
    trimSpace id ≠ "" := by
  unfold secureIdentifier at h
  rcases hr : env.random with _ | bytes <;> rw [hr] at h <;> cases h
  refine trimSpace_hexEncode_ne_empty fun hnil => ?_
  have hlen := congrArg List.length hnil
  simp at hlen

theorem validateMetrics_ok {metrics : Option LocalUpdateMetrics}
    (h : validateMetrics metrics = .ok ()) :
    ∃ m, metrics = some m ∧ m.sampleCount ≠ 0 ∧ m.sampleCount ≤ maxReportedSampleCount := by
  rcases metrics with _ | m
  · cases h
  · simp only [validateMetrics] at h
    split_ifs at h with h₁ h₂
    rw [not_or, UInt64.not_lt] at h₂
    exact ⟨m, rfl, h₂.1, h₂.2⟩

namespace Service

/-- Only nonces and rate windows differ. -/
structure SameRound (s s' : Service) : Prop where
  settings : s'.settings = s.settings
  registry : s'.registry = s.registry
  model : s'.model = s.model
  pending : s'.pending = s.pending

variable {currentValues : List Float32} (s : Service)

theorem SameRound.refl : s.SameRound s := ⟨rfl, rfl, rfl, rfl⟩

theorem SameRound.trans {s s' s'' : Service} (h : s.SameRound s') (h' : s'.SameRound s'') :
    s.SameRound s'' :=
  ⟨h'.settings.trans h.settings, h'.registry.trans h.registry, h'.model.trans h.model,
    h'.pending.trans h.pending⟩

theorem sameRound_acceptNonceLocked (nodeID : String) (nonce : Bytes) (now : ℤ) :
    s.SameRound (s.acceptNonceLocked nodeID nonce now).2 := by
  simp only [acceptNonceLocked]
  split_ifs <;> exact ⟨rfl, rfl, rfl, rfl⟩

theorem sameRound_allowUpdateLocked (nodeID : String) (now : ℤ) :
    s.SameRound (s.allowUpdateLocked nodeID now).2 := by
  simp only [allowUpdateLocked]
  split_ifs <;> exact ⟨rfl, rfl, rfl, rfl⟩

/-! ## Submissions -/

/-- The round that `closeRound` closes: the aggregate of the updates, the new vector and its
encoding. -/
structure Closes (settings : Settings) (updates : OrdMap String PendingUpdate) (order : IterOrder)
    (currentValues aggregated values : List Float32) (payload : Bytes) : Prop where
  aggregate : aggregatePendingUpdates order updates currentValues.length
    settings.aggregationMethod = .ok aggregated
  add : addVectors currentValues aggregated = some values
  encode : encodeNPYFloat32 values = .ok payload

theorem closeRound_cases (nodeID updateID : String) (currentValues : List Float32) (now : ℤ)
    (order : IterOrder) :
    (∃ e, s.closeRound nodeID updateID currentValues now order =
      (.error e, { s with pending := s.pending.erase nodeID })) ∨
    ∃ aggregated values payload,
      Closes s.settings s.pending order currentValues aggregated values payload ∧
      s.closeRound nodeID updateID currentValues now order =
        (.ok ⟨true, updateID, "accepted; round aggregated",
          (nextModel s.model payload now).modelVersion⟩,
          { s with model := nextModel s.model payload now, pending := ∅ }) := by
  unfold closeRound
  rcases ha : aggregatePendingUpdates order s.pending currentValues.length
    s.settings.aggregationMethod with e | aggregated
  · exact .inl ⟨_, rfl⟩
  · rcases hv : addVectors currentValues aggregated with _ | values
    · exact .inl ⟨_, by simp only [hv]; rfl⟩
    · rcases hp : encodeNPYFloat32 values with e | payload
      · exact .inl ⟨_, by simp only [hv, hp]; rfl⟩
      · exact .inr ⟨aggregated, values, payload, ⟨ha, hv, hp⟩, by simp only [hv, hp]⟩

/-- The update that an accepted submission makes pending. -/
def updateOf (req : SubmitLocalUpdateRequest) (updateID : String) (values : List Float32) :
    PendingUpdate :=
  { nodeID := req.nodeID
    updateID := updateID
    values := values
    sampleCount := (req.metrics.map LocalUpdateMetrics.sampleCount).getD 0 }

/-- A submission that is taken into the round: it is for the current model, its node has no pending
update and its vector has the length of the model's. -/
structure Admits (s : Service) (req : SubmitLocalUpdateRequest) (env : Env) (values : List Float32)
    (updateID : String) (currentValues : List Float32) : Prop where
  version : req.baseModelVersion = s.model.modelVersion
  round : req.roundID = s.model.roundID
  fresh : s.pending.get? req.nodeID = none
  current : currentModelVector s.model values.length = .ok currentValues
  identifier : secureIdentifier env = .ok updateID

theorem Admits.congr {s s' : Service} {req : SubmitLocalUpdateRequest} {env : Env}
    {values : List Float32} {updateID : String} (hs : s.SameRound s')
    (h : s'.Admits req env values updateID currentValues) :
    s.Admits req env values updateID currentValues :=
  ⟨hs.model ▸ h.version, hs.model ▸ h.round, hs.pending ▸ h.fresh, hs.model ▸ h.current,
    h.identifier⟩

theorem admitUpdate_cases (req : SubmitLocalUpdateRequest) (values : List Float32) (now : ℤ)
    (env : Env) :
    (∃ e, s.admitUpdate req values now env = (.error e, s)) ∨
    ∃ updateID currentValues, s.Admits req env values updateID currentValues ∧
      (((s.pending.size + 1 : ℤ) < s.settings.minUpdates ∧
        s.admitUpdate req values now env =
          (.ok ⟨true, updateID,
            s!"accepted; waiting for quorum ({s.pending.size + 1}/{s.settings.minUpdates})",
            s.model.modelVersion⟩,
            { s with pending := s.pending.insert req.nodeID (updateOf req updateID values) })) ∨
      (s.settings.minUpdates ≤ s.pending.size + 1 ∧ ∃ aggregated values' payload,
        Closes s.settings (s.pending.insert req.nodeID (updateOf req updateID values)) env.order
          currentValues aggregated values' payload ∧
        s.admitUpdate req values now env =
          (.ok ⟨true, updateID, "accepted; round aggregated",
            (nextModel s.model payload now).modelVersion⟩,
            { s with model := nextModel s.model payload now, pending := ∅ }))) := by
  unfold admitUpdate
  split_ifs with h₁ h₂ h₃
  · exact .inl ⟨_, rfl⟩
  · exact .inl ⟨_, rfl⟩
  · exact .inl ⟨_, rfl⟩
  · rw [Option.not_isSome_iff_eq_none] at h₃
    rcases hc : currentModelVector s.model values.length with (e | e) | currentValues
    · exact .inl ⟨_, rfl⟩
    · exact .inl ⟨_, rfl⟩
    · rcases hi : secureIdentifier env with e | updateID
      · exact .inl ⟨_, rfl⟩
      · have hadmits : s.Admits req env values updateID currentValues :=
          ⟨not_not.1 h₁, not_not.1 h₂, h₃, hc, hi⟩
        have hsize := OrdMap.size_insert_of_none s.pending (updateOf req updateID values) h₃
        rw [updateOf] at hsize
        simp only [hsize]
        split_ifs with h₄
        · exact .inr ⟨updateID, currentValues, hadmits, .inl ⟨by exact_mod_cast h₄, rfl⟩⟩
        · rcases closeRound_cases
            { s with pending := s.pending.insert req.nodeID (updateOf req updateID values) }
            req.nodeID updateID currentValues now env.order with ⟨e, he⟩ | ⟨agg, v, p, hcl, he⟩
          · left
            refine ⟨e, he.trans ?_⟩
            rw [OrdMap.erase_insert _ _ h₃]
          · exact .inr ⟨updateID, currentValues, hadmits, .inr
              ⟨by push_cast at h₄; omega, agg, v, p, hcl, he⟩⟩

/-- What an accepted submission brought and met. -/
structure Accepts (s : Service) (identity : Option PeerIdentity) (req : SubmitLocalUpdateRequest)
    (env : Env) (prepared : PreparedUpdate) (updateID : String) (currentValues : List Float32) :
    Prop where
  prepare : s.prepareUpdate identity req env = .ok prepared
  valid : ∃ entry, s.registry.validate prepared.identity req.registrationID
    (env.clock.read 2) = .ok entry
  nonce : (s.acceptNonceLocked req.nodeID (nonceOf req.security) prepared.now).1 = true
  admits : s.Admits req env prepared.values updateID currentValues

/-- The service after the checks of a submission that passes them. -/
def afterChecks (s : Service) (req : SubmitLocalUpdateRequest) (now : ℤ) : Service :=
  ((s.acceptNonceLocked req.nodeID (nonceOf req.security) now).2.allowUpdateLocked req.nodeID now).2

theorem sameRound_afterChecks (req : SubmitLocalUpdateRequest) (now : ℤ) :
    s.SameRound (s.afterChecks req now) :=
  (s.sameRound_acceptNonceLocked _ _ _).trans (sameRound_allowUpdateLocked _ _ _)

/-- What the locked part of a submission that gets as far as the insertion has checked. -/
structure Passes (s : Service) (req : SubmitLocalUpdateRequest) (prepared : PreparedUpdate)
    (env : Env) (updateID : String) (currentValues : List Float32) : Prop where
  valid : ∃ entry, s.registry.validate prepared.identity req.registrationID
    (env.clock.read 2) = .ok entry
  nonce : (s.acceptNonceLocked req.nodeID (nonceOf req.security) prepared.now).1 = true
  rate : ((s.acceptNonceLocked req.nodeID (nonceOf req.security) prepared.now).2.allowUpdateLocked
    req.nodeID prepared.now).1 = true
  admits : s.Admits req env prepared.values updateID currentValues

theorem Passes.accepts {s : Service} {req : SubmitLocalUpdateRequest} {prepared : PreparedUpdate}
    {env : Env} {updateID : String} (h : s.Passes req prepared env updateID currentValues)
    {identity : Option PeerIdentity} (prepare : s.prepareUpdate identity req env = .ok prepared) :
    s.Accepts identity req env prepared updateID currentValues :=
  ⟨prepare, h.valid, h.nonce, h.admits⟩

/-- What the part of a submission before the lock has checked. -/
structure Prepares (s : Service) (identity : Option PeerIdentity) (req : SubmitLocalUpdateRequest)
    (env : Env) (prepared : PreparedUpdate) : Prop where
  require : requireIdentityAndRegistration identity s.registry req.nodeID req.registrationID
    (env.clock.read 0) = .ok prepared.identity
  metrics : validateMetrics req.metrics = .ok ()
  decode : decodeNPYFloat32 req.weightsPayload = .ok prepared.values
  now : prepared.now = env.clock.read 1
  security : validateSecurityMetadata req.security prepared.now = .ok ()

theorem prepareUpdate_ok {s : Service} {identity : Option PeerIdentity}
    {req : SubmitLocalUpdateRequest} {env : Env} {prepared : PreparedUpdate}
    (h : s.prepareUpdate identity req env = .ok prepared) :
    s.Prepares identity req env prepared := by
  unfold prepareUpdate at h
  rcases hi : requireIdentityAndRegistration identity s.registry req.nodeID req.registrationID
    (env.clock.read 0) with e | i
  · rw [hi] at h
    cases h
  · rw [hi] at h
    simp only at h
    split_ifs at h with h₁ h₂ h₃ h₄ h₅
    rcases hm : validateMetrics req.metrics with e | _
    · rw [hm] at h
      cases h
    · rw [hm] at h
      simp only at h
      rcases hd : decodeNPYFloat32 req.weightsPayload with (e | e) | values
      · rw [hd] at h
        cases h
      · rw [hd] at h
        cases h
      · rw [hd] at h
        simp only at h
        rcases hs : validateSecurityMetadata req.security (env.clock.read 1) with e | _
        · rw [hs] at h
          cases h
        · rw [hs] at h
          cases h
          exact ⟨hi, hm, hd, rfl, hs⟩

/-- The vector that closes a round and the payload that encodes it. -/
theorem Closes.payload {settings : Settings} {updates : OrdMap String PendingUpdate}
    {order : IterOrder} {aggregated values : List Float32} {payload : Bytes}
    (h : Closes settings updates order currentValues aggregated values payload)
    (hne : currentValues.length ≠ 0) (hlt : currentValues.length * 4 < 2 ^ 63) :
    values = List.zipWith (· + ·) currentValues aggregated ∧ values.length = currentValues.length ∧
      payload ≠ [] ∧ decodeNPYFloat32 payload = .ok values := by
  have hagg := length_aggregatePendingUpdates h.aggregate
  obtain ⟨hvalues, hfin⟩ := addVectors_eq_some h.add hagg.ge
  have hlen : values.length = currentValues.length := by
    rw [hvalues, List.length_zipWith, hagg, Nat.min_self]
  have hnil : values ≠ [] := by
    rw [← List.length_pos_iff_ne_nil, hlen]
    omega
  obtain ⟨payload', hencode, hpne, hdecode⟩ := decodeNPYFloat32_encodeNPYFloat32 hnil hfin
    (by omega)
  obtain rfl : payload = payload' := Except.ok.inj (h.encode.symm.trans hencode)
  exact ⟨hvalues, hlen, hpne, hdecode⟩

/-- The vector of the model that closes a round. -/
theorem currentModelVector_nextModel {s : Service} {updates : OrdMap String PendingUpdate}
    {order : IterOrder} {n : ℕ} {aggregated values : List Float32} {payload : Bytes}
    (hn : n * 4 < 2 ^ 63) (hcurrent : currentModelVector s.model n = .ok currentValues)
    (hcloses : Closes s.settings updates order currentValues aggregated values payload) (now : ℤ) :
    currentModelVector (nextModel s.model payload now) currentValues.length =
      .ok (List.zipWith (· + ·) currentValues aggregated) := by
  obtain ⟨hn0, rfl⟩ := length_currentModelVector hcurrent
  obtain ⟨rfl, hvlen, hpne, hdecode⟩ := hcloses.payload hn0 hn
  have hplen : payload.length ≠ 0 := by simpa using hpne
  simp only [currentModelVector, nextModel, hdecode, hvlen, hplen, if_false, ne_eq,
    not_true_eq_false]
  rw [if_neg hn0]

/-! ## The other calls -/

theorem prepareRotation_ok {s : Service} {identity : Option PeerIdentity}
    {req : RotateRegistrationRequest} {env : Env} {i : PeerIdentity} {now : ℤ} {id : String}
    (h : s.prepareRotation identity req env = .ok (i, now, id)) :
    requireIdentityAndRegistration identity s.registry req.nodeID req.registrationID
      (env.clock.read 0) = .ok i ∧ now = env.clock.read 1 ∧
      validateSecurityMetadata req.security now = .ok () ∧ secureIdentifier env = .ok id := by
  unfold prepareRotation at h
  rcases hi : requireIdentityAndRegistration identity s.registry req.nodeID req.registrationID
    (env.clock.read 0) with e | i'
  · rw [hi] at h
    cases h
  · rcases hs : validateSecurityMetadata req.security (env.clock.read 1) with e | _
    · simp only [hi, hs, reduceCtorEq] at h
    · rcases hid : secureIdentifier env with e | id'
      · simp only [hi, hs, hid, reduceCtorEq] at h
      · simp only [hi, hs, hid, Except.ok.injEq, Prod.mk.injEq] at h
        obtain ⟨rfl, rfl, rfl⟩ := h
        exact ⟨rfl, rfl, hs, rfl⟩

theorem prepareRevocation_ok {s : Service} {identity : Option PeerIdentity}
    {req : RevokeRegistrationRequest} {env : Env} {i : PeerIdentity} {now : ℤ}
    (h : s.prepareRevocation identity req env = .ok (i, now)) :
    requireIdentityAndRegistration identity s.registry req.nodeID req.registrationID
      (env.clock.read 0) = .ok i ∧ i.role = "admin" ∧ now = env.clock.read 1 ∧
      validateSecurityMetadata req.security now = .ok () := by
  unfold prepareRevocation at h
  rcases hi : requireIdentityAndRegistration identity s.registry req.nodeID req.registrationID
    (env.clock.read 0) with e | i'
  · rw [hi] at h
    cases h
  · rw [hi] at h
    simp only at h
    split_ifs at h with h₁ h₂
    rcases hs : validateSecurityMetadata req.security (env.clock.read 1) with e | _
    · simp only [hs, reduceCtorEq] at h
    · simp only [hs, Except.ok.injEq, Prod.mk.injEq] at h
      obtain ⟨rfl, rfl⟩ := h
      exact ⟨rfl, not_not.1 h₁, rfl, hs⟩

/-! ## The parts of a call -/

/-- What the first part of a call has checked. -/
def PreparedAs (s : Service) (c : Call) : Prepared → Prop
  | .registerNode identity id => ∃ req, c.request = .registerNode (some req) ∧
      c.identity = some identity ∧ req.nodeID = identity.nodeID ∧ secureIdentifier c.env = .ok id
  | .heartbeat identity req => c.request = .heartbeat (some req) ∧
      requireIdentityAndRegistration c.identity s.registry req.nodeID req.registrationID
        (c.env.clock.read 0) = .ok identity
  | .getGlobalModel => ∃ req, c.request = .getGlobalModel (some req)
  | .submitLocalUpdate req prepared => c.request = .submitLocalUpdate (some req) ∧
      s.prepareUpdate c.identity req c.env = .ok prepared
  | .rotateRegistration req identity now id => c.request = .rotateRegistration (some req) ∧
      s.prepareRotation c.identity req c.env = .ok (identity, now, id)
  | .revokeRegistration req identity now => c.request = .revokeRegistration (some req) ∧
      s.prepareRevocation c.identity req c.env = .ok (identity, now)

/-- The result of the operation on the registrations that the second part of a call runs. -/
inductive RegistryRun (s : Service) (env : Env)
    (result : Except String Registration × RegistrationStore) : Prepared → Prop where
  | register {i : PeerIdentity} {id : String}
      (ran : s.registry.register i id s.settings.leaseTTL (env.clock.read 0) = result) :
      RegistryRun s env result (.registerNode i id)
  | refresh {i : PeerIdentity} {r : HeartbeatRequest}
      (ran : s.registry.refresh i r.registrationID s.settings.leaseTTL
        (env.clock.read 1) = result) : RegistryRun s env result (.heartbeat i r)
  | rotate {r : RotateRegistrationRequest} {i : PeerIdentity} {now : ℤ} {id : String}
      (ran : s.registry.rotate i r.registrationID id s.settings.leaseTTL
        (env.clock.read 3) = result) : RegistryRun s env result (.rotateRegistration r i now id)
  | revoke {r : RevokeRegistrationRequest} {i : PeerIdentity} {now : ℤ}
      (ran : s.registry.revoke r.targetNodeID r.reason (env.clock.read 3) = result) :
      RegistryRun s env result (.revokeRegistration r i now)

/-- How the second part of a call ends: with an error that leaves the round as it was, before or
after an operation on the registrations, or with what the call was for. -/
inductive Completed (s : Service) (env : Env) :
    Prepared → Except Failure Response × Service → Prop where
  | failed {p : Prepared} {e : Failure} {s' : Service} (same : s.SameRound s') :
      Completed s env p (.error e, s')
  | rejected {p : Prepared} {err : String} {e : Failure} {s₁ : Service}
      {registry : RegistrationStore}
      (same : s.SameRound s₁) (run : s.RegistryRun env (.error err, registry) p) :
      Completed s env p (.error e, { s₁ with registry := registry })
  | read : Completed s env .getGlobalModel (.ok (.getGlobalModel s.model), s)
  | registered {i : PeerIdentity} {id : String} {entry : Registration}
      {registry : RegistrationStore}
      (ran : s.registry.register i id s.settings.leaseTTL (env.clock.read 0) =
        (.ok entry, registry)) :
      Completed s env (.registerNode i id)
        (.ok (.registerNode ⟨true, entry.registrationID, entry.role, unixSeconds entry.expiresAt,
          entry.generation⟩), { s with registry := registry })
  | refreshed {i : PeerIdentity} {r : HeartbeatRequest} {entry : Registration}
      {registry : RegistrationStore}
      (ran : s.registry.refresh i r.registrationID s.settings.leaseTTL (env.clock.read 1) =
        (.ok entry, registry)) :
      Completed s env (.heartbeat i r)
        (.ok (.heartbeat ⟨true, unixSeconds (env.clock.read 2), s.model.modelVersion,
          unixSeconds entry.expiresAt, entry.generation⟩), { s with registry := registry })
  | waiting {r : SubmitLocalUpdateRequest} {prepared : PreparedUpdate} {updateID : String}
      {currentValues : List Float32} (passes : s.Passes r prepared env updateID currentValues)
      (few : (s.pending.size + 1 : ℤ) < s.settings.minUpdates) :
      Completed s env (.submitLocalUpdate r prepared)
        (.ok (.submitLocalUpdate ⟨true, updateID,
          s!"accepted; waiting for quorum ({s.pending.size + 1}/{s.settings.minUpdates})",
          s.model.modelVersion⟩),
        { s.afterChecks r prepared.now with
          pending := s.pending.insert r.nodeID (updateOf r updateID prepared.values) })
  | closing {r : SubmitLocalUpdateRequest} {prepared : PreparedUpdate} {updateID : String}
      {currentValues aggregated values : List Float32} {payload : Bytes}
      (passes : s.Passes r prepared env updateID currentValues)
      (enough : s.settings.minUpdates ≤ s.pending.size + 1)
      (closes : Closes s.settings (s.pending.insert r.nodeID (updateOf r updateID prepared.values))
        env.order currentValues aggregated values payload) :
      Completed s env (.submitLocalUpdate r prepared)
        (.ok (.submitLocalUpdate ⟨true, updateID, "accepted; round aggregated",
          (nextModel s.model payload prepared.now).modelVersion⟩),
        { s.afterChecks r prepared.now with
          model := nextModel s.model payload prepared.now
          pending := ∅ })
  | rotated {r : RotateRegistrationRequest} {i : PeerIdentity} {now : ℤ} {id : String}
      {entry : Registration} {s₁ : Service} {registry : RegistrationStore} (same : s.SameRound s₁)
      (ran : s.registry.rotate i r.registrationID id s.settings.leaseTTL (env.clock.read 3) =
        (.ok entry, registry)) :
      Completed s env (.rotateRegistration r i now id)
        (.ok (.rotateRegistration ⟨true, entry.registrationID, unixSeconds entry.expiresAt,
          entry.generation⟩), { s₁ with registry := registry })
  | revoked {r : RevokeRegistrationRequest} {i : PeerIdentity} {now : ℤ} {entry : Registration}
      {s₁ : Service} {registry : RegistrationStore} (same : s.SameRound s₁)
      (ran : s.registry.revoke r.targetNodeID r.reason (env.clock.read 3) = (.ok entry, registry)) :
      Completed s env (.revokeRegistration r i now)
        (.ok (.revokeRegistration ⟨true, entry.nodeID, entry.generation,
          unixSeconds entry.revokedAt, unixSeconds entry.expiresAt⟩),
        { s₁ with
          registry := registry
          pending := s.pending.erase entry.nodeID
          rates := s₁.rates.erase entry.nodeID })

theorem submitLocalUpdate_completed (req : SubmitLocalUpdateRequest) (prepared : PreparedUpdate)
    (env : Env) :
    s.Completed env (.submitLocalUpdate req prepared)
      (s.complete env (.submitLocalUpdate req prepared)) := by
  simp only [complete, submitLocalUpdateLocked]
  rcases hv : s.registry.validate prepared.identity req.registrationID (env.clock.read 2) with
    e | entry
  · exact .failed (.refl s)
  have hn := s.sameRound_acceptNonceLocked req.nodeID (nonceOf req.security) prepared.now
  have hs := s.sameRound_afterChecks req prepared.now
  rcases ha : s.acceptNonceLocked req.nodeID (nonceOf req.security) prepared.now with
    ⟨_ | _, s₁⟩ <;> rw [ha] at hn
  · exact .failed hn
  simp only
  rcases hr : s₁.allowUpdateLocked req.nodeID prepared.now with ⟨_ | _, s₂⟩
  · have hr' := s₁.sameRound_allowUpdateLocked req.nodeID prepared.now
    rw [hr] at hr'
    exact .failed (hn.trans hr')
  have hafter : s.afterChecks req prepared.now = s₂ := by rw [afterChecks, ha, hr]
  rw [hafter] at hs
  have hpasses {updateID : String} {currentValues : List Float32}
      (hadmits : s₂.Admits req env prepared.values updateID currentValues) :
      s.Passes req prepared env updateID currentValues :=
    ⟨⟨entry, hv⟩, by rw [ha], by rw [ha, hr], hadmits.congr hs⟩
  simp only
  rcases s₂.admitUpdate_cases req prepared.values prepared.now env with
    ⟨e, he⟩ | ⟨updateID, currentValues, hadmits, ⟨hfew, he⟩ | ⟨henough, agg, v, payload, hcl, he⟩⟩
  · rw [he]
    exact .failed hs
  · rw [hs.pending, hs.settings] at hfew
    have hout := Completed.waiting (hpasses hadmits) hfew
    rw [he]
    simp only [hafter, hs.pending, hs.settings, hs.model] at hout ⊢
    exact hout
  · rw [hs.settings, hs.pending] at henough hcl
    have hout := Completed.closing (hpasses hadmits) henough hcl
    rw [he]
    simp only [hafter, hs.settings, hs.model] at hout ⊢
    exact hout

theorem complete_completed (env : Env) (p : Prepared) : s.Completed env p (s.complete env p) := by
  cases p with
  | registerNode i id =>
    simp only [complete]
    rcases hr : s.registry.register i id s.settings.leaseTTL (env.clock.read 0) with
      ⟨err | entry, registry⟩
    · exact .rejected (.refl s) (.register hr)
    · exact .registered hr
  | heartbeat i r =>
    simp only [complete]
    rcases hr : s.registry.refresh i r.registrationID s.settings.leaseTTL (env.clock.read 1) with
      ⟨err | entry, registry⟩
    · exact .rejected (.refl s) (.refresh hr)
    · exact .refreshed hr
  | getGlobalModel => exact .read
  | submitLocalUpdate r prepared => exact s.submitLocalUpdate_completed r prepared env
  | rotateRegistration r i now id =>
    simp only [complete, rotateRegistrationLocked]
    rcases s.registry.validate i r.registrationID (env.clock.read 2) with e | entry
    · exact .failed (.refl s)
    have hn := s.sameRound_acceptNonceLocked r.nodeID (nonceOf r.security) now
    rcases ha : s.acceptNonceLocked r.nodeID (nonceOf r.security) now with ⟨_ | _, s₁⟩ <;>
      simp only [ha] at hn
    · exact .failed hn
    · simp only
      rcases hr : s₁.registry.rotate i r.registrationID id s₁.settings.leaseTTL
        (env.clock.read 3) with
        ⟨err | entry, registry⟩ <;> rw [hn.registry, hn.settings] at hr
      · exact .rejected hn (.rotate hr)
      · exact .rotated hn hr
  | revokeRegistration r i now =>
    simp only [complete, revokeRegistrationLocked]
    rcases s.registry.validate i r.registrationID (env.clock.read 2) with e | entry
    · exact .failed (.refl s)
    have hn := s.sameRound_acceptNonceLocked r.nodeID (nonceOf r.security) now
    rcases ha : s.acceptNonceLocked r.nodeID (nonceOf r.security) now with ⟨_ | _, s₁⟩ <;>
      simp only [ha] at hn
    · exact .failed hn
    · simp only
      rcases hr : s₁.registry.revoke r.targetNodeID r.reason (env.clock.read 3) with
        ⟨err | entry, registry⟩ <;> rw [hn.registry] at hr
      · exact .rejected hn (.revoke hr)
      · simp only [hn.pending]
        exact .revoked hn hr

variable {s} {env : Env} {p : Prepared} {c : Call}

theorem preparedAs_of_prepareRegistration {req : Option RegisterNodeRequest}
    (hc : c.request = .registerNode req) (h : prepareRegistration c.identity req c.env = .ok p) :
    s.PreparedAs c p := by
  unfold prepareRegistration at h
  rcases hi : c.identity with _ | i <;> simp only [hi, reduceCtorEq] at h
  rcases req with _ | r
  · cases h
  simp only at h
  split_ifs at h with h₁
  rcases hid : secureIdentifier c.env with e | id <;> rw [hid] at h <;> cases h
  rw [not_or, not_not] at h₁
  exact ⟨r, hc, hi, h₁.2, hid⟩

theorem preparedAs_of_prepare (h : s.prepare c = .ok p) : s.PreparedAs c p := by
  -- the first part of the other calls wraps what one function returns
  have hmap {α : Type} {f : α → Prepared} {x : Except Failure α} (hx : x.map f = .ok p) :
      ∃ y, x = .ok y ∧ f y = p := by
    rcases x with e | y
    · cases hx
    · exact ⟨y, rfl, Except.ok.inj hx⟩
  rcases hc : c.request with r | (_ | r) | (_ | r) | (_ | r) | (_ | r) | (_ | r) <;>
    simp only [prepare, hc, reduceCtorEq] at h
  · exact preparedAs_of_prepareRegistration hc h
  · obtain ⟨i, hrun, rfl⟩ := hmap h
    exact ⟨hc, hrun⟩
  · obtain ⟨i, hrun, rfl⟩ := hmap h
    exact ⟨r, hc⟩
  · obtain ⟨prepared, hrun, rfl⟩ := hmap h
    exact ⟨hc, hrun⟩
  · obtain ⟨prepared, hrun, rfl⟩ := hmap h
    exact ⟨hc, hrun⟩
  · obtain ⟨prepared, hrun, rfl⟩ := hmap h
    exact ⟨hc, hrun⟩

/-- What holds of the registrations before the second part of a call and after its operation on them
holds after it. -/
theorem registry_complete {P : RegistrationStore → Prop} (h : P s.registry)
    (hrun : ∀ {result}, s.RegistryRun env result p → P result.2) :
    P (s.complete env p).2.registry := by
  have hout := s.complete_completed env p
  generalize s.complete env p = result at hout
  cases hout with
  | failed same => exact same.registry ▸ h
  | rejected _ run => exact hrun run
  | read => exact h
  | registered ran => exact hrun (.register ran)
  | refreshed ran => exact hrun (.refresh ran)
  | waiting => exact (s.sameRound_afterChecks _ _).registry ▸ h
  | closing => exact (s.sameRound_afterChecks _ _).registry ▸ h
  | rotated _ ran => exact hrun (.rotate ran)
  | revoked _ ran => exact hrun (.revoke ran)

/-! ## Whole calls -/

variable (s c)

/-- How a call ends: as its second part does, and only after the first part if it succeeds. -/
theorem serve_completed : ∃ p, s.Completed c.env p (s.serve c) ∧
    ∀ {response}, (s.serve c).1 = .ok response → s.PreparedAs c p := by
  rw [serve_eq_complete]
  rcases hp : s.prepare c with e | p
  · exact ⟨.getGlobalModel, .failed (.refl s), fun h => by cases h⟩
  · exact ⟨p, s.complete_completed c.env p, fun _ => preparedAs_of_prepare hp⟩

/-- No call changes the settings. -/
theorem settings_serve : (s.serve c).2.settings = s.settings := by
  obtain ⟨p, hout, -⟩ := s.serve_completed c
  generalize s.serve c = result at hout
  cases hout with
  | failed same => exact same.settings
  | rejected same => exact same.settings
  | read => rfl
  | registered => rfl
  | refreshed => rfl
  | waiting => exact (s.sameRound_afterChecks _ _).settings
  | closing => exact (s.sameRound_afterChecks _ _).settings
  | rotated same => exact same.settings
  | revoked same => exact same.settings

variable {s c}

/-- What holds of the registrations before a call and after its operation on them holds after the
call. -/
theorem registry_serve {P : RegistrationStore → Prop} (h : P s.registry)
    (hrun : ∀ {p result}, s.PreparedAs c p → s.RegistryRun c.env result p → P result.2) :
    P (s.serve c).2.registry := by
  rw [serve_eq_complete]
  rcases hp : s.prepare c with e | p
  · exact h
  · exact registry_complete h fun run => hrun (preparedAs_of_prepare hp) run

/-- Registrations and heartbeats touch nothing but the registry. -/
theorem serve_eq_withRegistry
    (h : (∃ req, c.request = .registerNode req) ∨ ∃ req, c.request = .heartbeat req) :
    ∃ registry, (s.serve c).2 = { s with registry := registry } := by
  rw [serve_eq_complete]
  rcases hp : s.prepare c with e | p
  · exact ⟨s.registry, rfl⟩
  have hprepared := preparedAs_of_prepare hp
  cases p with
  | registerNode =>
    simp only [complete]
    generalize s.registry.register _ _ _ _ = result
    rcases result with ⟨err | entry, registry⟩ <;> exact ⟨registry, rfl⟩
  | heartbeat =>
    simp only [complete]
    generalize s.registry.refresh _ _ _ _ = result
    rcases result with ⟨err | entry, registry⟩ <;> exact ⟨registry, rfl⟩
  | getGlobalModel =>
    obtain ⟨_, request⟩ := hprepared
    rcases h with ⟨_, h⟩ | ⟨_, h⟩ <;> cases h.symm.trans request
  | _ => rcases h with ⟨_, h⟩ | ⟨_, h⟩ <;> cases h.symm.trans hprepared.1

end Service

end ZeroTrustFL
