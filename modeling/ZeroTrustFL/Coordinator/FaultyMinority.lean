import Mathlib
import ZeroTrustFL.Coordinator.EnvelopeRuns
import ZeroTrustFL.Coordinator.MedianBounds

/-!
# A faulty minority cannot stall a round

Whatever updates a minority of the nodes has pending, the round closes when enough other nodes
submit well-formed updates of one length: every one of them is admitted, as submissions touch only
the nonces, the rate window and the pending update of their own node, and the last one closes the
round, as the median stays between honest values.  On a model without payload the pending updates
have to have that length too: there one pending update of another length keeps all others out.
-/

namespace ZeroTrustFL

/-! ## Well-formed updates -/

/-- A submission together with the vector it brings. -/
structure WorkerUpdate where
  identity : PeerIdentity
  req : SubmitLocalUpdateRequest
  values : List Float32
  env : Env

/-- A registration that is valid was valid before. -/
theorem validate_earlier {r : RegistrationStore} {i : PeerIdentity} {id : String} {now later : ℤ}
    {entry : Registration} (h : r.validate i id later = .ok entry) (hle : now ≤ later) :
    r.validate i id now = .ok entry := by
  unfold RegistrationStore.validate at h ⊢
  rcases hg : r.entries.get? i.nodeID with _ | e
  · rw [hg] at h
    cases h
  · rw [hg] at h
    simp only at h ⊢
    rcases hv : validateRegistrationEntry (normalizeLegacyRegistration e) i id later with err | ⟨⟨⟩⟩
    · rw [hv] at h
      cases h
    · have hadmits := (validateRegistrationEntry_ok_iff _ _ _ _).1 hv
      have hnow := (validateRegistrationEntry_ok_iff _ _ _ _).2
        { hadmits with live := hle.trans_lt hadmits.live }
      rw [hv] at h
      rw [hnow]
      exact h

namespace WorkerUpdate

def call (u : WorkerUpdate) : Call := ⟨some u.identity, .submitLocalUpdate (some u.req), u.env⟩

theorem req_of_call {u : WorkerUpdate} {req : SubmitLocalUpdateRequest}
    (h : u.call.request = .submitLocalUpdate (some req)) : req = u.req := by
  cases h
  rfl

/-- The time at which the update is judged: the clock is read twice before, for the registration. -/
def now (u : WorkerUpdate) : ℤ := u.env.clock.read 2

/-- The request is well-formed. -/
structure WellFormed (u : WorkerUpdate) (modelID : String) (maxUpdateBytes : ℤ) : Prop where
  node : u.req.nodeID = u.identity.nodeID
  named : trimSpace u.req.nodeID ≠ ""
  credential : trimSpace u.req.registrationID ≠ ""
  decodes : decodeNPYFloat32 u.req.weightsPayload = .ok u.values
  size : (u.req.weightsPayload.length : ℤ) ≤ maxUpdateBytes
  format : u.req.weightsFormat = networkWeightsFormat
  digest : u.req.updateSha256 = sha256 u.req.weightsPayload
  metrics : validateMetrics u.req.metrics = .ok ()
  security : validateSecurityMetadata u.req.security u.now = .ok ()
  protocol : u.req.protocolVersion = modelProtocolVersion
  model : u.req.modelID = modelID
  manifest : u.req.tensorManifest =
    (manifestForElementCount (UInt64.ofNat u.values.length)).map some
  schema : u.req.schemaSha256 = modelSchemaDigest
    (manifestForElementCount (UInt64.ofNat u.values.length))

/-- The update is for the current round of the service, of a registered node that is neither
rate-limited nor pending, with a fresh nonce. -/
structure Admissible (u : WorkerUpdate) (s : Service) : Prop where
  registered : ∃ entry, s.registry.validate u.identity u.req.registrationID
    (u.env.clock.read 3) = .ok entry
  version : u.req.baseModelVersion = s.model.modelVersion
  round : u.req.roundID = s.model.roundID
  nonce : (s.acceptNonceLocked u.req.nodeID (nonceOf u.req.security) u.now).1 = true
  rate : (s.allowUpdateLocked u.req.nodeID u.now).1 = true
  notPending : s.pending.get? u.req.nodeID = none
  identifier : ∃ updateID, secureIdentifier u.env = .ok updateID

variable {u : WorkerUpdate} {modelID : String} {s : Service}

theorem manifestEqual_self (manifest : List TensorManifestEntry) :
    manifestEqual manifest (manifest.map some) = true := by
  simp only [manifestEqual, List.length_map, decide_true, Bool.true_and, List.all_eq_true]
  rintro ⟨entry, entry'⟩ hmem
  obtain ⟨i, hi, heq⟩ := List.mem_iff_getElem.1 hmem
  simp only [List.getElem_zip, List.getElem_map, Prod.mk.injEq] at heq
  obtain ⟨rfl, rfl⟩ := heq
  simp only [decide_true, Bool.true_and, List.all_eq_true]
  rintro ⟨d, d'⟩ hd
  obtain ⟨j, hj, heq⟩ := List.mem_iff_getElem.1 hd
  simp only [List.getElem_zip, Prod.mk.injEq] at heq
  obtain ⟨rfl, rfl⟩ := heq
  exact decide_eq_true rfl

theorem WellFormed.envelope {maxUpdateBytes : ℤ} (h : u.WellFormed modelID maxUpdateBytes) :
    validateUpdateEnvelope modelID u.req = .ok () := by
  have hlength : u.req.schemaSha256.length = 32 := by
    rw [h.schema]
    exact length_sha256 _
  simp only [validateUpdateEnvelope, h.protocol, h.model, hlength,
    manifestForPayload_of_decode h.decodes, h.manifest, manifestEqual_self, h.schema.symm, ne_eq,
    not_true_eq_false, if_false, Bool.not_true, Bool.false_eq_true]

/-- The registration is accepted whenever the clock is read. -/
theorem requireIdentity (hform : u.WellFormed modelID s.settings.maxUpdateBytes)
    (h : u.Admissible s) {i : ℕ} (hi : i ≤ 3) :
    requireIdentityAndRegistration (some u.identity) s.registry u.req.nodeID u.req.registrationID
      (u.env.clock.read i) = .ok u.identity := by
  obtain ⟨entry, hentry⟩ := h.registered
  have hvalid := validate_earlier hentry (u.env.clock.mono hi)
  have hnode : ¬ (trimSpace u.req.nodeID = "" ∨ u.req.nodeID ≠ u.identity.nodeID) := by
    rw [not_or, not_not]
    exact ⟨hform.named, hform.node⟩
  simp only [requireIdentityAndRegistration, if_neg hnode, if_neg hform.credential, hvalid]

/-- The part of the submission before the lock succeeds. -/
theorem prepareUpdate_eq (hform : u.WellFormed modelID s.settings.maxUpdateBytes)
    (h : u.Admissible s) :
    s.prepareUpdate (some u.identity) u.req (submittingCall u.call).env =
      .ok ⟨u.identity, u.values, u.now⟩ := by
  have hrequire := requireIdentity hform h (i := 1) (by decide)
  have hpayload : ¬ u.req.weightsPayload.length = 0 := by
    intro hnil
    have hd := hform.decodes
    rw [List.length_eq_zero_iff.1 hnil] at hd
    cases hd
  have hdigest : ¬ u.req.updateSha256.length ≠ 32 := by
    rw [hform.digest, length_sha256, not_not]
  have hsecurity := hform.security
  have hread (i : ℕ) : (submittingCall u.call).env.clock.read i = u.env.clock.read (1 + i) := rfl
  rw [now] at hsecurity
  simp only [Service.prepareUpdate, hread, hrequire, if_neg hpayload, if_neg (not_lt.2 hform.size),
    hform.format, if_neg hdigest, hform.digest.symm, hform.metrics, hform.decodes, hsecurity, ne_eq,
    not_true_eq_false, if_false]
  rfl

/-! ## One submission -/

variable {n : ℕ} {settings : Settings}

theorem checkModelSchema_known (hreads : Service.ReadsPayload s.model)
    (hne : s.model.weightsPayload ≠ []) {values : List Float32}
    (hdecode : decodeNPYFloat32 s.model.weightsPayload = .ok values)
    (hschema : u.req.schemaSha256 = modelSchemaDigest
      (manifestForElementCount (UInt64.ofNat values.length))) :
    checkModelSchema modelID u.req s.model = .ok true := by
  have hpayload : ¬ s.model.weightsPayload.length = 0 := by simpa using hne
  have hdigest : ¬ (s.model.sha256.length ≠ 32 ∨
      sha256 s.model.weightsPayload ≠ s.model.sha256) := by
    rw [hreads.digest, length_sha256]
    simp
  have hlength : (modelSchemaDigest (manifestForElementCount (UInt64.ofNat values.length))).length =
      32 :=
    length_sha256 _
  simp only [checkModelSchema, decorateGlobalModel, if_neg hpayload, hreads.format, if_neg hdigest,
    manifestForPayload_of_decode hdecode, hschema, hlength, ne_eq, not_true_eq_false, if_false,
    Nat.ofNat_pos, if_true]

theorem pendingElementCount_of_length {updates : List PendingUpdate} (hn : n ≠ 0)
    (h : ∀ p ∈ updates, p.values.length = n) {count : ℕ} (hcount : count = 0 ∨ count = n) :
    pendingElementCount count updates = .ok (if updates = [] then count else n) := by
  induction updates generalizing count with
  | nil => rfl
  | cons p updates ih =>
    have hp := h p List.mem_cons_self
    have hrest := ih (fun q hq => h q (List.mem_cons_of_mem p hq)) (.inr rfl)
    rw [ite_self] at hrest
    rcases hcount with rfl | rfl
    · simp only [pendingElementCount, hp, if_neg hn, if_true, hrest, reduceCtorEq, if_false]
    · simp only [pendingElementCount, hp, if_neg hn, hrest, reduceCtorEq, if_false, ne_eq,
        not_true_eq_false]

theorem checkPendingSchema_of_length (order : IterOrder) (hn : n ≠ 0)
    (h : ∀ p ∈ s.pending.values, p.values.length = n)
    (hschema : u.req.schemaSha256 = modelSchemaDigest (manifestForElementCount (UInt64.ofNat n))) :
    checkPendingSchema order u.req s.pending = .ok () := by
  have hcount := pendingElementCount_of_length hn (fun p hp => h p (order.mem_arrange.1 hp))
    (.inl rfl)
  by_cases hnil : order.arrange s.pending.values = []
  · rw [if_pos hnil] at hcount
    simp only [checkPendingSchema, pendingSchemaDigest, hcount, if_true]
  · rw [if_neg hnil] at hcount
    simp only [checkPendingSchema, pendingSchemaDigest, hcount, if_neg hn, hschema, ne_eq,
      not_true_eq_false, if_false]

/-- The envelope passes the submission on. -/
theorem serve_eq (hs : s.Orderly settings) (hform : u.WellFormed modelID s.settings.maxUpdateBytes)
    (h : u.Admissible s) {current : List Float32}
    (hcurrent : currentModelVector s.model u.values.length = .ok current)
    (hpending : ∀ p ∈ s.pending.values, p.values.length = u.values.length) :
    EnvelopeService.serve modelID s u.call = s.serve (submittingCall u.call) := by
  have hreading : (s.serve (readingCall u.call u.req)).1 = .ok (.getGlobalModel s.model) := by
    have hrequire := requireIdentity hform h (i := 0) (by decide)
    simp only [Service.serve, readingCall, Service.getGlobalModel, call, hrequire]
    rfl
  have hn := (length_currentModelVector hcurrent).1
  have hserve : EnvelopeService.serve modelID s u.call =
      EnvelopeService.submitUpdate modelID s u.call u.req := by
    simp only [EnvelopeService.serve, call, hform.envelope]
  rw [hserve]
  by_cases hpayload : s.model.weightsPayload = []
  · have hcheck := checkPendingSchema_of_length u.call.env.order hn hpending hform.schema
    simp only [EnvelopeService.submitUpdate, hreading, EnvelopeService.afterReading,
      checkModelSchema_bootstrap modelID u.req hpayload, hcheck]
  · obtain ⟨values, hdecode⟩ := (hs.payload hpayload).decodes
    have hlength := length_of_currentModelVector hpayload hcurrent hdecode
    have hcheck : checkModelSchema modelID u.req s.model = .ok true :=
      checkModelSchema_known (hs.payload hpayload) hpayload hdecode (by rw [hlength, hform.schema])
    simp only [EnvelopeService.submitUpdate, hreading, EnvelopeService.afterReading, hcheck]

/-- The checks under the lock pass. -/
theorem submitLocalUpdateLocked_eq (h : u.Admissible s) :
    s.submitLocalUpdateLocked u.req ⟨u.identity, u.values, u.now⟩ (submittingCall u.call).env =
      (s.afterChecks u.req u.now).admitUpdate u.req u.values u.now (submittingCall u.call).env := by
  obtain ⟨entry, hentry⟩ := h.registered
  have hread : (submittingCall u.call).env.clock.read 2 = u.env.clock.read 3 := rfl
  have hsame := s.sameRound_acceptNonceLocked u.req.nodeID (nonceOf u.req.security) u.now
  have hrates := s.rates_acceptNonceLocked u.req.nodeID (nonceOf u.req.security) u.now
  have hnonce := h.nonce
  simp only [Service.submitLocalUpdateLocked, hread, hentry, Service.afterChecks]
  rcases ha : s.acceptNonceLocked u.req.nodeID (nonceOf u.req.security) u.now with ⟨_ | _, s₁⟩
  · rw [ha] at hnonce
    cases hnonce
  rw [ha] at hsame hrates
  have hallow : (s₁.allowUpdateLocked u.req.nodeID u.now).1 = true := by
    rw [← h.rate]
    simp only [Service.allowUpdateLocked, show s₁.rates = s.rates from hrates,
      show s₁.settings = s.settings from hsame.settings]
    split_ifs <;> rfl
  simp only
  rcases hr : s₁.allowUpdateLocked u.req.nodeID u.now with ⟨_ | _, s₂⟩
  · rw [hr] at hallow
    cases hallow
  · rfl

theorem serve_submittingCall (hform : u.WellFormed modelID s.settings.maxUpdateBytes)
    (h : u.Admissible s) :
    (s.serve (submittingCall u.call)).2 =
      (s.submitLocalUpdateLocked u.req ⟨u.identity, u.values, u.now⟩
        (submittingCall u.call).env).2 := by
  have hcall : (submittingCall u.call).request = .submitLocalUpdate (some u.req) := rfl
  have hidentity : (submittingCall u.call).identity = some u.identity := rfl
  simp only [Service.serve, hcall, hidentity, Service.submitLocalUpdate, prepareUpdate_eq hform h,
    Prod.map_snd, id_eq]

end WorkerUpdate

namespace Service

section Admission

variable {s : Service} {req : SubmitLocalUpdateRequest} {env : Env}
  {values currentValues : List Float32} {updateID : String} {now : ℤ}

theorem admitUpdate_waits (h : s.Admits req env values updateID currentValues)
    (hfew : (s.pending.size + 1 : ℤ) < s.settings.minUpdates) :
    (s.admitUpdate req values now env).2 =
      { s with pending := s.pending.insert req.nodeID (updateOf req updateID values) } := by
  have hsize := OrdMap.size_insert_of_none s.pending (updateOf req updateID values) h.fresh
  have hlt : ((s.pending.size + 1 : ℕ) : ℤ) < s.settings.minUpdates := by exact_mod_cast hfew
  rw [updateOf] at hsize
  simp only [admitUpdate, h.version, h.round, h.fresh, h.current, h.identifier, hsize, if_pos hlt,
    ne_eq, not_true_eq_false, if_false, Option.isSome_none, Bool.false_eq_true]
  rfl

theorem admitUpdate_closes (h : s.Admits req env values updateID currentValues)
    (henough : s.settings.minUpdates ≤ s.pending.size + 1) {aggregated values' : List Float32}
    {payload : Bytes}
    (hcloses : Closes s.settings
      (s.pending.insert req.nodeID (updateOf req updateID values)) env.order
      currentValues aggregated values' payload) :
    (s.admitUpdate req values now env).2 =
      { s with model := nextModel s.model payload now, pending := ∅ } := by
  have hsize := OrdMap.size_insert_of_none s.pending (updateOf req updateID values) h.fresh
  have hlt : ¬ ((s.pending.size + 1 : ℕ) : ℤ) < s.settings.minUpdates := by
    push_cast
    omega
  obtain ⟨haggregate, hadd, hencode⟩ := hcloses
  rw [updateOf] at hsize haggregate
  simp only [admitUpdate, closeRound, h.version, h.round, h.fresh, h.current, h.identifier, hsize,
    if_neg hlt, ne_eq, not_true_eq_false, if_false, Option.isSome_none, Bool.false_eq_true,
    haggregate, hadd, hencode]

end Admission

end Service

/-! ## Other submissions -/

namespace WorkerUpdate

variable {u v : WorkerUpdate} {s : Service} {modelID : String}

/-- The checks of a submission touch nothing of other nodes. -/
theorem Admissible.afterChecks (h : v.Admissible s) (hne : v.req.nodeID ≠ u.req.nodeID) :
    v.Admissible (s.afterChecks u.req u.now) := by
  have hsame := s.sameRound_afterChecks u.req u.now
  have hrates : (s.afterChecks u.req u.now).rates.get? v.req.nodeID =
      s.rates.get? v.req.nodeID := by
    have hallowed := (s.acceptNonceLocked u.req.nodeID
      (nonceOf u.req.security) u.now).2.get?_allowedRates u.req.nodeID u.now hne
    rw [Service.rates_acceptNonceLocked] at hallowed
    exact hallowed
  obtain ⟨entry, hentry⟩ := h.registered
  refine ⟨⟨entry, by rw [hsame.registry, hentry]⟩, by rw [hsame.model, h.version],
    by rw [hsame.model, h.round], ?_, ?_, by rw [hsame.pending, h.notPending], h.identifier⟩
  · rw [Service.acceptNonceLocked_iff]
    intro t ht
    rw [Service.afterChecks, Service.nonces_allowUpdateLocked] at ht
    rcases Service.of_get?_acceptNonceLocked ht with hold | ⟨hkey, -⟩
    · exact (Service.acceptNonceLocked_iff _ _ _ _).1 h.nonce t hold
    · exact absurd (Service.nonceKey_inj hkey).1 hne
  · rw [← h.rate]
    simp only [Service.allowUpdateLocked, hrates, hsame.settings]
    split_ifs <;> rfl

/-- The pending update of another node changes nothing but the pending updates. -/
theorem Admissible.inserted (h : v.Admissible s) (hne : v.req.nodeID ≠ u.req.nodeID)
    (p : PendingUpdate) : v.Admissible { s with pending := s.pending.insert u.req.nodeID p } where
  registered := h.registered
  version := h.version
  round := h.round
  nonce := by
    rw [Service.acceptNonceLocked_iff]
    exact (s.acceptNonceLocked_iff _ _ _).1 h.nonce
  rate := by
    rw [← h.rate]
    simp only [Service.allowUpdateLocked]
    split_ifs <;> rfl
  notPending := by
    rw [OrdMap.get?_insert_of_ne _ _ hne]
    exact h.notPending
  identifier := h.identifier

end WorkerUpdate

/-! ## The round -/

/-- Whatever lies between values of the honest vectors can be added to the model. -/
def StaysFinite (honest : List Float32 → Prop) (current : List Float32) : Prop :=
  ∀ index < current.length, ∀ low high, honest low → honest high → ∀ v : Float32,
    v.isFinite = true →
    low.getD index 0 ≤ v → v ≤ high.getD index 0 → (current.getD index 0 + v).isFinite = true

namespace Service

/-- The round has updates of one length, and those outside a minority are honest. -/
structure Gathering (s : Service) (F : Finset String) (honest : List Float32 → Prop)
    (current : List Float32) : Prop where
  method : s.settings.aggregationMethod = "median"
  minority : 2 * (F.card : ℤ) < s.settings.minUpdates
  vector : currentModelVector s.model current.length = .ok current
  length : ∀ p ∈ s.pending.values, p.values.length = current.length
  honest : ∀ p ∈ s.pending.values, p.nodeID ∉ F → honest p.values

variable {s : Service} {settings : Settings} {F : Finset String} {honest : List Float32 → Prop}
  {current : List Float32}

theorem FiniteVectors.insert {n : ℕ} {pending : OrdMap String PendingUpdate}
    (h : FiniteVectors n pending.values) {key : String} {p : PendingUpdate}
    (hlength : p.values.length = n) (hfinite : ∀ v ∈ p.values, isNonFinite v = false) :
    FiniteVectors n (pending.insert key p).values := by
  constructor
  · intro q hq
    rcases mem_values_insert hq with rfl | hq
    · exact hlength
    · exact h.length q hq
  · intro q hq
    rcases mem_values_insert hq with rfl | hq
    · exact hfinite
    · exact h.finite q hq

theorem keyed_insert {pending : OrdMap String PendingUpdate}
    (h : pending.Keyed PendingUpdate.nodeID) (p : PendingUpdate) :
    (pending.insert p.nodeID p).Keyed PendingUpdate.nodeID := by
  intro k q hq
  rw [OrdMap.get?_insert] at hq
  split_ifs at hq with hk
  · cases hq
    exact hk.symm
  · exact h k q hq

/-- With a quorum the round can be closed: the median lies between honest values. -/
theorem Gathering.closes (h : s.Gathering F honest current) (hs : s.Orderly settings)
    (hstays : StaysFinite honest current) {p : PendingUpdate}
    (hfresh : s.pending.get? p.nodeID = none) (hlength : p.values.length = current.length)
    (hfinite : ∀ v ∈ p.values, isNonFinite v = false) (hsmall : current.length * 4 < 2 ^ 63)
    (hhonest : honest p.values) (henough : s.settings.minUpdates ≤ s.pending.size + 1)
    (order : IterOrder) :
    ∃ aggregated values payload,
      Closes s.settings (s.pending.insert p.nodeID p) order current aggregated values payload := by
  have hn := (length_currentModelVector h.vector).1
  have hsize := OrdMap.size_insert_of_none s.pending p hfresh
  have hminority := h.minority
  obtain ⟨aggregated, haggregated, hlen, hbetween⟩ := aggregateMedian_between order hn
    (keyed_insert hs.keyed p)
    (FiniteVectors.insert ⟨h.length, hs.finite⟩ hlength hfinite) (F := F) (by omega)
  have haggregate : aggregatePendingUpdates order (s.pending.insert p.nodeID p) current.length
      s.settings.aggregationMethod = .ok aggregated := by
    rw [h.method]
    exact haggregated
  have hvector {q : PendingUpdate} (hq : q ∈ (s.pending.insert p.nodeID p).values)
      (hF : q.nodeID ∉ F) : honest q.values := by
    rcases mem_values_insert hq with rfl | hq
    · exact hhonest
    · exact h.honest q hq hF
  obtain ⟨values, hvalues⟩ := addVectors_succeeds hlen fun index hindex => by
    obtain ⟨hfin, ⟨low, hlow, hlowF, hle⟩, high, hhigh, hhighF, hge⟩ := hbetween index hindex
    exact hstays index hindex _ _ (hvector hlow hlowF) (hvector hhigh hhighF) _ hfin hle hge
  obtain ⟨hzip, hsums⟩ := addVectors_eq_some hvalues hlen.ge
  have hvlen : values.length = current.length := by
    rw [hzip, List.length_zipWith, hlen, Nat.min_self]
  obtain ⟨payload, hpayload, -⟩ := decodeNPYFloat32_encodeNPYFloat32
    (List.length_pos_iff_ne_nil.1 (by omega)) hsums (by omega)
  exact ⟨aggregated, values, payload, haggregate, hvalues, hpayload⟩

end Service

namespace WorkerUpdate

variable {u : WorkerUpdate} {s : Service} {modelID : String} {settings : Settings}
  {F : Finset String} {honest : List Float32 → Prop} {current : List Float32}

/-- The round after a submission that does not close it. -/
structure Gathered (u : WorkerUpdate) (settings : Settings) (F : Finset String)
    (honest : List Float32 → Prop) (current : List Float32) (s s' : Service) : Prop where
  orderly : s'.Orderly settings
  gathering : s'.Gathering F honest current
  sameModel : s'.model = s.model
  sameSettings : s'.settings = s.settings
  size : s'.pending.size = s.pending.size + 1
  others : ∀ v : WorkerUpdate, v.req.nodeID ≠ u.req.nodeID → v.Admissible s → v.Admissible s'

/-- A well-formed update is gathered, or closes the round. -/
theorem gathered_or_closed (hs : s.Orderly settings) (hgathering : s.Gathering F honest current)
    (hstays : StaysFinite honest current) (hform : u.WellFormed modelID s.settings.maxUpdateBytes)
    (h : u.Admissible s) (hlength : u.values.length = current.length) (hhonest : honest u.values) :
    let s' := (EnvelopeService.serve modelID s u.call).2
    s'.model.roundID = s.model.roundID + 1 ∧ s'.pending = ∅ ∨
      u.Gathered settings F honest current s s' := by
  have hvector := hgathering.vector
  rw [← hlength] at hvector
  have hserve := serve_eq hs hform h hvector
    (fun p hp => (hgathering.length p hp).trans hlength.symm)
  have hlocked := serve_submittingCall hform h
  have horderly : (s.submitLocalUpdateLocked u.req ⟨u.identity, u.values, u.now⟩
      (submittingCall u.call).env).2.Orderly settings := hs.submit _ hform.decodes
  have hsame := s.sameRound_afterChecks u.req u.now
  obtain ⟨-, hsmall, hfinite⟩ := decodeNPYFloat32_ok hform.decodes
  obtain ⟨updateID, hidentifier⟩ := h.identifier
  have hadmits : (s.afterChecks u.req u.now).Admits u.req
      (submittingCall u.call).env u.values updateID current :=
    ⟨by rw [hsame.model, h.version], by rw [hsame.model, h.round],
      by rw [hsame.pending, h.notPending], by rw [hsame.model, hvector], hidentifier⟩
  simp only [hserve, hlocked]
  rw [submitLocalUpdateLocked_eq h] at horderly ⊢
  by_cases hfew : (s.pending.size + 1 : ℤ) < s.settings.minUpdates
  · right
    rw [Service.admitUpdate_waits hadmits (by rwa [hsame.pending, hsame.settings])] at horderly ⊢
    refine ⟨horderly, ⟨?_, ?_, ?_, fun p hp => ?_, fun p hp hF => ?_⟩, hsame.model, hsame.settings,
        ?_, fun v hne hv =>
      (hv.afterChecks hne).inserted hne _⟩
    · exact (congrArg _ hsame.settings).trans hgathering.method
    · simp only [hsame.settings]
      exact hgathering.minority
    · simp only [hsame.model]
      exact hgathering.vector
    · rcases mem_values_insert hp with rfl | hp
      · exact hlength
      · exact hgathering.length p (hsame.pending ▸ hp)
    · rcases mem_values_insert hp with rfl | hp
      · exact hhonest
      · exact hgathering.honest p (hsame.pending ▸ hp) hF
    · simp only [hsame.pending]
      exact OrdMap.size_insert_of_none s.pending _ h.notPending
  · left
    obtain ⟨aggregated, values, payload, hcloses⟩ := hgathering.closes hs hstays
      (p := Service.updateOf u.req updateID u.values) h.notPending hlength hfinite
      (hlength ▸ hsmall) hhonest (by omega) (submittingCall u.call).env.order
    rw [Service.admitUpdate_closes hadmits (by rw [hsame.pending, hsame.settings]; omega)
      (by rw [hsame.settings, hsame.pending]; exact hcloses)]
    refine ⟨?_, rfl⟩
    simp only [Service.nextModel, hsame.model]

/-- Enough of them close the round. -/
theorem closes_round (hs : s.Orderly settings) (hgathering : s.Gathering F honest current)
    (hstays : StaysFinite honest current) {updates : List WorkerUpdate}
    (hform : ∀ u ∈ updates, u.WellFormed modelID s.settings.maxUpdateBytes)
    (h : ∀ u ∈ updates, u.Admissible s) (hlength : ∀ u ∈ updates, u.values.length = current.length)
    (hhonest : ∀ u ∈ updates, honest u.values) (hnodes : (updates.map fun u => u.req.nodeID).Nodup)
    (henough : s.settings.minUpdates ≤ s.pending.size + updates.length) :
    ∃ m ≤ updates.length,
      let s' := final (EnvelopeService.serve modelID) s ((updates.take m).map call)
      s'.model.roundID = s.model.roundID + 1 ∧ s'.pending = ∅ := by
  induction updates generalizing s with
  | nil =>
    have hquorum := hs.quorum
    simp only [List.length_nil] at henough
    omega
  | cons u updates ih =>
    rw [List.map_cons, List.nodup_cons] at hnodes
    rcases gathered_or_closed hs hgathering hstays (hform u List.mem_cons_self)
      (h u List.mem_cons_self)
      (hlength u List.mem_cons_self) (hhonest u List.mem_cons_self) with hclosed | hgathered
    · exact ⟨1, by simp, hclosed⟩
    have hother {v : WorkerUpdate} (hv : v ∈ updates) : v.req.nodeID ≠ u.req.nodeID :=
      fun heq => hnodes.1 (heq ▸ List.mem_map_of_mem hv)
    obtain ⟨m, hm, hclosed⟩ := ih hgathered.orderly hgathered.gathering
      (fun v hv => hgathered.sameSettings ▸ hform v (List.mem_cons_of_mem u hv))
      (fun v hv => hgathered.others v (hother hv) (h v (List.mem_cons_of_mem u hv)))
      (fun v hv => hlength v (List.mem_cons_of_mem u hv))
      (fun v hv => hhonest v (List.mem_cons_of_mem u hv)) hnodes.2 (by
        rw [hgathered.sameSettings, hgathered.size]
        simp only [List.length_cons] at henough
        push_cast at *
        omega)
    refine ⟨m + 1, by simpa using hm, ?_⟩
    rw [hgathered.sameModel] at hclosed
    exact hclosed

end WorkerUpdate

/-- The vector of a pending update of a node outside the minority, or of one of the submissions. -/
def HonestVector (s : Service) (F : Finset String) (updates : List WorkerUpdate)
    (values : List Float32) : Prop :=
  (∃ p ∈ s.pending.values, p.nodeID ∉ F ∧ p.values = values) ∨ ∃ u ∈ updates, u.values = values

/-- Enough well-formed updates of one length for the current round, whose values can be added to the
model. -/
structure HonestRound (modelID : String) (s : Service) (F : Finset String)
    (updates : List WorkerUpdate) (current : List Float32) : Prop where
  minority : 2 * (F.card : ℤ) < s.settings.minUpdates
  enough : s.settings.minUpdates ≤ s.pending.size + updates.length
  vector : currentModelVector s.model current.length = .ok current
  nodes : (updates.map fun u => u.req.nodeID).Nodup
  wellFormed : ∀ u ∈ updates, u.WellFormed modelID s.settings.maxUpdateBytes
  admissible : ∀ u ∈ updates, u.Admissible s
  length : ∀ u ∈ updates, u.values.length = current.length
  finite : StaysFinite (HonestVector s F updates) current

/-- In every reachable state, whatever a minority has pending, enough well-formed updates of one
length close the round; on a model without payload the pending updates have to have that length
too. -/
theorem faulty_minority_cannot_stall {registry : RegistrationStore} {cfg : Config} {clock : Clock}
    {service : Service} (hnew : newService registry cfg clock = .ok service)
    (hmethod : service.settings.aggregationMethod = "median") (modelID : String)
    (events : List (ThreadEvent Call)) (F : Finset String) (updates : List WorkerUpdate)
    (current : List Float32) :
    let s := (final (EnvelopeService.sections wrappedService modelID).step
      ⟨⟨service, none⟩, fun _ => none⟩ events).shared.inner
    HonestRound modelID s F updates current → s.Awaits current.length →
      ∃ m ≤ updates.length,
        let s' := final (EnvelopeService.serve modelID) s ((updates.take m).map WorkerUpdate.call)
        s'.model.roundID = s.model.roundID + 1 ∧ s'.pending = ∅ := by
  intro s hround hawaits
  have hs : s.Orderly service.settings := Service.orderly_reachable hnew modelID events
  have hlength : ∀ p ∈ s.pending.values, p.values.length = current.length := by
    by_cases hpayload : s.model.weightsPayload = []
    · exact hawaits hpayload
    · obtain ⟨values, hdecode⟩ := (hs.payload hpayload).decodes
      have hvalues := length_of_currentModelVector hpayload hround.vector hdecode
      exact fun p hp => (hs.length hpayload values hdecode p hp).trans hvalues
  have hgathering : s.Gathering F (HonestVector s F updates) current :=
    ⟨by rw [hs.settings, hmethod], hround.minority, hround.vector, hlength, fun p hp hF =>
      .inl ⟨p, hp, hF, rfl⟩⟩
  exact WorkerUpdate.closes_round hs hgathering hround.finite hround.wellFormed hround.admissible
    hround.length (fun u hu => .inr ⟨u, hu, rfl⟩) hround.nodes hround.enough

/-- The worker submits a vector to the bootstrap round, with its schema. -/
def sampleUpdate (name : String) (byte : UInt8) (values : List Float32) : WorkerUpdate where
  identity := Service.sampleWorker name
  req :=
    let payload := (encodeNPYFloat32 values).toOption.getD []
    let manifest := manifestForElementCount (UInt64.ofNat values.length)
    { nodeID := name
      registrationID := hexEncode (List.replicate 24 byte)
      roundID := 0
      baseModelVersion := "bootstrap"
      weightsPayload := payload
      weightsFormat := networkWeightsFormat
      updateSha256 := sha256 payload
      metrics := some ⟨1, 0, [], 1⟩
      security := some ⟨1700000000, List.replicate 16 byte⟩
      protocolVersion := 1
      modelID := "global-model"
      schemaSha256 := modelSchemaDigest manifest
      tensorManifest := manifest.map some }
  values := values
  env := Service.sampleEnv 1 byte

theorem weightsPayload_sampleUpdate (name : String) (byte : UInt8) (values : List Float32) :
    (sampleUpdate name byte values).req.weightsPayload =
      (encodeNPYFloat32 values).toOption.getD [] := rfl

/-- Three workers register, and the first one submits. -/
def faultyRun (values : List Float32) : List (ThreadEvent Call) :=
  List.flatten
    [callAndRun 0 3 (Service.sampleRegistration "worker-1" 0 7),
      callAndRun 0 3 (Service.sampleRegistration "worker-2" 0 8),
      callAndRun 0 3 (Service.sampleRegistration "worker-3" 0 9),
      callAndRun 0 7 (sampleUpdate "worker-1" 7 values).call]

/-- The service after the run. -/
def afterFaultyRun (values : List Float32) : Service :=
  (final (EnvelopeService.sections wrappedService "global-model").step
    ⟨⟨Service.waitingService, none⟩, fun _ => none⟩ (faultyRun values)).shared.inner

/-- Adding a finite value to zero gives a finite value. -/
theorem isFinite_zero_add {v : Float32} (hv : v.isFinite = true) :
    ((0 : Float32) + v).isFinite = true := by
  have hzero : (0 : Float32).toModel.unpack.isFinite = true := rfl
  have hvalue : value (0 : Float32).toModel.unpack = 0 := rfl
  have hsum := add_within (by decide) hzero hv (canonical32 0) (canonical32 v) (representable32 hv)
    (representable32 hv) (by rw [hvalue, zero_add, value32]) (by rw [hvalue, zero_add, value32])
  have hunpack : ((0 : Float32) + v).toModel.unpack = _ := unpack_pack32 hsum.canonical
  change ((0 : Float32) + v).toModel.unpack.isFinite = true
  rw [hunpack]
  exact hsum.finite

theorem exists_of_isOk {ε α : Type} {x : Except ε α} (h : x.toBool = true) : ∃ a, x = .ok a := by
  rcases x with e | a
  · cases h
  · exact ⟨a, rfl⟩

theorem wellFormed_sampleUpdate {name : String} (byte : UInt8) {values : List Float32}
    (hname : trimSpace name ≠ "")
    (hcredential : trimSpace (hexEncode (List.replicate 24 byte)) ≠ "")
    (hdecodes : decodeNPYFloat32 ((encodeNPYFloat32 values).toOption.getD []) = .ok values)
    (hsize : (((encodeNPYFloat32 values).toOption.getD []).length : ℤ) ≤ defaultMaxUpdateBytes)
    (hsecurity : validateSecurityMetadata (some ⟨1700000000, List.replicate 16 byte⟩)
      ((Service.sampleEnv 1 byte).clock.read 2) = .ok ()) :
    (sampleUpdate name byte values).WellFormed "global-model" defaultMaxUpdateBytes :=
  ⟨rfl, hname, hcredential, hdecodes, hsize, rfl, rfl, rfl, hsecurity, rfl, rfl, rfl, rfl⟩

/-- The updates of the other two workers. -/
def honestUpdates : List WorkerUpdate :=
  [sampleUpdate "worker-2" 8 [1], sampleUpdate "worker-3" 9 [2]]

theorem round_afterFaultyRun : (afterFaultyRun [100]).settings.minUpdates = 3 ∧
    (afterFaultyRun [100]).settings.maxUpdateBytes = defaultMaxUpdateBytes ∧
    (afterFaultyRun [100]).model.weightsPayload = [] ∧
      currentModelVector (afterFaultyRun [100]).model 1 = .ok [0] ∧
    (afterFaultyRun [100]).pending.size = 1 ∧
    (∀ p ∈ (afterFaultyRun [100]).pending.values, p.values.length = 1) ∧
    (afterFaultyRun [100]).pending.values.map (fun p => (p.nodeID, p.values)) =
      [("worker-1", [100])] := by
  decide +kernel

theorem admissible_honestUpdates : ∀ u ∈ honestUpdates, u.Admissible (afterFaultyRun [100]) := by
  have hchecks : ∀ u ∈ honestUpdates,
      ((afterFaultyRun [100]).registry.validate u.identity u.req.registrationID
        (u.env.clock.read 3)).toBool = true ∧
      u.req.baseModelVersion = (afterFaultyRun [100]).model.modelVersion ∧
      u.req.roundID = (afterFaultyRun [100]).model.roundID ∧
      ((afterFaultyRun [100]).acceptNonceLocked u.req.nodeID (nonceOf u.req.security) u.now).1 =
        true ∧
      ((afterFaultyRun [100]).allowUpdateLocked u.req.nodeID u.now).1 = true ∧
      (afterFaultyRun [100]).pending.get? u.req.nodeID = none ∧
        (secureIdentifier u.env).toBool = true := by
    decide +kernel
  intro u hu
  obtain ⟨hregistered, hversion, hround, hnonce, hrate, hpending, hidentifier⟩ := hchecks u hu
  exact ⟨exists_of_isOk hregistered, hversion, hround, hnonce, hrate, hpending,
    exists_of_isOk hidentifier⟩

theorem honestRound_afterFaultyRun : HonestRound "global-model" (afterFaultyRun [100])
    {"worker-1"} honestUpdates [0] := by
  obtain ⟨hmin, hmax, -, hvector, hsize, -⟩ := round_afterFaultyRun
  refine ⟨?_, ?_, hvector, by decide, ?_, admissible_honestUpdates, by decide +kernel,
    fun index hindex low high _ _ v hv _ _ => ?_⟩
  · rw [hmin]
    decide
  · rw [hmin, hsize]
    decide
  · rw [hmax]
    intro u hu
    simp only [honestUpdates, List.mem_cons, List.not_mem_nil, or_false] at hu
    rcases hu with rfl | rfl
    all_goals
      exact wellFormed_sampleUpdate _ (by decide) (by decide +kernel) (by decide +kernel)
        (by decide +kernel) (by decide +kernel)
  · obtain rfl : index = 0 := by simpa using hindex
    exact isFinite_zero_add hv

/-- A worker has a large update pending; two others close the round. -/
theorem faulty_minority_afterFaultyRun :
    (afterFaultyRun [100]).pending.values.map (fun p => (p.nodeID, p.values)) =
      [("worker-1", [100])] ∧
      ∃ m ≤ honestUpdates.length,
        (final (EnvelopeService.serve "global-model") (afterFaultyRun [100])
            ((honestUpdates.take m).map WorkerUpdate.call)).model.roundID =
            (afterFaultyRun [100]).model.roundID + 1 ∧
          (final (EnvelopeService.serve "global-model") (afterFaultyRun [100])
            ((honestUpdates.take m).map WorkerUpdate.call)).pending = ∅ := by
  obtain ⟨-, -, -, -, -, hlength, hpending⟩ := round_afterFaultyRun
  have hnew : newService newRegistrationStore ⟨0, 0, none, 3, 0, ""⟩ (Service.sampleEnv 0 0).clock =
      .ok Service.waitingService := rfl
  have hafter : (final (EnvelopeService.sections wrappedService "global-model").step
    ⟨⟨Service.waitingService, none⟩, fun _ => none⟩ (faultyRun [100])).shared.inner =
    afterFaultyRun [100] := rfl
  have hcloses := faulty_minority_cannot_stall hnew rfl "global-model" (faultyRun [100])
    {"worker-1"} honestUpdates [0]
  rw [hafter] at hcloses
  exact ⟨hpending, hcloses honestRound_afterFaultyRun fun _ => hlength⟩

/-! ## The bootstrap round -/

/-- A submission to a model without payload and with a pending update of another length changes
nothing. -/
theorem EnvelopeService.serve_squatted {E : Set Bytes} (hE : Set.InjOn sha256 E) {modelID : String}
    {s : Service} (hpayload : s.model.weightsPayload = [])
    (hpending : ∀ p ∈ s.pending.values, Encoded E p.values.length) {p : PendingUpdate}
    (hp : p ∈ s.pending.values) {c : Call} {req : SubmitLocalUpdateRequest}
    (hc : c.request = .submitLocalUpdate (some req)) (hencoded : ∀ n, Enveloped req n → Encoded E n)
    (hother : ∀ n, Enveloped req n → p.values.length ≠ n) : (serve modelID s c).2 = s := by
  simp only [serve, hc]
  rcases henvelope : validateUpdateEnvelope modelID req with e | ⟨⟨⟩⟩
  · rfl
  obtain ⟨n, hn⟩ := validateUpdateEnvelope_ok henvelope
  have hcheck : ∃ e, checkPendingSchema c.env.order req s.pending = .error e := by
    rcases hcheck : checkPendingSchema c.env.order req s.pending with e | ⟨⟨⟩⟩
    · exact ⟨e, rfl⟩
    · exact absurd (checkPendingSchema_ok hE hn (hencoded n hn) hpending hcheck p hp) (hother n hn)
  obtain ⟨e, hcheck⟩ := hcheck
  simp only [submitUpdate]
  rcases hread : s.getGlobalModel c.identity (some ⟨req.nodeID, req.registrationID⟩) c.env with
    e' | model
  · have hreading : (s.serve (readingCall c req)).1 = .error e' := by
      simp only [Service.serve, readingCall, hread]
      rfl
    simp only [hreading, afterReading]
  · have hreading : (s.serve (readingCall c req)).1 = .ok (.getGlobalModel model) := by
      simp only [Service.serve, readingCall, hread]
      rfl
    have hmodel : model = s.model := by
      simp only [Service.getGlobalModel] at hread
      split at hread
      · cases hread
      · cases hread
        rfl
    simp only [hreading, afterReading, hmodel, checkModelSchema_bootstrap modelID req hpayload,
      hcheck]

/-- On a model without payload one pending update keeps out all updates of other lengths: whatever
calls come in, the round stays as it is until an update of its length is submitted or its node is
revoked. -/
theorem squatted_bootstrap_stalls {E : Set Bytes} (hE : Set.InjOn sha256 E) (modelID : String)
    (s : Service) (hpayload : s.model.weightsPayload = [])
    (hpending : ∀ p ∈ s.pending.values, Encoded E p.values.length) (p : PendingUpdate)
    (hp : p ∈ s.pending.values) (calls : List Call)
    (hrevoke : ∀ c ∈ calls, ∀ req, c.request ≠ .revokeRegistration req)
    (hcalls : ∀ c ∈ calls, ∀ req n, c.request = .submitLocalUpdate (some req) → Enveloped req n →
      Encoded E n ∧ p.values.length ≠ n) : let s' := final (EnvelopeService.serve modelID) s calls
    s'.model = s.model ∧ s'.pending = s.pending := by
  induction calls generalizing s with
  | nil => exact ⟨rfl, rfl⟩
  | cons c calls ih =>
    have hstep : (EnvelopeService.serve modelID s c).2.model = s.model ∧
        (EnvelopeService.serve modelID s c).2.pending = s.pending := by
      have hpassed (hserve : (EnvelopeService.serve modelID s c).2 = (s.serve c).2)
          (hsubmit : ∀ req, c.request ≠ .submitLocalUpdate req) :
          (EnvelopeService.serve modelID s c).2.model = s.model ∧
            (EnvelopeService.serve modelID s c).2.pending = s.pending := by
        rw [hserve]
        exact Service.round_serve_other hsubmit (hrevoke c List.mem_cons_self)
      rcases hc : c.request with req | req | req | (_ | req) | req | req
      · exact hpassed (by simp only [EnvelopeService.serve, hc]) fun _ h => by cases hc.symm.trans h
      · exact hpassed (by simp only [EnvelopeService.serve, hc]) fun _ h => by cases hc.symm.trans h
      · exact hpassed (by simp only [EnvelopeService.serve, hc, Prod.map_snd, id_eq]) fun _ h => by
          cases hc.symm.trans h
      · simp only [EnvelopeService.serve, hc, and_self]
      · rw [EnvelopeService.serve_squatted hE hpayload hpending hp hc
          (fun n hn => (hcalls c List.mem_cons_self req n hc hn).1)
          fun n hn => (hcalls c List.mem_cons_self req n hc hn).2]
        exact ⟨rfl, rfl⟩
      · exact hpassed (by simp only [EnvelopeService.serve, hc]) fun _ h => by cases hc.symm.trans h
      · exact absurd hc (hrevoke c List.mem_cons_self req)
    obtain ⟨hmodel, hsame⟩ := hstep
    have hrest := ih (EnvelopeService.serve modelID s c).2 (by rw [hmodel, hpayload])
      (by rwa [hsame]) (by rwa [hsame])
      (fun d hd => hrevoke d (List.mem_cons_of_mem c hd)) fun d hd => hcalls d
      (List.mem_cons_of_mem c hd)
    rw [hmodel, hsame] at hrest
    exact hrest

/-- Another worker registers, and the two others submit longer vectors. -/
def squattedCalls : List Call :=
  [Service.sampleRegistration "worker-4" 1 10, (sampleUpdate "worker-2" 8 [1, 2]).call,
    (sampleUpdate "worker-3" 9 [1, 2]).call]

theorem mem_squattedCalls {c : Call} (h : c ∈ squattedCalls) :
    c = Service.sampleRegistration "worker-4" 1 10 ∨ c = (sampleUpdate "worker-2" 8 [1, 2]).call ∨
      c = (sampleUpdate "worker-3" 9 [1, 2]).call := by
  simpa only [squattedCalls, List.mem_cons, List.not_mem_nil, or_false] using h

theorem squatted_bootstrap_afterFaultyRun :
    (afterFaultyRun [100]).pending.values.map (fun p => (p.nodeID, p.values)) =
      [("worker-1", [100])] ∧
      (final (EnvelopeService.serve "global-model") (afterFaultyRun [100]) squattedCalls).pending =
        (afterFaultyRun [100]).pending := by
  have hsha : ∀ m ∈ [1, 2], ∀ n ∈ [1, 2],
      sha256 (writeSchema (manifestForElementCount (UInt64.ofNat m))) =
      sha256 (writeSchema (manifestForElementCount (UInt64.ofNat n))) → m = n := by
    decide +kernel
  have hE : Set.InjOn sha256
      {bytes | ∃ n ∈ [1, 2], bytes = writeSchema (manifestForElementCount (UInt64.ofNat n))} := by
    rintro _ ⟨m, hm, rfl⟩ _ ⟨n, hn, rfl⟩ heq
    rw [hsha m hm n hn heq]
  obtain ⟨-, -, hpayload, -, -, hlength, hpending⟩ := round_afterFaultyRun
  have hdecode : decodeNPYFloat32 ((encodeNPYFloat32 [1, 2]).toOption.getD []) = .ok [1, 2] := by
    decide +kernel
  obtain ⟨p, hp, -⟩ := List.mem_map.1 (hpending ▸ List.mem_singleton_self _)
  refine ⟨hpending, (squatted_bootstrap_stalls hE "global-model" _ hpayload
    (fun q hq => ?_) p hp squattedCalls (fun c hc req => ?_) fun c hc req n hreq hn => ?_).2⟩
  · rw [hlength q hq]
    exact ⟨by decide, 1, by decide, rfl⟩
  · rcases mem_squattedCalls hc with rfl | rfl | rfl <;> exact fun h => by cases h
  · rw [hlength p hp]
    obtain ⟨⟨values, hvalues, rfl⟩, -⟩ := hn
    have hpayload : req.weightsPayload = (encodeNPYFloat32 [1, 2]).toOption.getD [] := by
      rcases mem_squattedCalls hc with rfl | rfl | rfl
      · cases hreq
      · rw [WorkerUpdate.req_of_call hreq, weightsPayload_sampleUpdate]
      · rw [WorkerUpdate.req_of_call hreq, weightsPayload_sampleUpdate]
    rw [hpayload, hdecode, Except.ok.injEq] at hvalues
    rw [← hvalues]
    exact ⟨⟨by decide, 2, by decide, rfl⟩, by decide⟩

end ZeroTrustFL
