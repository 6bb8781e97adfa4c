import Mathlib
import ZeroTrustFL.Coordinator.AuditProof
import ZeroTrustFL.Coordinator.DurableProof

/-!
# Starting a durable coordinator

A durable coordinator that starts has passed the checks on its own snapshot, with the state that it
was configured with or the one that it has found in its store.  Either way it is recoverable.
-/

namespace ZeroTrustFL

/-! ## What a restore leaves -/

namespace RegistrationStore

theorem of_checkSnapshotEntry {e : Registration} (h : checkSnapshotEntry e = .ok ())
    (hexp : 0 < e.expiresAt) : e.WellFormed e.nodeID ∧ trimSpace e.registrationID ≠ "" := by
  simp only [checkSnapshotEntry, isZeroTime, Bool.not_eq_true', decide_eq_true_eq,
    decide_eq_false_iff_not] at h
  split_ifs at h with h₁ h₂ h₃ h₄ h₅ h₆ h₇
  simp only [not_or] at h₁
  refine ⟨⟨rfl, h₁.1, h₁.2.1, h₁.2.2.1, h₃, hexp, not_lt.1 h₄, fun hr => ?_, fun hr he =>
    h₆ ⟨hr, he⟩, fun hr => ?_⟩, h₁.2.2.2⟩
  · by_contra hne
    exact h₅ ⟨hr, hne⟩
  · by_contra hlt
    exact h₇ ⟨hr, not_le.1 hlt⟩

/-- The entries that a restore leaves are well formed and have an id. -/
theorem restoreEntries_wellFormed {now : ℤ} (hnow : 0 < now) {l : List Registration}
    {m m' : OrdMap String Registration} (h : l.foldlM (restoreEntry now) m = .ok m')
    (hm : ∀ n e, m.get? n = some e → e.WellFormed n ∧ trimSpace e.registrationID ≠ "") :
    ∀ n e, m'.get? n = some e → e.WellFormed n ∧ trimSpace e.registrationID ≠ "" := by
  induction l generalizing m with
  | nil =>
    cases h
    exact hm
  | cons x l ih =>
    rw [List.foldlM_cons] at h
    rcases hx : restoreEntry now m x with err | m₁
    · rw [hx] at h
      cases h
    · rw [hx] at h
      refine ih h ?_
      unfold restoreEntry at hx
      generalize normalizeLegacyRegistration x = e₁ at hx
      rcases hc : checkSnapshotEntry e₁ with err | ⟨⟨⟩⟩
      · simp only [hc, reduceCtorEq] at hx
      · simp only [hc] at hx
        split_ifs at hx with h₁ h₂
        · cases hx
          intro n e he
          rw [OrdMap.get?_insert] at he
          split_ifs at he with hn
          · cases he
            exact hn ▸ of_checkSnapshotEntry hc (hnow.trans h₂)
          · exact hm n e he
        · cases hx
          exact hm

theorem restoreSnapshot_wellFormed {r r' : RegistrationStore} {l : List Registration} {now : ℤ}
    (hnow : 0 < now) (h : r.restoreSnapshot l now = (.ok (), r')) : r'.WellFormed := by
  unfold restoreSnapshot at h
  rcases hf : l.foldlM (restoreEntry now) ∅ with err | m <;> rw [hf] at h <;> cases h
  exact fun n e he => (restoreEntries_wellFormed hnow hf (fun n e he => by cases he) n e he).1

end RegistrationStore

namespace DurableService

theorem keyed_restorePending (updates : List PendingUpdate) :
    (restorePending updates).Keyed PendingUpdate.nodeID := by
  intro k u hu
  have hloop := OrdMap.of_get?_foldl_insert (fun _ => False) PendingUpdate.nodeID id updates ∅
    (k := k) (v := u)
  simp only [if_false, id_eq] at hloop
  rcases hloop hu with ⟨u', -, hk, rfl⟩ | hnone
  · exact hk
  · cases hnone

theorem of_get?_restoreNonces {now : ℤ} {nonces : List PersistedNonce} {key : String} {seenAt : ℤ}
    (h : (restoreNonces now nonces).get? key = some seenAt) : ⟨key, seenAt⟩ ∈ nonces := by
  rcases OrdMap.of_get?_foldl_insert _ PersistedNonce.key PersistedNonce.seenAt nonces ∅ h with
    ⟨x, hx, rfl, rfl⟩ | hnone
  · exact hx
  · cases hnone

theorem of_get?_restoreRates {now : ℤ} {windows : List PersistedRateWindow} {n : String}
    {w : UpdateRateWindow} (h : (restoreRates now windows).get? n = some w) :
    ⟨n, w.startedAt, w.count⟩ ∈ windows := by
  rcases OrdMap.of_get?_foldl_insert _ PersistedRateWindow.nodeID
    (fun x => (⟨x.startedAt, x.count⟩ : UpdateRateWindow)) windows ∅ h with
    ⟨x, hx, rfl, rfl⟩ | hnone
  · exact hx
  · cases hnone

/-- A durable service whose maps are in order and whose snapshot passes the checks is
recoverable. -/
theorem recoverable_of_valid {d : DurableService} {clock : Clock}
    (hvalid : (d.captureSnapshot clock).Valid)
    (hkeyed : d.service.pending.Keyed PendingUpdate.nodeID)
    (hregistry : d.service.registry.WellFormed)
    (hnonces : ∀ k seenAt, d.service.nonces.get? k = some seenAt → trimSpace k ≠ "" ∧ seenAt ≠ 0)
    (hrates : ∀ n w, d.service.rates.get? n = some w →
      trimSpace n ≠ "" ∧ 0 < w.count ∧ w.count ≤ d.service.settings.maxUpdatesPerMinute) :
    d.Recoverable (clock.read 1) := by
  have hpending : (d.captureSnapshot clock).pending = d.service.pending.values :=
    hkeyed.insertionSort_values
  obtain ⟨n, hn, hlen⟩ := hvalid.model
  rw [hpending] at hlen
  have hquorum := hvalid.quorum
  rw [hpending, OrdMap.length_values] at hquorum
  have hregs := ((validateDistinct_ok_iff _ _ _ _ _).1 hvalid.registrations).1
  refine ⟨⟨⟨⟨n, hn⟩, hquorum, fun k u hu => ⟨hkeyed k u hu, hvalid.updates u ?_⟩⟩, hregistry, ?_,
    hnonces, hrates⟩, hvalid.policy, fun n' hn' => ?_⟩
  · rw [hpending]
    exact (OrdMap.mem_values_iff _).2 ⟨k, hu⟩
  · intro m e he hlive
    have hmem : e ∈ (d.captureSnapshot clock).registrations := by
      rw [registrations_captureSnapshot hregistry]
      exact (OrdMap.mem_values_iff _).2
        ⟨m, (RegistrationStore.get?_unexpired _ _ _ _).2 ⟨he, hlive⟩⟩
    exact ((checkPersistedRegistration_ok_iff e).1 (hregs e hmem)).2.2.2.1
  · obtain rfl : n = n' := Except.ok.inj (hn.symm.trans hn')
    exact hlen

theorem validateNonces_ok {nonces : List PersistedNonce} (h : validateNonces nonces = .ok ())
    {nonce : PersistedNonce} (hmem : nonce ∈ nonces) :
    trimSpace nonce.key ≠ "" ∧ nonce.seenAt ≠ 0 :=
  (checkPersistedNonce_ok_iff nonce).1 (((validateDistinct_ok_iff _ _ _ _ _).1 h).1 nonce hmem)

theorem validateRateWindows_ok {max : ℤ} {windows : List PersistedRateWindow}
    (h : validateRateWindows max windows = .ok ()) {w : PersistedRateWindow} (hmem : w ∈ windows) :
    trimSpace w.nodeID ≠ "" ∧ 0 < w.count ∧ w.count ≤ max := by
  obtain ⟨hnode, -, hpos, hle⟩ := (checkPersistedRateWindow_ok_iff max w).1
    (((validateDistinct_ok_iff _ _ _ _ _).1 h).1 w hmem)
  exact ⟨hnode, hpos, hle⟩

/-- The snapshot with the identity of the service where it has none. -/
def filled (d : DurableService) (snapshot : StateSnapshot) : StateSnapshot :=
  withModelID (withExperiment snapshot d.experiment) d.modelID

/-- Only the policy of a snapshot is filled in. -/
theorem filled_eq (d : DurableService) (snapshot : StateSnapshot) :
    d.filled snapshot = { snapshot with policy := (d.filled snapshot).policy } := by
  simp only [filled, withModelID, withExperiment]
  split_ifs <;> rfl

/-- What a restore that succeeds has checked and left. -/
structure Restored (d : DurableService) (snapshot : StateSnapshot) (clock : Clock)
    (registry : RegistrationStore) (d' : DurableService) : Prop where
  valid : (d.filled snapshot).Valid
  modelID : (d.filled snapshot).policy.modelID = d.modelID
  experiment : sameExperimentIdentity (d.filled snapshot).policy.experiment d.experiment = true
  policy : (d.filled snapshot).policy = { d.currentPolicy with
    experiment := { d.experiment with
      createdAt := (d.filled snapshot).policy.experiment.createdAt } }
  registrations :
    d.service.registry.restoreSnapshot snapshot.registrations (clock.read 1) = (.ok (), registry)
  eq : d' = ⟨{ d.service with
    registry := registry
    model := snapshot.model
    pending := restorePending snapshot.pending
    nonces := restoreNonces (clock.read 0) snapshot.nonces
    rates := restoreRates (clock.read 0) snapshot.rateWindows },
    (d.filled snapshot).policy.experiment, d.modelID⟩

theorem restoreSnapshot_restored {d d' : DurableService} {snapshot : StateSnapshot} {clock : Clock}
    (h : d.restoreSnapshot snapshot clock = (.ok (), d')) :
    ∃ registry, d.Restored snapshot clock registry d' := by
  have hfilled : withModelID (withExperiment snapshot d.experiment) d.modelID =
    d.filled snapshot := rfl
  simp only [restoreSnapshot, hfilled] at h
  rcases hv : validateStateSnapshot (d.filled snapshot) with e | ⟨⟨⟩⟩
  · simp only [hv] at h
    cases h
  simp only [hv] at h
  split_ifs at h with h₁ h₂ h₃
  · cases h
  · cases h
  · cases h
  have hparts := d.filled_eq snapshot
  have hregs : (d.filled snapshot).registrations = snapshot.registrations := by rw [hparts]
  rw [hregs] at h
  rcases hr : d.service.registry.restoreSnapshot snapshot.registrations (clock.read 1) with
    ⟨e | ⟨⟨⟩⟩, registry⟩
  · simp only [hr] at h
    cases h
  simp only [hr] at h
  cases h
  refine ⟨registry, (validateStateSnapshot_ok_iff _).1 hv, not_not.1 h₁, by simpa using h₂,
    not_not.1 h₃, hr, ?_⟩
  rw [hparts]

theorem restoreSnapshot_ok {d d' : DurableService} {snapshot : StateSnapshot} {clock : Clock}
    (h : d.restoreSnapshot snapshot clock = (.ok (), d')) :
    d'.service.settings = d.service.settings ∧ d'.modelID = d.modelID ∧
      sameExperimentIdentity d'.experiment d.experiment = true ∧
      d'.service.pending.Keyed PendingUpdate.nodeID ∧ d'.service.registry.WellFormed ∧
      (∀ k seenAt, d'.service.nonces.get? k = some seenAt → trimSpace k ≠ "" ∧ seenAt ≠ 0) ∧
      ∀ n w, d'.service.rates.get? n = some w →
        trimSpace n ≠ "" ∧ 0 < w.count ∧ w.count ≤ d'.service.settings.maxUpdatesPerMinute := by
  obtain ⟨registry, hr⟩ := restoreSnapshot_restored h
  have hvalid := hr.valid
  have hparts := d.filled_eq snapshot
  have hmax : (d.filled snapshot).policy.maxUpdatesPerMinute =
      d.service.settings.maxUpdatesPerMinute :=
    congrArg StatePolicy.maxUpdatesPerMinute hr.policy
  have hnonces : validateNonces snapshot.nonces = .ok () := by
    have hok := hvalid.nonces
    rwa [hparts] at hok
  have hrates : validateRateWindows d.service.settings.maxUpdatesPerMinute snapshot.rateWindows =
      .ok () := by
    have hok := hvalid.rateWindows
    rwa [hmax, hparts] at hok
  rw [hr.eq]
  refine ⟨rfl, rfl, hr.experiment, keyed_restorePending _,
    RegistrationStore.restoreSnapshot_wellFormed (clock.read_pos 1) hr.registrations,
    fun k seenAt hk => ?_, fun n w hw => ?_⟩
  · have hok := validateNonces_ok hnonces (of_get?_restoreNonces hk)
    exact hok
  · have hok := validateRateWindows_ok hrates (of_get?_restoreRates hw)
    exact hok

end DurableService

/-! ## The initial commit -/

theorem Store.checkCommit_ok_iff (st : Store) (snapshot : StateSnapshot)
    (events : List AuditEvent) :
    st.checkCommit snapshot events = .ok () ↔
      snapshot.Valid ∧ (st.audited = true → ∀ event ∈ events,
        validateAuditEvent event = .ok ()) := by
  constructor
  · intro h
    refine ⟨Store.valid_of_checkCommit h, fun haudited => ?_⟩
    simp only [Store.checkCommit,
      (validateStateSnapshot_ok_iff snapshot).2 (Store.valid_of_checkCommit h), haudited,
      if_true] at h
    rcases he : Store.validateAuditEvents 0 events with e | ⟨⟨⟩⟩
    · rw [he] at h
      cases h
    · exact (Store.validateAuditEvents_ok_iff 0 events).1 he
  · rintro ⟨hvalid, hevents⟩
    simp only [Store.checkCommit, (validateStateSnapshot_ok_iff snapshot).2 hvalid]
    by_cases haudited : st.audited = true
    · simp only [haudited, if_true,
        (Store.validateAuditEvents_ok_iff 0 events).2 (hevents haudited)]
    · rw [if_neg haudited]

variable {clock : Clock} {st : Store} {registry : RegistrationStore} {cfg : Config}
  {d : DurableService} {experimentConfig : ExperimentConfig} {modelID : String} {d' : DurableState}

/-- A store loads the valid snapshot that was committed to it. -/
theorem Store.load_of_state {snapshot : StateSnapshot}
    (h : st.state = some (coordinatorStateSchemaVersion, snapshot)) (hvalid : snapshot.Valid) :
    st.load = .ok (some snapshot) := by
  have hid : snapshot.policy.modelID ≠ "" := (validateStatePolicy_ok hvalid.policy).1
  simp only [Store.load, h, validateStateSnapshotForSchema, coordinatorStateSchemaVersion, if_true,
    if_neg hid, (validateStateSnapshot_ok_iff snapshot).2 hvalid]

theorem Store.load_ok {loaded : Option StateSnapshot} (h : st.load = .ok loaded) :
    st.persisted = loaded := by
  rcases hs : st.state with _ | ⟨version, snapshot⟩
  · simp only [Store.load, hs] at h
    cases h
    rw [Store.persisted, hs]
    rfl
  · simp only [Store.load, hs] at h
    rcases hv : validateStateSnapshotForSchema snapshot version with (e | e) | ⟨⟨⟩⟩ <;>
      simp only [hv, reduceCtorEq] at h
    cases h
    rw [Store.persisted, hs]
    rfl

/-- The snapshot that a starting coordinator commits. -/
structure Started (d : DurableService) (st : Store) (type : AuditEventType) (clock : Clock)
    (d' : DurableState) : Prop where
  durable : d'.durable = d
  store : d'.store = st.apply (d.captureSnapshot (clock.drop 3))
    [stateAuditEvent type (d.captureSnapshot clock) (clock.read 2)]
  valid : (d.captureSnapshot (clock.drop 3)).Valid
  event : st.audited = true →
    validateAuditEvent (stateAuditEvent type (d.captureSnapshot clock) (clock.read 2)) = .ok ()

theorem commitCurrentStateWithAudit_ok {type : AuditEventType} {outcome : CommitOutcome}
    {context : String} (h : commitCurrentStateWithAudit d st type clock outcome context = .ok d') :
    Started d st type clock d' := by
  simp only [commitCurrentStateWithAudit] at h
  rcases st.commit_eq (d.captureSnapshot (clock.drop 3))
      [stateAuditEvent type (d.captureSnapshot clock) (clock.read 2)] outcome with
    ⟨e | e, -, hcommit⟩ | ⟨hcheck, ⟨-, hcommit⟩ | ⟨applied, message, -, hcommit⟩⟩ <;>
    simp only [hcommit, reduceCtorEq] at h
  cases h
  obtain ⟨hvalid, hevents⟩ := (st.checkCommit_ok_iff _ _).1 hcheck
  exact ⟨rfl, rfl, hvalid, fun haudited => hevents haudited _ (List.mem_singleton.2 rfl)⟩

theorem commitCurrentStateWithAudit_succeeds {type : AuditEventType} (context : String)
    (hvalid : (d.captureSnapshot (clock.drop 3)).Valid)
    (hevent : st.audited = true →
      validateAuditEvent (stateAuditEvent type (d.captureSnapshot clock) (clock.read 2)) = .ok ()) :
    ∃ d', commitCurrentStateWithAudit d st type clock .success context = .ok d' := by
  have hcheck : st.checkCommit (d.captureSnapshot (clock.drop 3))
      [stateAuditEvent type (d.captureSnapshot clock) (clock.read 2)] = .ok () :=
    (st.checkCommit_ok_iff _ _).2 ⟨hvalid, fun haudited event hmem => by
      rw [List.mem_singleton.1 hmem]
      exact hevent haudited⟩
  exact ⟨_, by simp only [commitCurrentStateWithAudit, Store.commit, hcheck]; rfl⟩

/-- How a coordinator has started: with the configured state when its store was empty, and otherwise
with the stored one. -/
theorem recoverOrInitialize_ok {outcome : CommitOutcome}
    (h : recoverOrInitialize d st clock outcome = .ok d') :
    (st.load = .ok none ∧ Started d st .stateInitialized clock d') ∨
      ∃ snapshot d₁, st.load = .ok (some snapshot) ∧
      d.restoreSnapshot snapshot clock = (.ok (), d₁) ∧
        Started d₁ st .stateRecovered (clock.drop 2) d' := by
  unfold recoverOrInitialize at h
  rcases hl : st.load with (e | e) | _ | snapshot
  · rw [hl] at h
    cases h
  · rw [hl] at h
    cases h
  · rw [hl] at h
    exact .inl ⟨rfl, commitCurrentStateWithAudit_ok h⟩
  · rw [hl] at h
    simp only at h
    rcases hr : d.restoreSnapshot snapshot clock with ⟨(e | e) | ⟨⟨⟩⟩, d₁⟩ <;>
      simp only [hr, reduceCtorEq] at h
    exact .inr ⟨snapshot, d₁, rfl, hr, commitCurrentStateWithAudit_ok h⟩

/-- The parts a durable coordinator is built from. -/
structure Configured (registry : RegistrationStore) (cfg : Config)
    (experimentConfig : ExperimentConfig) (modelID : String) (clock : Clock) (d : DurableService) :
    Prop where
  modelID : normalizeModelID modelID = .ok d.modelID
  service : newService registry cfg clock = .ok d.service
  experiment : newExperimentMetadata experimentConfig
    (DurableService.basePolicy d.service.settings d.modelID ⟨"", "", 0⟩) (clock.read 1) =
    .ok d.experiment

theorem newDurableServiceWithIdentity_ok {outcome : CommitOutcome}
    (h : newDurableServiceWithIdentity registry cfg st experimentConfig modelID clock outcome =
      .ok d') :
    ∃ d, Configured registry cfg experimentConfig modelID clock d ∧
      recoverOrInitialize d st (clock.drop 2) outcome = .ok d' := by
  unfold newDurableServiceWithIdentity at h
  rcases hid : normalizeModelID modelID with e | id <;> simp only [hid, reduceCtorEq] at h
  rcases hs : newService registry cfg clock with e | service <;> simp only [hs, reduceCtorEq] at h
  rcases he : newExperimentMetadata experimentConfig
    (DurableService.basePolicy service.settings id ⟨"", "", 0⟩) (clock.read 1) with
    e | experiment <;> simp only [he, reduceCtorEq] at h
  exact ⟨⟨service, experiment, id⟩, ⟨hid, hs, he⟩, h⟩

theorem Configured.new (h : Configured registry cfg experimentConfig modelID clock d) (st : Store)
    (outcome : CommitOutcome) :
    newDurableServiceWithIdentity registry cfg st experimentConfig modelID clock outcome =
      recoverOrInitialize d st (clock.drop 2) outcome := by
  simp only [newDurableServiceWithIdentity, h.modelID, h.service, h.experiment]

theorem newService_ok {s : Service} (h : newService registry cfg clock = .ok s) :
    s.registry = registry ∧ s.pending = ∅ ∧ s.rates = ∅ ∧ s.nonces = ∅ := by
  unfold newService at h
  split at h
  · cases h
  · split at h
    · cases h
    · cases h
      exact ⟨rfl, rfl, rfl, rfl⟩

/-! ## Starting again with the same configuration -/

theorem newService_later {s : Service} (h : newService registry cfg clock = .ok s)
    (registry' : RegistrationStore) (clock' : Clock) :
    ∃ s', newService registry' cfg clock' = .ok s' ∧ s'.settings = s.settings := by
  unfold newService at h ⊢
  split at h
  · cases h
  · split at h
    · cases h
    · rename_i method hmethod _ model hmodel
      obtain ⟨model', hmodel'⟩ : ∃ model', checkInitialModel
          (cfg.initialModel.getD (bootstrapModel (clock'.read 0))) = .ok model' := by
        rcases hinit : cfg.initialModel with _ | m
        · exact ⟨_, rfl⟩
        · rw [hinit] at hmodel
          exact ⟨model, hmodel⟩
      cases h
      rw [hmodel']
      exact ⟨_, rfl, rfl⟩

theorem normalizeExperimentTime_ne_zero {now now' : ℤ} (hnow : 0 < now)
    (h : normalizeExperimentTime now ≠ 0) (hle : now ≤ now') :
    normalizeExperimentTime now' ≠ 0 := by
  simp only [normalizeExperimentTime, truncateMicrosecond] at h ⊢
  omega

/-- What makes up the identity of a configured experiment. -/
theorem newExperimentMetadata_ok {cfg : ExperimentConfig} {policy : StatePolicy} {now : ℤ}
    {metadata : ExperimentMetadata} (h : newExperimentMetadata cfg policy now = .ok metadata) :
    metadata.createdAt = normalizeExperimentTime now ∧ normalizeExperimentTime now ≠ 0 ∧
      ∀ now', normalizeExperimentTime now' ≠ 0 → newExperimentMetadata cfg policy now' =
        .ok { metadata with createdAt := normalizeExperimentTime now' } := by
  simp only [newExperimentMetadata] at h
  generalize hid : (if trimSpace cfg.id = "" then defaultExperimentID else trimSpace cfg.id) =
    id at h
  generalize hdigest : (if trimSpace cfg.configSHA256 = "" then
    coordinatorVisibleExperimentDigest policy else trimSpace cfg.configSHA256) = digest at h
  rcases h₁ : validateExperimentID id with e | ⟨⟨⟩⟩ <;> simp only [h₁, reduceCtorEq] at h
  rcases h₂ : validateExperimentConfigDigest digest with e | ⟨⟨⟩⟩ <;>
    simp only [h₂, reduceCtorEq] at h
  have hmeta : ∀ t, validateExperimentMetadata ⟨id, digest, normalizeExperimentTime t⟩ =
      if normalizeExperimentTime t = 0 then
        .error "experiment created_at must use UTC microsecond precision"
      else .ok () := by
    intro t
    have hidem : normalizeExperimentTime t = normalizeExperimentTime (normalizeExperimentTime t) :=
      (truncateMicrosecond_idem t).symm
    simp only [validateExperimentMetadata, h₁, h₂, isZeroTime, decide_eq_true_eq]
    by_cases hzero : normalizeExperimentTime t = 0
    · rw [if_pos (Or.inl hzero), if_pos hzero]
    · rw [if_neg (not_or.2 ⟨hzero, not_not.2 hidem⟩), if_neg hzero]
  rw [hmeta] at h
  by_cases hzero : normalizeExperimentTime now = 0
  · simp only [if_pos hzero, reduceCtorEq] at h
  · simp only [if_neg hzero] at h
    cases h
    refine ⟨rfl, hzero, fun now' hnow' => ?_⟩
    simp only [newExperimentMetadata, hid, hdigest, h₁, h₂, hmeta, if_neg hnow']

theorem sameExperimentIdentity_iff (left right : ExperimentMetadata) :
    sameExperimentIdentity left right = true ↔ left.id = right.id ∧
      left.configSHA256 = right.configSHA256 := by
  simp [sameExperimentIdentity]

theorem sameExperimentIdentity_trans {a b c : ExperimentMetadata}
    (hab : sameExperimentIdentity a b = true) (hbc : sameExperimentIdentity b c = true) :
    sameExperimentIdentity a c = true := by
  rw [sameExperimentIdentity_iff] at hab hbc ⊢
  exact ⟨hab.1.trans hbc.1, hab.2.trans hbc.2⟩

/-- The same configuration gives the same settings and identity later. -/
theorem Configured.later (h : Configured registry cfg experimentConfig modelID clock d)
    (registry' : RegistrationStore) {clock' : Clock} (hle : clock.read 1 ≤ clock'.read 1) :
    ∃ d', Configured registry' cfg experimentConfig modelID clock' d' ∧
      d'.service.settings = d.service.settings ∧ d'.modelID = d.modelID ∧
      sameExperimentIdentity d.experiment d'.experiment = true := by
  obtain ⟨s', hs', hsettings⟩ := newService_later h.service registry' clock'
  obtain ⟨-, hzero, hlater⟩ := newExperimentMetadata_ok h.experiment
  have hexp := hlater _ (normalizeExperimentTime_ne_zero (clock.read_pos 1) hzero hle)
  refine ⟨⟨s', { d.experiment with createdAt := normalizeExperimentTime (clock'.read 1) },
    d.modelID⟩, ⟨h.modelID, hs', ?_⟩, hsettings, rfl, ?_⟩
  · rw [hsettings]
    exact hexp
  · simp [sameExperimentIdentity]

/-- Two coordinators with the same configuration have the same settings and identity. -/
theorem Configured.unique {registry' : RegistrationStore} {clock' : Clock} {d' : DurableService}
    (h : Configured registry cfg experimentConfig modelID clock d)
    (h' : Configured registry' cfg experimentConfig modelID clock' d') :
    d'.service.settings = d.service.settings ∧ d'.modelID = d.modelID ∧
      sameExperimentIdentity d.experiment d'.experiment = true := by
  obtain ⟨s', hs', hsettings⟩ := newService_later h.service registry' clock'
  obtain rfl : s' = d'.service := Except.ok.inj (hs'.symm.trans h'.service)
  have hid : d'.modelID = d.modelID := Except.ok.inj (h'.modelID.symm.trans h.modelID)
  have hzero := (newExperimentMetadata_ok h'.experiment).2.1
  have hexp := (newExperimentMetadata_ok h.experiment).2.2 _ hzero
  have hexp' := h'.experiment
  rw [hsettings, hid, hexp] at hexp'
  rw [← Except.ok.inj hexp']
  exact ⟨hsettings, hid, (sameExperimentIdentity_iff _ _).2 ⟨rfl, rfl⟩⟩

/-- The identity of a coordinator that has started is the configured one. -/
theorem configured_new {outcome : CommitOutcome} {d : DurableState}
    (h : newDurableServiceWithIdentity registry cfg st experimentConfig modelID clock outcome =
      .ok d) :
    ∃ d₀, Configured registry cfg experimentConfig modelID clock d₀ ∧
      d.durable.service.settings = d₀.service.settings ∧ d.durable.modelID = d₀.modelID ∧
      sameExperimentIdentity d.durable.experiment d₀.experiment = true := by
  obtain ⟨d₀, hconf, hrec⟩ := newDurableServiceWithIdentity_ok h
  refine ⟨d₀, hconf, ?_⟩
  rcases recoverOrInitialize_ok hrec with ⟨-, hstart⟩ | ⟨snapshot, d₁, -, hrestore, hstart⟩
  · rw [hstart.durable]
    exact ⟨rfl, rfl, (sameExperimentIdentity_iff _ _).2 ⟨rfl, rfl⟩⟩
  · obtain ⟨hsettings, hid, hexp, -⟩ := DurableService.restoreSnapshot_ok hrestore
    rw [hstart.durable]
    exact ⟨hsettings, hid, hexp⟩

/-- A coordinator that has restored a state has committed it and is recoverable. -/
theorem started_recovered {d₀ d₁ : DurableService} {snapshot : StateSnapshot} {d : DurableState}
    (hrestore : d₀.restoreSnapshot snapshot (clock.drop 2) = (.ok (), d₁))
    (hstart : Started d₁ st .stateRecovered ((clock.drop 2).drop 2) d) :
    Started d.durable st .stateRecovered (clock.drop 4) d ∧
      d.durable.Recoverable ((clock.drop (4 + 3)).read 1) := by
  obtain ⟨-, -, -, hkeyed, hwf, hnonces, hrates⟩ := DurableService.restoreSnapshot_ok hrestore
  obtain rfl : d₁ = d.durable := hstart.durable.symm
  rw [Clock.drop_drop] at hstart
  have hvalid := hstart.valid
  rw [Clock.drop_drop] at hvalid
  exact ⟨hstart, DurableService.recoverable_of_valid hvalid hkeyed hwf hnonces hrates⟩

/-- A coordinator that has started has committed its state and is recoverable. -/
theorem started_new {outcome : CommitOutcome} {d : DurableState} (hregistry : registry.WellFormed)
    (h : newDurableServiceWithIdentity registry cfg st experimentConfig modelID clock outcome =
      .ok d) :
    ∃ type n, (type = .stateInitialized ∨ type = .stateRecovered) ∧
      Started d.durable st type (clock.drop n) d ∧
      d.durable.Recoverable ((clock.drop (n + 3)).read 1) := by
  obtain ⟨d₀, hconf, hrec⟩ := newDurableServiceWithIdentity_ok h
  rcases recoverOrInitialize_ok hrec with ⟨-, hstart⟩ | ⟨snapshot, d₁, -, hrestore, hstart⟩
  · obtain ⟨hreg, hpending, hrates, hnonces⟩ := newService_ok hconf.service
    obtain rfl : d₀ = d.durable := hstart.durable.symm
    have hvalid := hstart.valid
    rw [Clock.drop_drop] at hvalid
    refine ⟨.stateInitialized, 2, .inl rfl, hstart,
      DurableService.recoverable_of_valid hvalid ?_ ?_ ?_ ?_⟩
    · intro k u hu
      rw [hpending] at hu
      cases hu
    · rw [hreg]
      exact hregistry
    · intro k seenAt hk
      rw [hnonces] at hk
      cases hk
    · intro n w hw
      rw [hrates] at hw
      cases hw
  · obtain ⟨hstart, hrec⟩ := started_recovered hrestore hstart
    exact ⟨.stateRecovered, 4, .inr rfl, hstart, hrec⟩

end ZeroTrustFL
