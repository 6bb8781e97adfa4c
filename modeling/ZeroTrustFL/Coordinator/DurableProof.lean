import Mathlib
import ZeroTrustFL.Coordinator.Durable
import ZeroTrustFL.Coordinator.Sound

/-!
# Snapshots and calls of the durable coordinator

A snapshot of a recoverable service passes the checks and is restored to that service, up to what
has expired in the meantime.  With this, `serve_outcome` says what a call of the durable coordinator
can have done to its memory and to its store.
-/

namespace ZeroTrustFL

/-! ## The policy -/

theorem validateExperimentMetadata_ok {metadata : ExperimentMetadata}
    (h : validateExperimentMetadata metadata = .ok ()) : metadata.id ≠ "" := by
  unfold validateExperimentMetadata at h
  rcases hid : validateExperimentID metadata.id with e | ⟨⟨⟩⟩ <;> rw [hid] at h
  · cases h
  · unfold validateExperimentID at hid
    split_ifs at hid with h₁
    exact fun hempty => h₁ (.inl hempty)

theorem validatePersistedModelID_ok {value : String} (h : validatePersistedModelID value = .ok ()) :
    value ≠ "" := by
  unfold validatePersistedModelID at h
  rcases hn : normalizeModelID value with e | normalized <;> rw [hn] at h
  · cases h
  · rintro rfl
    cases hn

theorem validateStatePolicy_ok {policy : StatePolicy} (h : validateStatePolicy policy = .ok ()) :
    policy.modelID ≠ "" ∧ policy.experiment.id ≠ "" := by
  unfold validateStatePolicy at h
  split_ifs at h
  rcases hm : normalizeAggregationMethod policy.aggregationMethod with e | method <;> rw [hm] at h
  · cases h
  simp only at h
  split_ifs at h
  rcases hid : validatePersistedModelID policy.modelID with e | ⟨⟨⟩⟩ <;> rw [hid] at h
  · cases h
  simp only at h
  rcases hexp : validateExperimentMetadata policy.experiment with e | ⟨⟨⟩⟩ <;> rw [hexp] at h
  · cases h
  exact ⟨validatePersistedModelID_ok hid, validateExperimentMetadata_ok hexp⟩

/-- Filling in the identity of a snapshot that has one changes nothing. -/
theorem withModelID_withExperiment {snapshot : StateSnapshot} (hid : snapshot.policy.modelID ≠ "")
    (hexp : snapshot.policy.experiment.id ≠ "") (experiment : ExperimentMetadata)
    (modelID : String) : withModelID (withExperiment snapshot experiment) modelID = snapshot := by
  have hmissing : experimentMetadataMissing snapshot.policy.experiment = false := by
    simp [experimentMetadataMissing, hexp]
  rw [withExperiment, hmissing, withModelID]
  simp [hid]

/-! ## Capture -/

/-- The service without what has expired. -/
def Service.pruned (s : Service) (clock : Clock) : Service :=
  { s with
    registry := s.registry.unexpired (clock.read 1)
    nonces := s.nonces.filter fun _ seenAt => !DurableService.nonceExpired (clock.read 0) seenAt
    rates := s.rates.filter fun _ window =>
      !(isZeroTime window.startedAt || decide (minute ≤ clock.read 0 - window.startedAt)) }

namespace DurableService

/-- The state of the service can be captured and restored. -/
structure Recoverable (d : DurableService) (t : ℤ) : Prop where
  sound : d.service.Sound t
  policy : validateStatePolicy d.currentPolicy = .ok ()
  lengths : ∀ n, validateSnapshotModel d.service.model = .ok n →
    CommonLength n d.service.pending.values

variable {d : DurableService} {t : ℤ} {clock clock' : Clock}

theorem Recoverable.mono {t' : ℤ} (h : d.Recoverable t) (htt : t ≤ t') :
    d.Recoverable t' := { h with sound := h.sound.mono htt }

theorem pending_captureSnapshot (h : d.service.RoundSound) (clock : Clock) :
    (d.captureSnapshot clock).pending = d.service.pending.values := h.keyed.insertionSort_values

theorem registrations_captureSnapshot (h : d.service.registry.WellFormed) (clock : Clock) :
    (d.captureSnapshot clock).registrations =
      (d.service.registry.unexpired (clock.read 1)).entries.values :=
  RegistrationStore.snapshot_eq h _

theorem validateRegistrations_snapshot {r : RegistrationStore} (hr : r.WellFormed) {now : ℤ}
    (hid : r.Identified t) (ht : t ≤ now) : validateRegistrations (r.snapshot now) = .ok () := by
  rw [RegistrationStore.snapshot_eq hr]
  refine (validateDistinct_ok_iff _ _ _ _ _).2
    ⟨fun e he => ?_, (hr.unexpired now).keyed.nodup_values, by simp⟩
  obtain ⟨n, hn⟩ := (OrdMap.mem_values_iff _).1 he
  have hw := hr.unexpired now n e hn
  obtain ⟨hget, hlive⟩ := (RegistrationStore.get?_unexpired r now n e).1 hn
  exact (checkPersistedRegistration_ok_iff e).2
    ⟨hw.node, hw.role, hw.fingerprint, hid n e hget (lt_of_le_of_lt ht hlive), ne_of_gt hw.expires⟩

/-- The entries of a map whose entries pass a check, as a list that `validateDistinct` accepts. -/
theorem validateDistinct_entries {ν α : Type} (m : OrdMap String ν) {check : α → Except String Unit}
    {key : α → String} {duplicate : String → String} {make : String × ν → α}
    (hcheck : ∀ k v, m.get? k = some v → check (make (k, v)) = .ok ())
    (hkey : ∀ e, key (make e) = e.1) :
    validateDistinct check key duplicate [] (m.entries.map make) = .ok () := by
  refine (validateDistinct_ok_iff _ _ _ _ _).2 ⟨fun x hx => ?_, ?_, by simp⟩
  · obtain ⟨e, he, rfl⟩ := List.mem_map.1 hx
    exact hcheck e.1 e.2 (m.get?_eq_some_iff.2 he)
  · have hkeys : (m.entries.map make).map key = m.entries.map Prod.fst := by
      rw [List.map_map]
      exact List.map_congr_left fun e _ => hkey e
    rw [hkeys]
    exact m.nodup_keys

/-- The snapshot of a recoverable service passes the checks. -/
theorem Recoverable.valid (h : d.Recoverable t) (ht : t ≤ clock.read 1) :
    (d.captureSnapshot clock).Valid := by
  have hpending := pending_captureSnapshot h.sound.toRoundSound clock
  obtain ⟨n, hn⟩ := h.sound.model
  refine ⟨h.policy, ⟨n, hn, hpending ▸ h.lengths n hn⟩, ?_, ?_, ?_, ?_, ?_, ?_⟩
  · rw [hpending, OrdMap.length_values]
    exact h.sound.quorum
  · intro u hu
    rw [hpending] at hu
    obtain ⟨k, hk⟩ := (OrdMap.mem_values_iff _).1 hu
    exact (h.sound.pending k u hk).2
  · rw [hpending]
    exact h.sound.keyed.nodup_values
  · exact validateRegistrations_snapshot h.sound.wellFormed h.sound.identified ht
  · refine validateDistinct_entries _ (fun k v hk => ?_) fun e => rfl
    rw [OrdMap.get?_filter, Option.filter_eq_some_iff] at hk
    exact (checkPersistedNonce_ok_iff _).2 (h.sound.nonces k v hk.1)
  · refine validateDistinct_entries _ (fun k w hk => ?_) fun e => rfl
    rw [OrdMap.get?_filter, Option.filter_eq_some_iff] at hk
    obtain ⟨hnode, hpos, hle⟩ := h.sound.rates k w hk.1
    refine (checkPersistedRateWindow_ok_iff _ _).2 ⟨hnode, fun hzero => ?_, hpos, hle⟩
    have hkept := hk.2
    simp only [isZeroTime, Bool.not_eq_true', Bool.or_eq_false_iff,
      decide_eq_false_iff_not] at hkept
    exact hkept.1 hzero

/-! ## Restore -/

theorem restoreNonces_captureSnapshot (d : DurableService) (hle : clock.read 0 ≤ clock'.read 0) :
    restoreNonces (clock'.read 0) (d.captureSnapshot clock).nonces =
      (d.service.pruned clock').nonces := by
  rw [restoreNonces, captureSnapshot, List.foldl_map]
  refine (OrdMap.foldl_insert_entries _ fun _ seenAt =>
    nonceExpired (clock'.read 0) seenAt).trans ?_
  refine OrdMap.filter_filter _ _ _ fun k seenAt hk => ?_
  simp only [nonceExpired, Bool.not_eq_true', decide_eq_false_iff_not] at hk ⊢
  omega

theorem restoreRates_captureSnapshot (d : DurableService) (hle : clock.read 0 ≤ clock'.read 0) :
    restoreRates (clock'.read 0) (d.captureSnapshot clock).rateWindows =
      (d.service.pruned clock').rates := by
  have hloop := OrdMap.foldl_insert_entries
    (d.service.rates.filter fun _ window =>
      !(isZeroTime window.startedAt || decide (minute ≤ clock.read 0 - window.startedAt)))
    fun _ window => decide (minute ≤ clock'.read 0 - window.startedAt)
  simp only [decide_eq_true_eq] at hloop
  rw [restoreRates, captureSnapshot, List.foldl_map]
  refine hloop.trans (OrdMap.ext_get? fun n => Option.ext fun w => ?_)
  simp only [Service.pruned, OrdMap.get?_filter, Option.filter_eq_some_iff, Bool.not_eq_true',
    Bool.or_eq_false_iff, decide_eq_false_iff_not]
  constructor
  · exact fun hw => ⟨hw.1.1, hw.1.2.1, hw.2⟩
  · exact fun hw => ⟨⟨hw.1, hw.2.1, by omega⟩, hw.2.2⟩

/-- A snapshot of a recoverable service is restored later, on this or any other service with the
same settings and identity, to what it was taken of without what has expired. -/
theorem Recoverable.restoreSnapshot {d' : DurableService} (h : d.Recoverable t)
    (ht : t ≤ clock.read 1) (hle : clock.read 1 ≤ clock'.start)
    (hsettings : d'.service.settings = d.service.settings) (hid : d'.modelID = d.modelID)
    (hexp : sameExperimentIdentity d.experiment d'.experiment = true) :
    d'.restoreSnapshot (d.captureSnapshot clock) clock' =
      (.ok (), { d with service := d.service.pruned clock' }) := by
  obtain ⟨hmodelID, hexpID⟩ := validateStatePolicy_ok h.policy
  have hpolicy : (d.captureSnapshot clock).policy = d.currentPolicy := rfl
  have hvalid := (validateStateSnapshot_ok_iff _).2 (h.valid ht)
  have hread : clock.read 0 ≤ clock'.read 0 := (clock.read_le_read zero_le_one).trans hle
  have hregistry : d'.service.registry.restoreSnapshot (d.captureSnapshot clock).registrations
      (clock'.read 1) = (.ok (), d.service.registry.unexpired (clock'.read 1)) :=
    RegistrationStore.restoreSnapshot_snapshot h.sound.wellFormed h.sound.identified ht
      (hle.trans (clock'.start_le_read 1)) d'.service.registry
  have hexpeq : d.experiment.id = d'.experiment.id ∧
      d.experiment.configSHA256 = d'.experiment.configSHA256 := by
    simpa [sameExperimentIdentity] using hexp
  have hsame : (d.captureSnapshot clock).policy = { d'.currentPolicy with
      experiment := { d'.experiment with
        createdAt := (d.captureSnapshot clock).policy.experiment.createdAt } } := by
    rw [hpolicy, currentPolicy, currentPolicy, hsettings, hid]
    simp only [basePolicy, ← hexpeq.1, ← hexpeq.2]
  have hfill : withModelID (withExperiment (d.captureSnapshot clock) d'.experiment) d'.modelID =
      d.captureSnapshot clock := withModelID_withExperiment hmodelID hexpID _ _
  have hpending : restorePending (d.captureSnapshot clock).pending = d.service.pending := by
    rw [pending_captureSnapshot h.sound.toRoundSound]
    exact h.sound.keyed.foldl_insert_values
  have hnonces := d.restoreNonces_captureSnapshot hread
  have hrates := d.restoreRates_captureSnapshot hread
  have hidne : ¬ (d.captureSnapshot clock).policy.modelID ≠ d'.modelID := not_not.2 hid.symm
  have hexpne : ¬ (!sameExperimentIdentity
      (d.captureSnapshot clock).policy.experiment d'.experiment) = true := by
    show ¬ (!sameExperimentIdentity d.experiment d'.experiment) = true
    simp [hexp]
  simp only [DurableService.restoreSnapshot, hfill, hvalid, if_neg hidne, if_neg hexpne,
    if_neg (not_not.2 hsame), hregistry, hpending, hnonces, hrates]
  rw [hsettings, hid]
  rfl

end DurableService

/-! ## Commits -/

namespace Store

theorem persisted_apply (st : Store) (snapshot : StateSnapshot) (events : List AuditEvent) :
    (st.apply snapshot events).persisted = some snapshot := rfl

theorem validateAuditEvents_ok_iff (index : ℕ) (events : List AuditEvent) :
    validateAuditEvents index events = .ok () ↔
      ∀ event ∈ events, validateAuditEvent event = .ok () := by
  induction events generalizing index with
  | nil => simp [validateAuditEvents]
  | cons event events ih =>
    simp only [validateAuditEvents]
    rcases hv : validateAuditEvent event with e | ⟨⟨⟩⟩
    · simp [hv]
    · simp only [ih, List.mem_cons, forall_eq_or_imp, hv, true_and]

/-- What a commit does to the store: nothing when its checks fail, and otherwise what its outcome
says. -/
theorem commit_eq (st : Store) (snapshot : StateSnapshot) (events : List AuditEvent)
    (outcome : CommitOutcome) :
    (∃ e, st.checkCommit snapshot events = .error e ∧
      st.commit snapshot events outcome = (.error e, st)) ∨
    st.checkCommit snapshot events = .ok () ∧
      ((outcome = .success ∧ st.commit snapshot events outcome =
        (.ok (), st.apply snapshot events)) ∨
        ∃ applied message, outcome = .failure applied message ∧ st.commit snapshot events outcome =
          (.error (.error message), if applied then st.apply snapshot events else st)) := by
  unfold commit
  rcases hcheck : st.checkCommit snapshot events with e | ⟨⟨⟩⟩
  · exact .inl ⟨e, rfl, rfl⟩
  · right
    rcases outcome with _ | ⟨applied, message⟩
    · exact ⟨rfl, .inl ⟨rfl, rfl⟩⟩
    · exact ⟨rfl, .inr ⟨applied, message, rfl, rfl⟩⟩

theorem audited_commit (st : Store) (snapshot : StateSnapshot) (events : List AuditEvent)
    (outcome : CommitOutcome) : (st.commit snapshot events outcome).2.audited = st.audited := by
  rcases st.commit_eq snapshot events outcome with
    ⟨e, -, hcommit⟩ | ⟨-, ⟨-, hcommit⟩ | ⟨applied, message, -, hcommit⟩⟩ <;> rw [hcommit]
  · rfl
  · cases applied <;> rfl

theorem valid_of_checkCommit {st : Store} {snapshot : StateSnapshot} {events : List AuditEvent}
    (h : st.checkCommit snapshot events = .ok ()) : snapshot.Valid := by
  unfold checkCommit at h
  rcases hv : validateStateSnapshot snapshot with (e | e) | ⟨⟨⟩⟩ <;> rw [hv] at h
  · cases h
  · cases h
  · exact (validateStateSnapshot_ok_iff snapshot).1 hv

theorem checkCommit_nil {st : Store} {snapshot : StateSnapshot} (h : snapshot.Valid) :
    st.checkCommit snapshot [] = .ok () := by
  simp only [checkCommit, (validateStateSnapshot_ok_iff snapshot).2 h, validateAuditEvents,
    ite_self]

/-- With a model that decodes, the checks before a commit never panic. -/
theorem checkCommit_ne_crash {st : Store} {snapshot : StateSnapshot} {events : List AuditEvent}
    {n : ℕ} (hm : validateSnapshotModel snapshot.model = .ok n) (e : String) :
    st.checkCommit snapshot events ≠ .error (.crash e) := by
  intro h
  unfold checkCommit at h
  rcases hv : validateStateSnapshot snapshot with (e' | e') | ⟨⟨⟩⟩
  · rw [hv] at h
    cases h
  · exact validateStateSnapshot_ne_crash hm e' hv
  · simp only [hv] at h
    split_ifs at h
    · rcases he : validateAuditEvents 0 events with e' | ⟨⟨⟩⟩ <;> rw [he] at h <;> cases h

end Store

/-! ## Calls -/

/-- The call as the service gets it, after the snapshot that is taken before it. -/
def DurableCall.inner (c : DurableCall) : Call :=
  { c.call with env := { c.call.env with clock := c.call.env.clock.drop 2 } }

/-- The events of a call that has been answered. -/
def auditEvents (settings : Settings) (before after : StateSnapshot) (clock : Clock) :
    Request → Response → List AuditEvent
  | .registerNode req, .registerNode response =>
    req.toList.map fun req => registrationAuditEvent req response after (clock.read 0)
  | .heartbeat req, .heartbeat response =>
    req.toList.map fun req => heartbeatAuditEvent req response after (clock.read 0)
  | .submitLocalUpdate req, .submitLocalUpdate response =>
    req.toList.flatMap fun req => updateAuditEvents settings req response before after clock
  | .rotateRegistration req, .rotateRegistration response =>
    req.toList.map fun req => rotationAuditEvent req response after (clock.read 0)
  | .revokeRegistration req, .revokeRegistration response =>
    req.toList.map fun req => revocationAuditEvent req response after (clock.read 0)
  | _, _ => []

namespace DurableState

/-- The durable coordinator with another state of its service. -/
def withService (d : DurableState) (service : Service) : DurableState :=
  { d with durable := { d.durable with service := service } }

/-- The snapshots that a call takes before and after it has run, and the events of its
transition. -/
def before (d : DurableState) (c : DurableCall) : StateSnapshot :=
  d.durable.captureSnapshot c.call.env.clock

@[inherit_doc before]
def after (d : DurableState) (c : DurableCall) : StateSnapshot :=
  (d.withService (d.durable.service.serve c.inner).2).durable.captureSnapshot
    (c.call.env.clock.drop 6)

@[inherit_doc before]
def transitionEvents (d : DurableState) (c : DurableCall) (response : Response) : List AuditEvent :=
  auditEvents d.durable.service.settings (d.before c) (d.after c)
    (c.call.env.clock.drop 8) c.call.request response

/-- A mutating call fails in the service, or its transition is committed or rolled back. -/
inductive Attempts (d : DurableState) (c : DurableCall) :
    Except Failure Response × DurableState → Prop where
  | rejected {e : Failure} {service : Service}
      (ran : d.durable.service.serve c.inner = (.error e, service)) :
      Attempts d c (.error e, d.withService service)
  | attempted {response : Response} {service : Service} (operation : String)
      (ran : d.durable.service.serve c.inner = (.ok response, service)) :
      Attempts d c (((d.withService service).commitOrRollbackTransition (d.before c)
        (d.after c) operation
        (d.transitionEvents c response) (c.call.env.clock.drop 10) c.outcomes).map
          (Except.map fun _ => response) id)

theorem mutate_attempts {α : Type} (d : DurableState) (c : DurableCall) (kind : α → Response)
    (operation : String) (run : Service → Env → Except Failure α × Service)
    (events : α → StateSnapshot → StateSnapshot → Clock → List AuditEvent)
    (hserve : d.durable.service.serve c.inner =
      (run d.durable.service c.inner.env).map (Except.map kind) id)
    (hevents : ∀ a, events a (d.before c) (d.after c) (c.call.env.clock.drop 8) =
      d.transitionEvents c (kind a)) :
    d.Attempts c ((d.mutate c.call.env c.outcomes operation run events).map
      (Except.map kind) id) := by
  rcases hrun : run d.durable.service c.inner.env with ⟨e | a, service⟩
  · have hrun' : run d.durable.service { c.call.env with clock := c.call.env.clock.drop 2 } =
      (.error e, service) := hrun
    simp only [mutate, hrun']
    exact .rejected (by rw [hserve, hrun]; rfl)
  · have hrun' : run d.durable.service { c.call.env with clock := c.call.env.clock.drop 2 } =
      (.ok a, service) := hrun
    have hserved : d.durable.service.serve c.inner = (.ok (kind a), service) := by
      rw [hserve, hrun]
      rfl
    have hafter : (d.withService service).durable.captureSnapshot
        (c.call.env.clock.drop 6) = d.after c := by
      rw [after, hserved]
    have hout := Attempts.attempted operation hserved
    rw [← hevents, ← hafter] at hout
    convert hout using 1
    simp only [mutate, hrun', before, withService]
    split <;> rename_i heq <;> rw [heq] <;> rfl

/-- A call reads the model or is a mutating call. -/
theorem serve_attempts (d : DurableState) (c : DurableCall) :
    (∃ req, c.call.request = .getGlobalModel req ∧ (d.serve c).2 = d) ∨
      d.Attempts c (d.serve c) := by
  have hinner : c.inner.request = c.call.request := rfl
  rcases hc : c.call.request with req | req | req | req | req | req <;> rw [hc] at hinner <;>
    simp only [serve, hc]
  · right
    exact d.mutate_attempts c .registerNode _ _ _ (by simp only [Service.serve, hinner]; rfl)
      fun a => by simp only [transitionEvents, auditEvents, hc]
  · right
    exact d.mutate_attempts c .heartbeat _ _ _ (by simp only [Service.serve, hinner]; rfl)
      fun a => by simp only [transitionEvents, auditEvents, hc]
  · exact .inl ⟨req, rfl, trivial⟩
  · right
    exact d.mutate_attempts c .submitLocalUpdate _ _ _ (by simp only [Service.serve, hinner]; rfl)
      fun a => by simp only [transitionEvents, auditEvents, hc]
  · right
    exact d.mutate_attempts c .rotateRegistration _ _ _ (by simp only [Service.serve, hinner]; rfl)
      fun a => by simp only [transitionEvents, auditEvents, hc]
  · right
    exact d.mutate_attempts c .revokeRegistration _ _ _ (by simp only [Service.serve, hinner]; rfl)
      fun a => by simp only [transitionEvents, auditEvents, hc]

theorem commitOrRollbackTransition_of_ok {d : DurableState} {before after : StateSnapshot}
    {operation : String} {events : List AuditEvent} {clock : Clock} {outcomes : CommitOutcomes}
    {st : Store} (hcommit : d.store.commit after events outcomes.forward = (.ok (), st)) :
    d.commitOrRollbackTransition before after operation events clock outcomes =
      (.ok (), ⟨d.durable, st⟩) := by
  simp only [commitOrRollbackTransition, hcommit]

/-- After a forward commit that reports a failure memory is restored, and the store is the one that
the rollback commit leaves. -/
theorem commitOrRollbackTransition_of_error {d : DurableState} {before after : StateSnapshot}
    (operation : String) {events : List AuditEvent} {clock : Clock} {outcomes : CommitOutcomes}
    {e : String} {st : Store} {durable : DurableService}
    (hcommit : d.store.commit after events outcomes.forward = (.error (.error e), st))
    (hrestore : d.durable.restoreSnapshot before clock = (.ok (), durable)) :
    ∃ message, d.commitOrRollbackTransition before after operation events clock outcomes =
      (.error (.status .internal message),
        ⟨durable, (st.commit before [] outcomes.rollback).2⟩) := by
  simp only [commitOrRollbackTransition, hcommit, hrestore]
  rcases st.commit before [] outcomes.rollback with ⟨e | ⟨⟨⟩⟩, st'⟩
  · exact ⟨_, rfl⟩
  · exact ⟨_, rfl⟩

/-- The rollback commit of a valid snapshot takes effect or leaves the store as it is. -/
theorem rollback_cases {snapshot : StateSnapshot} (h : snapshot.Valid) (st : Store)
    (outcome : CommitOutcome) :
    (st.commit snapshot [] outcome).2 = st.apply snapshot [] ∨
      (∃ message, outcome = .failure false message) ∧ (st.commit snapshot [] outcome).2 = st := by
  rcases st.commit_eq snapshot [] outcome with
    ⟨e, hcheck, -⟩ | ⟨-, ⟨-, hcommit⟩ | ⟨applied, message, houtcome, hcommit⟩⟩
  · rw [Store.checkCommit_nil h] at hcheck
    cases hcheck
  · rw [hcommit]
    exact .inl rfl
  · rw [hcommit]
    cases applied
    · exact .inr ⟨⟨message, houtcome⟩, rfl⟩
    · exact .inl rfl

/-- The durable service after a rollback: what it was before the call, without what has expired. -/
def restored (d : DurableState) (c : DurableCall) : DurableService :=
  { d.durable with service := d.durable.service.pruned (c.call.env.clock.drop 10) }

/-- The store after a forward commit that reported a failure: the commit has had no effect, or it
has been applied. -/
inductive Forwarded (d : DurableState) (c : DurableCall) (response : Response) : Store → Prop where
  | unchanged : Forwarded d c response d.store
  | applied {message : String}
      (check : d.store.checkCommit (d.after c) (d.transitionEvents c response) = .ok ())
      (forward : c.outcomes.forward = .failure true message) :
      Forwarded d c response (d.store.apply (d.after c) (d.transitionEvents c response))

/-- What a call of a recoverable coordinator does. -/
inductive Outcome (d : DurableState) (c : DurableCall) :
    Except Failure Response × DurableState → Prop where
  | read {result : Except Failure Response} {req : Option GetGlobalModelRequest}
      (request : c.call.request = .getGlobalModel req) : Outcome d c (result, d)
  | rejected {e : Failure} {service : Service}
      (ran : d.durable.service.serve c.inner = (.error e, service)) :
      Outcome d c (.error e, d.withService service)
  | committed {response : Response} {service : Service}
      (ran : d.durable.service.serve c.inner = (.ok response, service))
      (check : d.store.checkCommit (d.after c) (d.transitionEvents c response) = .ok ()) :
      Outcome d c (.ok response,
        ⟨(d.withService service).durable,
          d.store.apply (d.after c) (d.transitionEvents c response)⟩)
  | rolledBack {e : Failure} {response : Response} {service : Service} {st : Store}
      (ran : d.durable.service.serve c.inner = (.ok response, service))
      (forwarded : d.Forwarded c response st) :
      Outcome d c (.error e, ⟨d.restored c, st.apply (d.before c) []⟩)
  | uncompensated {e : Failure} {response : Response} {service : Service} {st : Store}
      {message : String} (ran : d.durable.service.serve c.inner = (.ok response, service))
      (forwarded : d.Forwarded c response st)
      (rollback : c.outcomes.rollback = .failure false message) :
      Outcome d c (.error e, ⟨d.restored c, st⟩)

section

variable {d : DurableState} {t : ℤ} (h : d.durable.Recoverable t) {c : DurableCall}
  (ht : t ≤ c.call.env.clock.start)
include h ht

theorem sound_served : (d.durable.service.serve c.inner).2.Sound t :=
  h.sound.serve (ht.trans (c.call.env.clock.start_le_read 2))

theorem before_valid : (d.before c).Valid := h.valid (ht.trans (c.call.env.clock.start_le_read 1))

/-- The rollback of a call in memory succeeds. -/
theorem restoreSnapshot_before :
    (d.withService (d.durable.service.serve c.inner).2).durable.restoreSnapshot (d.before c)
      (c.call.env.clock.drop 10) = (.ok (), d.restored c) :=
  h.restoreSnapshot (ht.trans (c.call.env.clock.start_le_read 1))
    (c.call.env.clock.read_le_read (by decide)) (Service.settings_serve _ _) rfl
    (by simp [sameExperimentIdentity, withService])

theorem after_ne_crash (response : Response) (e : String) :
    d.store.checkCommit (d.after c) (d.transitionEvents c response) ≠ .error (.crash e) := by
  obtain ⟨n, hn⟩ := (sound_served h ht).model
  have hmodel : (d.after c).model = (d.durable.service.serve c.inner).2.model := rfl
  exact Store.checkCommit_ne_crash (hmodel ▸ hn) e

/-- A transition whose forward commit reports a failure is rolled back. -/
theorem outcome_of_error {response : Response} {service : Service}
    (ran : d.durable.service.serve c.inner = (.ok response, service)) (operation : String)
    {e : String} {st : Store}
    (hcommit : d.store.commit (d.after c) (d.transitionEvents c response) c.outcomes.forward =
      (.error (.error e), st)) (hforwarded : d.Forwarded c response st) :
    d.Outcome c (((d.withService service).commitOrRollbackTransition (d.before c)
      (d.after c) operation
      (d.transitionEvents c response) (c.call.env.clock.drop 10) c.outcomes).map
        (Except.map fun _ => response) id) := by
  have hrestore := restoreSnapshot_before h ht
  rw [ran] at hrestore
  have hcommit' : (d.withService service).store.commit (d.after c) (d.transitionEvents c response)
      c.outcomes.forward = (.error (.error e), st) := hcommit
  obtain ⟨message, hmessage⟩ := commitOrRollbackTransition_of_error operation hcommit' hrestore
  rw [hmessage]
  rcases rollback_cases (before_valid h ht) st c.outcomes.rollback with
    hst | ⟨⟨message, hroll⟩, hst⟩ <;> rw [hst]
  · exact .rolledBack ran hforwarded
  · exact .uncompensated ran hforwarded hroll

theorem serve_outcome : d.Outcome c (d.serve c) := by
  rcases d.serve_attempts c with ⟨req, hreq, hd⟩ | hout
  · rw [← Prod.mk.eta (p := d.serve c), hd]
    exact .read hreq
  generalize d.serve c = result at hout
  cases hout with
  | rejected ran => exact .rejected ran
  | @attempted response service operation ran =>
    rcases d.store.commit_eq (d.after c) (d.transitionEvents c response) c.outcomes.forward with
      ⟨e | e, hcheck, hcommit⟩ | ⟨hcheck, ⟨-, hcommit⟩ | ⟨applied, message, hforward, hcommit⟩⟩
    · exact outcome_of_error h ht ran operation hcommit .unchanged
    · exact absurd hcheck (after_ne_crash h ht response e)
    · rw [commitOrRollbackTransition_of_ok (d := d.withService service) hcommit]
      exact .committed ran hcheck
    · refine outcome_of_error h ht ran operation hcommit ?_
      cases applied
      · exact .unchanged
      · exact .applied hcheck hforward

end

end DurableState

end ZeroTrustFL
