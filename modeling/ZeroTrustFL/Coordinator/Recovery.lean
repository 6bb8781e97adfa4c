import Mathlib
import ZeroTrustFL.Lib.Run
import ZeroTrustFL.Security.StoreRun
import ZeroTrustFL.Coordinator.Construction

/-!
# Recovery

Along every run of a durable coordinator its memory stays recoverable, and the store holds a
snapshot of a recoverable state with the same settings and identity.  So a rollback in memory
succeeds, and so does a restart.
-/

namespace ZeroTrustFL

/-! ## What a call leaves in memory -/

theorem Service.Sound.pruned {s : Service} {t : ℤ} (h : s.Sound t) (clock : Clock) :
    (s.pruned clock).Sound t where
  toRoundSound := h.toRoundSound.congr rfl rfl rfl
  wellFormed := h.wellFormed.unexpired _
  identified := h.identified.filter _
  nonces := by
    intro k seenAt hk
    rw [Service.pruned, OrdMap.get?_filter, Option.filter_eq_some_iff] at hk
    exact h.nonces k seenAt hk.1
  rates := by
    intro n w hw
    rw [Service.pruned, OrdMap.get?_filter, Option.filter_eq_some_iff] at hw
    exact h.rates n w hw.1

/-- The round id grows by one when a submission closes the round; no other call changes the
model. -/
theorem Service.model_serve (s : Service) (c : Call) :
    (s.serve c).2.model = s.model ∨
      ∃ req response, c.request = .submitLocalUpdate (some req) ∧
        (s.serve c).1 = .ok (.submitLocalUpdate response) ∧
        (s.serve c).2.model.roundID = s.model.roundID + 1 := by
  cases s.serve_roundStep c with
  | idle _ _ model _ => exact .inl model
  | revoked _ _ _ model _ => exact .inl model
  | waiting _ _ _ _ _ _ model _ => exact .inl model
  | closing u submits _ _ _ round _ =>
    obtain ⟨req, response, hreq, hresponse, -⟩ := submits
    exact .inr ⟨req, response, hreq, hresponse, round⟩

namespace DurableState

theorem policy_withService {d : DurableState} {service : Service}
    (h : service.settings = d.durable.service.settings) :
    (d.withService service).durable.currentPolicy = d.durable.currentPolicy := by
  simp only [DurableService.currentPolicy, withService, h]

section

variable {d : DurableState} {t : ℤ} (h : d.durable.Recoverable t) {c : DurableCall}
  (ht : t ≤ c.call.env.clock.start)
include h ht

/-- Memory stays recoverable when the service rejects a call. -/
theorem recoverable_rejected {e : Failure} {service : Service}
    (ran : d.durable.service.serve c.inner = (.error e, service)) :
    (d.withService service).durable.Recoverable t := by
  have hsound := sound_served h ht
  have hsettings := Service.settings_serve d.durable.service c.inner
  have hsame := Service.sameState_of_error h.sound.wellFormed
    (by rw [ran] : (d.durable.service.serve c.inner).1 = .error e)
  rw [ran] at hsound hsettings hsame
  refine ⟨hsound, (policy_withService hsettings).symm ▸ h.policy, fun n hn => ?_⟩
  have hmodel : service.model = d.durable.service.model := hsame.model
  have hpending : service.pending = d.durable.service.pending := hsame.pending
  exact hpending.symm ▸ h.lengths n (hmodel ▸ hn)

/-- Memory is recoverable after a transition whose snapshot has passed the checks. -/
theorem recoverable_served (hvalid : (d.after c).Valid) :
    (d.withService (d.durable.service.serve c.inner).2).durable.Recoverable t := by
  have hsound := sound_served h ht
  refine ⟨hsound, (policy_withService (Service.settings_serve _ _)).symm ▸ h.policy, fun n hn => ?_⟩
  obtain ⟨m, hm, hlen⟩ := hvalid.model
  obtain rfl : m = n := Except.ok.inj (hm.symm.trans hn)
  have hpending : (d.after c).pending = (d.durable.service.serve c.inner).2.pending.values :=
    DurableService.pending_captureSnapshot hsound.toRoundSound _
  rwa [hpending] at hlen

omit ht in
theorem recoverable_restored : (d.restored c).Recoverable t :=
  ⟨h.sound.pruned _, h.policy, h.lengths⟩

end

/-! ## Audited stores -/

/-- The round id of an audited model does not wrap around. -/
theorem lt_add_one_of_le_max {n : UInt64} (h : n ≤ maxAuditRoundID) : n < n + 1 := by
  have hle : n.toNat ≤ maxAuditRoundID.toNat := h
  have hmax : maxAuditRoundID.toNat < 2 ^ 64 - 1 := by decide
  rw [UInt64.lt_iff_toNat_lt, UInt64.toNat_add, UInt64.toNat_one]
  omega

/-- The model stays within what an audited store takes. -/
theorem auditable_served {d : DurableState} {c : DurableCall} {response : Response}
    {service : Service} (h : d.durable.service.model.Auditable)
    (ran : d.durable.service.serve c.inner = (.ok response, service))
    (check : d.store.checkCommit (d.after c) (d.transitionEvents c response) = .ok ())
    (haudited : d.store.audited = true) : service.model.Auditable := by
  have hevents := ((d.store.checkCommit_ok_iff _ _).1 check).2 haudited
  have hafter : (d.after c).model = service.model := by
    show (d.durable.service.serve c.inner).2.model = service.model
    rw [ran]
  have hbefore : (d.before c).model = d.durable.service.model := rfl
  have hserve := d.durable.service.model_serve c.inner
  rw [ran] at hserve
  rcases hserve with hmodel | ⟨req, response', hreq, hresponse, hround⟩
  · rw [show service.model = _ from hmodel]
    exact h
  · cases hresponse
    have hreq' : c.call.request = .submitLocalUpdate (some req) := hreq
    have hlt : (d.before c).model.roundID < (d.after c).model.roundID := by
      rw [hafter, hbefore, show service.model.roundID = _ from hround]
      exact lt_add_one_of_le_max h.round
    have hmem : aggregatedEvent d.durable.service.settings req (d.after c)
        ((c.call.env.clock.drop 8).read 1) ∈
        d.transitionEvents c (.submitLocalUpdate response') := by
      simp only [transitionEvents, auditEvents, hreq', Option.toList_some, List.flatMap_singleton]
      exact aggregatedEvent_mem response' hlt
    have hchecked := (validateAuditEvent_ok_iff _).1 (hevents _ hmem)
    have hfields := hchecked.fields
    rw [← hafter]
    refine ⟨hchecked.round, fun hversion => ?_, hchecked.sizes.2.2.2.2.1, hchecked.modelDigest⟩
    simp only [validateAuditFields, aggregatedEvent, stateAuditEvent, newAuditEvent, hversion,
      true_or, or_true, if_true, reduceCtorEq] at hfields

/-! ## The invariant of a run -/

/-- The store holds a snapshot of a recoverable state with the settings and the identity of the
coordinator, taken before `t`. -/
structure Persists (d : DurableState) (t : ℤ) (d₀ : DurableService) (clock : Clock) : Prop where
  recoverable : d₀.Recoverable (clock.read 1)
  auditable : d.store.audited = true → d₀.service.model.Auditable
  settings : d₀.service.settings = d.durable.service.settings
  modelID : d₀.modelID = d.durable.modelID
  experiment : d₀.experiment = d.durable.experiment
  finish : clock.finish ≤ t
  state : d.store.state = some (coordinatorStateSchemaVersion, d₀.captureSnapshot clock)

/-- What holds between two calls of a durable coordinator. -/
structure Ready (d : DurableState) (t : ℤ) : Prop where
  recoverable : d.durable.Recoverable t
  auditable : d.store.audited = true → d.durable.service.model.Auditable
  persists : ∃ d₀ clock, d.Persists t d₀ clock

theorem Ready.mono {d : DurableState} {t u : ℤ} (h : d.Ready t) (hle : t ≤ u) : d.Ready u := by
  obtain ⟨d₀, clock, hp⟩ := h.persists
  exact ⟨h.recoverable.mono hle, h.auditable, d₀, clock, { hp with finish := hp.finish.trans hle }⟩

section

variable {d : DurableState} {t : ℤ} (h : d.Ready t) {c : DurableCall}
  (ht : t ≤ c.call.env.clock.start) include h ht

/-- The store after a forward commit that has reported a failure. -/
theorem persists_forwarded {response : Response} {service : Service} {st : Store}
    (ran : d.durable.service.serve c.inner = (.ok response, service))
    (forwarded : d.Forwarded c response st) :
    ∃ d₀ clock, Persists ⟨d.restored c, st⟩ c.call.env.clock.finish d₀ clock := by
  obtain ⟨d₀, clock, hp⟩ := h.persists
  cases forwarded with
  | unchanged =>
    exact ⟨d₀, clock, { hp with
      finish := hp.finish.trans (ht.trans c.call.env.clock.start_le_finish) }⟩
  | applied check forward =>
    have hserved := recoverable_served h.recoverable ht (Store.valid_of_checkCommit check)
    refine ⟨_, c.call.env.clock.drop 6,
      ⟨hserved.mono (ht.trans (c.call.env.clock.start_le_read 7)), fun haudited => ?_,
        Service.settings_serve _ _, rfl, rfl, le_rfl, rfl⟩⟩
    show (d.durable.service.serve c.inner).2.model.Auditable
    rw [ran]
    exact auditable_served (h.auditable haudited) ran check haudited

/-- Every call leaves a coordinator that is ready for the next one. -/
theorem Ready.serve : (d.serve c).2.Ready c.call.env.clock.finish := by
  have htt : t ≤ c.call.env.clock.finish := ht.trans c.call.env.clock.start_le_finish
  obtain ⟨d₀, clock, hp⟩ := h.persists
  have hout := serve_outcome h.recoverable ht
  generalize d.serve c = result at hout
  cases hout with
  | read request => exact h.mono htt
  | @rejected e service ran =>
    have hsame := Service.sameState_of_error h.recoverable.sound.wellFormed
      (by rw [ran] : (d.durable.service.serve c.inner).1 = .error e)
    have hsettings := Service.settings_serve d.durable.service c.inner
    rw [ran] at hsame hsettings
    refine ⟨(recoverable_rejected h.recoverable ht ran).mono htt, fun haudited => ?_, d₀, clock, ?_⟩
    · show service.model.Auditable
      rw [show service.model = _ from hsame.model]
      exact h.auditable haudited
    · exact { hp with
        settings := hp.settings.trans hsettings.symm
        finish := hp.finish.trans htt }
  | @committed response service ran check =>
    have hserved := recoverable_served h.recoverable ht (Store.valid_of_checkCommit check)
    have haudit : d.store.audited = true → service.model.Auditable := fun haudited =>
      auditable_served (h.auditable haudited) ran check haudited
    rw [ran] at hserved
    refine ⟨hserved.mono htt, haudit, (d.withService service).durable, c.call.env.clock.drop 6,
      ⟨hserved.mono (ht.trans (c.call.env.clock.start_le_read 7)), haudit, rfl, rfl, rfl,
        le_rfl, ?_⟩⟩
    show some (coordinatorStateSchemaVersion, d.after c) = _
    rw [after, ran]
  | @rolledBack e response service st ran forwarded =>
    refine ⟨(recoverable_restored h.recoverable).mono htt, fun haudited => ?_, d.durable,
      c.call.env.clock,
      ⟨h.recoverable.mono (ht.trans (c.call.env.clock.start_le_read 1)), fun haudited => ?_, rfl,
        rfl, rfl, le_rfl, rfl⟩⟩
    · cases forwarded <;> exact h.auditable haudited
    · cases forwarded <;> exact h.auditable haudited
  | @uncompensated e response service st message ran forwarded rollback =>
    refine ⟨(recoverable_restored h.recoverable).mono htt, fun haudited => ?_,
      persists_forwarded h ht ran forwarded⟩
    cases forwarded <;> exact h.auditable haudited

end

variable {d : DurableState} {clock : Clock}

theorem ready_of_started {st : Store} {type : AuditEventType} {n : ℕ}
    (htype : type = .stateInitialized ∨ type = .stateRecovered)
    (hstart : Started d.durable st type (clock.drop n) d)
    (hrec : d.durable.Recoverable ((clock.drop (n + 3)).read 1)) : d.Ready clock.finish := by
  have hstore := hstart.store
  rw [Clock.drop_drop] at hstore
  have haudit : d.store.audited = true → d.durable.service.model.Auditable := by
    intro haudited
    rw [hstore] at haudited
    exact (auditable_of_state htype (hstart.event haudited)).2
  exact ⟨hrec.mono (clock.le_finish _), haudit, d.durable, clock.drop (n + 3),
    ⟨hrec, haudit, rfl, rfl, rfl, le_rfl, by rw [hstore]; rfl⟩⟩

theorem ready_new {registry : RegistrationStore} {cfg : Config} {st : Store}
    {experimentConfig : ExperimentConfig} {modelID : String} {outcome : CommitOutcome}
    (hregistry : registry.WellFormed)
    (h : newDurableServiceWithIdentity registry cfg st experimentConfig modelID clock outcome =
      .ok d) :
    d.Ready clock.finish := by
  obtain ⟨type, n, htype, hstart, hrec⟩ := started_new hregistry h
  exact ready_of_started htype hstart hrec

/-- The snapshot in the store of a coordinator that is ready is restored and committed again when a
coordinator starts with the same configuration. -/
theorem Ready.restart {registry registry' : RegistrationStore} {cfg : Config}
    {experimentConfig : ExperimentConfig} {modelID : String} {clock₀ : Clock} {d₀ : DurableService}
    {t : ℤ} (h : d.Ready t) (hconf : Configured registry cfg experimentConfig modelID clock₀ d₀)
    (hsettings : d.durable.service.settings = d₀.service.settings)
    (hid : d.durable.modelID = d₀.modelID)
    (hexp : sameExperimentIdentity d.durable.experiment d₀.experiment = true)
    (hle : clock₀.read 1 ≤ clock.read 1) (ht : t ≤ clock.start) :
    ∃ d', newDurableServiceWithIdentity registry' cfg d.store experimentConfig modelID clock
      .success = .ok d' := by
  obtain ⟨d₁, hconf₁, hsettings₁, hid₁, hexp₁⟩ := hconf.later registry' hle
  obtain ⟨s, clock', hp⟩ := h.persists
  have htime : clock'.read 1 ≤ (clock.drop 2).start :=
    (clock'.le_finish 1).trans (hp.finish.trans (ht.trans (clock.start_le_read 2)))
  have hload := Store.load_of_state hp.state (hp.recoverable.valid le_rfl)
  have hidentity : sameExperimentIdentity s.experiment d₁.experiment = true := by
    rw [hp.experiment]
    exact sameExperimentIdentity_trans hexp hexp₁
  have hrestore := hp.recoverable.restoreSnapshot le_rfl htime
    (hsettings₁.trans (hsettings.symm.trans hp.settings.symm))
    (hid₁.trans (hid.symm.trans hp.modelID.symm)) hidentity
  have hrec : DurableService.Recoverable { s with service := s.service.pruned (clock.drop 2) }
      (clock'.read 1) :=
    ⟨hp.recoverable.sound.pruned _, hp.recoverable.policy, hp.recoverable.lengths⟩
  have hzero := (newExperimentMetadata_ok hconf.experiment).2.1
  have hnow : clock₀.read 1 ≤ ((clock.drop 2).drop 2).read 2 :=
    hle.trans (clock.read_le_read (by decide))
  rw [hconf₁.new, recoverOrInitialize, hload]
  simp only [hrestore]
  refine commitCurrentStateWithAudit_succeeds _ (hrec.valid ?_) fun haudited => ?_
  · exact htime.trans (clock.read_le_read (by decide))
  · exact validateAuditEvent_stateRecovered (hp.auditable haudited)
      (normalizeExperimentTime_ne_zero (clock₀.read_pos 1) hzero hnow)

/-! ## Runs -/

/-- The settings and the identity of two states of a coordinator are the same. -/
structure SameIdentity (d d' : DurableState) : Prop where
  settings : d'.durable.service.settings = d.durable.service.settings
  modelID : d'.durable.modelID = d.durable.modelID
  experiment : d'.durable.experiment = d.durable.experiment

theorem SameIdentity.trans {d' d'' : DurableState} (h : d.SameIdentity d')
    (h' : d'.SameIdentity d'') : d.SameIdentity d'' :=
  ⟨h'.settings.trans h.settings, h'.modelID.trans h.modelID, h'.experiment.trans h.experiment⟩

theorem sameIdentity_serve {t : ℤ} (h : d.durable.Recoverable t) {c : DurableCall}
    (ht : t ≤ c.call.env.clock.start) : d.SameIdentity (d.serve c).2 := by
  have hsettings := Service.settings_serve d.durable.service c.inner
  have hout := serve_outcome h ht
  generalize d.serve c = result at hout
  cases hout with
  | read request => exact ⟨rfl, rfl, rfl⟩
  | rejected ran =>
    rw [ran] at hsettings
    exact ⟨hsettings, rfl, rfl⟩
  | committed ran check =>
    rw [ran] at hsettings
    exact ⟨hsettings, rfl, rfl⟩
  | rolledBack ran forwarded => exact ⟨rfl, rfl, rfl⟩
  | uncompensated ran forwarded rollback => exact ⟨rfl, rfl, rfl⟩

/-- The clocks of a coordinator: it starts, and then its calls follow one another in time. -/
def clocks (clock : Clock) (calls : List DurableCall) : List Clock :=
  clock :: calls.map fun c => c.call.env.clock

/-- A time after the start and all calls. -/
def After (clock : Clock) (calls : List DurableCall) (u : ℤ) : Prop :=
  ∀ k ∈ clocks clock calls, k.finish ≤ u

instance (clock : Clock) (calls : List DurableCall) (u : ℤ) : Decidable (After clock calls u) :=
  inferInstanceAs (Decidable (∀ _ ∈ _, _))

/-- Every run leads to a coordinator that is ready and has kept its identity. -/
theorem ready_final (h : d.Ready clock.finish) (calls : List DurableCall)
    (hord : (clocks clock calls).Pairwise Clock.Before) {u : ℤ} (hu : After clock calls u) :
    (final serve d calls).Ready u ∧ d.SameIdentity (final serve d calls) := by
  induction calls generalizing d clock with
  | nil => exact ⟨h.mono (hu clock List.mem_cons_self), rfl, rfl, rfl⟩
  | cons c calls ih =>
    obtain ⟨hfirst, hrest⟩ := List.pairwise_cons.1 hord
    have ht : clock.finish ≤ c.call.env.clock.start := hfirst _ List.mem_cons_self
    obtain ⟨hready, hidentity⟩ := ih (h.serve ht) hrest fun k hk => hu k (List.mem_cons_of_mem _ hk)
    exact ⟨hready, (sameIdentity_serve h.recoverable ht).trans hidentity⟩

/-- A coordinator that has started with the configuration of another one has the settings and the
identity that the other one keeps. -/
theorem SameIdentity.of_new {registry registry' : RegistrationStore} {cfg : Config} {st st' : Store}
    {experimentConfig : ExperimentConfig} {modelID : String} {clock clock' : Clock}
    {outcome outcome' : CommitOutcome} {d₀ d' : DurableState} (h : d₀.SameIdentity d)
    (hnew : newDurableServiceWithIdentity registry cfg st experimentConfig modelID clock outcome =
      .ok d₀)
    (hnew' : newDurableServiceWithIdentity registry' cfg st' experimentConfig modelID clock'
      outcome' = .ok d') :
    d'.durable.service.settings = d.durable.service.settings ∧
      d'.durable.modelID = d.durable.modelID ∧
      sameExperimentIdentity d.durable.experiment d'.durable.experiment = true := by
  obtain ⟨d₁, hconf, hsettings₁, hid₁, hexp₁⟩ := configured_new hnew
  obtain ⟨d₂, hconf', hsettings', hid', hexp'⟩ := configured_new hnew'
  obtain ⟨hsettings, hid, hexp⟩ := hconf'.unique hconf
  refine ⟨?_, ?_, ?_⟩
  · rw [hsettings', h.settings, hsettings₁, hsettings]
  · rw [hid', h.modelID, hid₁, hid]
  · rw [h.experiment]
    rw [sameExperimentIdentity_iff] at hexp' hexp hexp₁ ⊢
    exact ⟨hexp₁.1.trans (hexp.1.symm.trans hexp'.1.symm),
      hexp₁.2.trans (hexp.2.symm.trans hexp'.2.symm)⟩

/-- Rollback and recovery cannot fail.  After every run of a coordinator that has started, a
snapshot of its memory passes the checks and is restored at that or any later time, on the
coordinator itself and on any that has started with the same configuration; the rollback of any next
call succeeds in memory; and a coordinator that starts with the same configuration and the store of
the run succeeds. -/
theorem rollback_and_recovery_succeed (storeCalls : List StoreCall) (cfg : Config) (st : Store)
    (experimentConfig : ExperimentConfig) (modelID : String) (clock₀ : Clock)
    (outcome : CommitOutcome) (d₀ : DurableState)
    (hnew : newDurableServiceWithIdentity
      (final StoreCall.run newRegistrationStore storeCalls) cfg st
      experimentConfig modelID clock₀ outcome = .ok d₀) (calls : List DurableCall)
    (hord : (clocks clock₀ calls).Pairwise Clock.Before) : let d := final serve d₀ calls
    (∀ clock, After clock₀ calls clock.start →
      validateStateSnapshot (d.durable.captureSnapshot clock) = .ok () ∧
      (∀ clock', clock.read 1 ≤ clock'.start →
        (d.durable.restoreSnapshot (d.durable.captureSnapshot clock) clock').1 = .ok ()) ∧
      ∀ registry' st' clock₁ outcome' d',
      newDurableServiceWithIdentity registry' cfg st' experimentConfig
        modelID clock₁ outcome' = .ok d' → ∀ clock', clock.read 1 ≤ clock'.start →
          (d'.durable.restoreSnapshot (d.durable.captureSnapshot clock) clock').1 = .ok ()) ∧
    (∀ c, After clock₀ calls c.call.env.clock.start →
      ((d.withService (d.durable.service.serve c.inner).2).durable.restoreSnapshot (d.before c)
        (c.call.env.clock.drop 10)).1 = .ok ()) ∧
    ∀ registry' clock, After clock₀ calls clock.start →
      ∃ d', newDurableServiceWithIdentity registry' cfg d.store experimentConfig modelID clock
      .success = .ok d' := by
  intro d
  have hregistry := RegistrationStore.wellFormed_final storeCalls
  obtain ⟨d₁, hconf, hsettings₁, hid₁, hexp₁⟩ := configured_new hnew
  have hrun : ∀ {u}, After clock₀ calls u → d.Ready u ∧ d₀.SameIdentity d := fun hu =>
    ready_final (ready_new hregistry hnew) calls hord hu
  refine ⟨fun clock hclock => ?_, fun c hc => ?_, fun registry' clock hclock => ?_⟩
  · obtain ⟨hready, hidentity⟩ := hrun hclock
    have ht := clock.start_le_read 1
    refine ⟨(validateStateSnapshot_ok_iff _).2 (hready.recoverable.valid ht), fun clock' hle => ?_,
      fun registry' st' clock₁ outcome' d' hnew' clock' hle => ?_⟩
    · rw [hready.recoverable.restoreSnapshot ht hle rfl rfl
        ((sameExperimentIdentity_iff _ _).2 ⟨rfl, rfl⟩)]
    · obtain ⟨hsettings, hid, hexp⟩ := hidentity.of_new hnew hnew'
      rw [hready.recoverable.restoreSnapshot ht hle hsettings hid hexp]
  · obtain ⟨hready, -⟩ := hrun hc
    rw [restoreSnapshot_before hready.recoverable le_rfl]
  · obtain ⟨hready, hidentity⟩ := hrun hclock
    have hle : clock₀.read 1 ≤ clock.read 1 :=
      (clock₀.le_finish 1).trans ((hclock clock₀ List.mem_cons_self).trans (clock.start_le_read 1))
    refine hready.restart hconf ?_ ?_ ?_ hle le_rfl
    · rw [hidentity.settings, hsettings₁]
    · rw [hidentity.modelID, hid₁]
    · rw [hidentity.experiment]
      exact hexp₁

/-! ## A failing store -/

def sampleExperiment : ExperimentConfig := ⟨"exp-1", String.ofList (List.replicate 64 '0')⟩

/-- A coordinator over an empty store with audit, after its initial commit. -/
def sampleDurable : DurableState :=
  let durable : DurableService := ⟨Service.sampleService,
    ⟨"exp-1", String.ofList (List.replicate 64 '0'), unixTime 1700000000⟩, "global-model"⟩
  let snapshot := durable.captureSnapshot (Service.sampleEnv 0 0).clock
  ⟨durable, (⟨true, none, []⟩ : Store).apply snapshot
    [stateAuditEvent .stateInitialized snapshot (unixTime 1700000000)]⟩

theorem newDurable_sampleDurable :
    newDurableServiceWithIdentity newRegistrationStore ⟨0, 0, none, 1, 0, ""⟩
      ⟨true, none, []⟩ sampleExperiment
      "global-model" (Service.sampleEnv 0 0).clock .success = .ok sampleDurable := by
  decide +kernel

/-- A worker registers, and the commit of its update is applied but reports a failure. -/
def sampleCalls : List DurableCall :=
  [⟨Service.sampleRegistration "worker-1" 1 7, .success, .success⟩,
    ⟨Service.sampleSubmission "worker-1" 2 7 [1], .failure true "connection lost", .success⟩]

theorem recovery_sampleCalls :
    (clocks (Service.sampleEnv 0 0).clock sampleCalls).Pairwise Clock.Before ∧
      ∃ d', newDurableServiceWithIdentity newRegistrationStore ⟨0, 0, none, 1, 0, ""⟩
        (final serve sampleDurable sampleCalls).store sampleExperiment "global-model"
        (Service.sampleEnv 3 0).clock .success = .ok d' := by
  have hord : (clocks (Service.sampleEnv 0 0).clock sampleCalls).Pairwise Clock.Before := by
    decide +kernel
  exact ⟨hord, (rollback_and_recovery_succeed [] _ _ _ _ _ _ _ newDurable_sampleDurable sampleCalls
    hord).2.2 _ _ (by decide +kernel)⟩

end DurableState

end ZeroTrustFL
