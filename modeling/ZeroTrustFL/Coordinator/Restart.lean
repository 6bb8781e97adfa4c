import Mathlib
import ZeroTrustFL.Coordinator.Resemblance

/-!
# A restart is invisible

A coordinator and the coordinator that has been restarted from a snapshot of it answer every later
sequence of calls alike, as long as the calls cannot exhaust the credential generations of the nodes
whose registration had expired at the restart.
-/

namespace ZeroTrustFL

/-! ## Events -/

/-- The check on an event does not depend on a credential generation that is set. -/
theorem validateAuditEvent_withGeneration {event : AuditEvent} (h : event.credentialGeneration ≠ 0)
    {g : UInt64} (hg : g ≠ 0) :
    validateAuditEvent { event with credentialGeneration := g } = validateAuditEvent event := by
  have hfields : validateAuditFields { event with credentialGeneration := g } =
      validateAuditFields event := by
    simp only [validateAuditFields, h, hg]
  simp only [validateAuditEvent, hfields]

/-- Of the snapshots the events hold the models and the number of pending updates. -/
theorem auditEvents_congr {before after before' after' : StateSnapshot}
    (hbefore : before'.model = before.model) (hafter : after'.model = after.model)
    (hpending : after'.pending = after.pending) (settings : Settings) (clock : Clock)
    (request : Request) (response : Response) :
    auditEvents settings before' after' clock request response =
      auditEvents settings before after clock request response := by
  rcases request with req | req | req | req | req | req <;>
    rcases response with resp | resp | resp | resp | resp | resp <;>
    simp only [auditEvents, registrationAuditEvent, heartbeatAuditEvent, updateAuditEvents,
      rotationAuditEvent, revocationAuditEvent, stateAuditEvent, hbefore, hafter, hpending]

/-- The events of answers that differ in the credential generation pass the checks alike. -/
theorem auditEvents_renewed (settings : Settings) (before after : StateSnapshot) (clock : Clock)
    (request : Request) {x y : Response} (h : x.Renewed y) :
    (∀ event ∈ auditEvents settings before after clock request y,
      validateAuditEvent event = .ok ()) ↔
      ∀ event ∈ auditEvents settings before after clock request x,
      validateAuditEvent event = .ok () := by
  have hone : ∀ (event : AuditEvent) {g : UInt64}, event.credentialGeneration ≠ 0 → g ≠ 0 →
      ((∀ e ∈ [{ event with credentialGeneration := g }], validateAuditEvent e = .ok ()) ↔
        ∀ e ∈ [event], validateAuditEvent e = .ok ()) := fun event g h hg => by
    simp only [List.mem_singleton, forall_eq, validateAuditEvent_withGeneration h hg]
  cases h with
  | @registerNode x g pos pos' =>
    rcases request with (_ | req) | req | req | req | req | req <;> try exact Iff.rfl
    exact hone (registrationAuditEvent req x after (clock.read 0)) pos pos'
  | @heartbeat x g pos pos' =>
    rcases request with req | (_ | req) | req | req | req | req <;> try exact Iff.rfl
    exact hone (heartbeatAuditEvent req x after (clock.read 0)) pos pos'
  | @rotateRegistration x g pos pos' =>
    rcases request with req | req | req | req | (_ | req) | req <;> try exact Iff.rfl
    exact hone (rotationAuditEvent req x after (clock.read 0)) pos pos'
  | @revokeRegistration x g pos pos' =>
    rcases request with req | req | req | req | req | (_ | req) <;> try exact Iff.rfl
    exact hone (revocationAuditEvent req x after (clock.read 0)) pos pos'

namespace DurableState

/-! ## One call -/

/-- A coordinator and the restarted one. -/
structure Resembles (dropped : String → Prop) (t : ℤ) (b : ℕ) (d r : DurableState) : Prop where
  service : d.durable.service.Resembles dropped t b r.durable.service
  modelID : r.durable.modelID = d.durable.modelID
  experiment : r.durable.experiment = d.durable.experiment
  audited : r.store.audited = d.store.audited

theorem audited_commitOrRollbackTransition (d : DurableState) (before after : StateSnapshot)
    (operation : String) (events : List AuditEvent) (clock : Clock) (outcomes : CommitOutcomes) :
    (d.commitOrRollbackTransition before after operation events clock outcomes).2.store.audited =
      d.store.audited := by
  have hforward := d.store.audited_commit after events outcomes.forward
  unfold commitOrRollbackTransition
  generalize d.store.commit after events outcomes.forward = result at hforward
  rcases result with ⟨(e | e) | ⟨⟨⟩⟩, st⟩
  · simp only at hforward ⊢
    have hrollback := st.audited_commit before [] outcomes.rollback
    rcases d.durable.restoreSnapshot before clock with ⟨e | ⟨⟨⟩⟩, durable⟩
    · exact hforward
    · simp only
      generalize st.commit before [] outcomes.rollback = result at hrollback
      rcases result with ⟨e | ⟨⟨⟩⟩, st'⟩
      · exact hrollback.trans hforward
      · exact hrollback.trans hforward
  · exact hforward
  · exact hforward

/-- The kind of its store stays with a coordinator. -/
theorem audited_serve (d : DurableState) (c : DurableCall) :
    (d.serve c).2.store.audited = d.store.audited := by
  rcases d.serve_attempts c with ⟨req, -, hsame⟩ | hout
  · rw [hsame]
  · generalize d.serve c = result at hout
    cases hout with
    | rejected ran => rfl
    | attempted operation ran => exact audited_commitOrRollbackTransition _ _ _ _ _ _ _

theorem audited_new {registry : RegistrationStore} {cfg : Config} {st : Store}
    {experimentConfig : ExperimentConfig} {modelID : String} {clock : Clock}
    {outcome : CommitOutcome} {d : DurableState}
    (h : newDurableServiceWithIdentity registry cfg st experimentConfig modelID clock outcome =
      .ok d) :
    d.store.audited = st.audited := by
  obtain ⟨d₀, -, hrec⟩ := newDurableServiceWithIdentity_ok h
  rcases recoverOrInitialize_ok hrec with ⟨-, hstart⟩ | ⟨_, _, -, -, hstart⟩ <;>
    rw [hstart.store] <;> rfl

theorem serve_rejected {d : DurableState} {c : DurableCall}
    (hreq : ∀ req, c.call.request ≠ .getGlobalModel req) {e : Failure} {service : Service}
    (ran : d.durable.service.serve c.inner = (.error e, service)) :
    d.serve c = (.error e, d.withService service) := by
  have hout := (d.serve_attempts c).resolve_left fun ⟨req, hget, _⟩ => hreq req hget
  generalize d.serve c = result at hout ⊢
  cases hout with
  | rejected ran' =>
    cases ran.symm.trans ran'
    rfl
  | attempted operation ran' => cases ran.symm.trans ran'

section

variable {d : DurableState} {u : ℤ} (h : d.durable.Recoverable u) {c : DurableCall}
  (hu : u ≤ c.call.env.clock.start)
include h hu

/-- Memory stays recoverable. -/
theorem recoverable_serve : (d.serve c).2.durable.Recoverable u := by
  have hout := serve_outcome h hu
  generalize d.serve c = result at hout
  cases hout with
  | read request => exact h
  | rejected ran => exact recoverable_rejected h hu ran
  | @committed response service ran check =>
    have hserved := recoverable_served h hu (Store.valid_of_checkCommit check)
    rwa [ran] at hserved
  | rolledBack ran forwarded => exact recoverable_restored h
  | uncompensated ran forwarded rollback => exact recoverable_restored h

theorem pending_after : (d.after c).pending = (d.durable.service.serve c.inner).2.pending.values :=
  DurableService.pending_captureSnapshot (sound_served h hu).toRoundSound _

theorem valid_after_iff :
    (d.after c).Valid ↔ ∀ n, validateSnapshotModel (d.durable.service.serve c.inner).2.model =
      .ok n →
      CommonLength n (d.durable.service.serve c.inner).2.pending.values := by
  constructor
  · exact fun hvalid => (recoverable_served h hu hvalid).lengths
  · intro hlengths
    have hpolicy : (d.withService (d.durable.service.serve c.inner).2).durable.currentPolicy =
        d.durable.currentPolicy := policy_withService (Service.settings_serve _ _)
    have hserved : (d.withService (d.durable.service.serve c.inner).2).durable.Recoverable u :=
      ⟨sound_served h hu, hpolicy.symm ▸ h.policy, hlengths⟩
    exact hserved.valid (hu.trans (c.call.env.clock.start_le_read 7))

/-- A transition is committed when it passes the checks and the store reports success; otherwise it
is rolled back. -/
theorem serve_attempted (hreq : ∀ req, c.call.request ≠ .getGlobalModel req) {response : Response}
    {service : Service} (ran : d.durable.service.serve c.inner = (.ok response, service)) :
    (d.store.checkCommit (d.after c) (d.transitionEvents c response) = .ok () ∧
      c.outcomes.forward = .success ∧
      (d.serve c).1 = .ok response ∧ (d.serve c).2.durable = (d.withService service).durable) ∨
    ¬ (d.store.checkCommit (d.after c) (d.transitionEvents c response) = .ok () ∧
      c.outcomes.forward = .success) ∧
      (∃ message, (d.serve c).1 = .error (.status .internal message)) ∧
      (d.serve c).2.durable = d.restored c := by
  have hout := (d.serve_attempts c).resolve_left fun ⟨req, hget, _⟩ => hreq req hget
  generalize d.serve c = result at hout ⊢
  cases hout with
  | rejected ran' => cases ran.symm.trans ran'
  | @attempted response' service' operation ran' =>
    cases ran.symm.trans ran'
    have hrestore := restoreSnapshot_before h hu
    rw [ran] at hrestore
    have hfailed : ∀ {e st}, d.store.commit (d.after c)
        (d.transitionEvents c response) c.outcomes.forward =
        (.error (.error e), st) → ∃ message, (d.withService service).commitOrRollbackTransition
          (d.before c)
          (d.after c) operation (d.transitionEvents c response)
          (c.call.env.clock.drop 10) c.outcomes =
            (.error (.status .internal message),
              ⟨d.restored c, (st.commit (d.before c) [] c.outcomes.rollback).2⟩) := fun hcommit =>
      commitOrRollbackTransition_of_error (d := d.withService service) operation hcommit hrestore
    rcases d.store.commit_eq (d.after c) (d.transitionEvents c response) c.outcomes.forward with
      ⟨e | e, hcheck, hcommit⟩ | ⟨hcheck,
        ⟨hforward, hcommit⟩ | ⟨applied, message, hforward, hcommit⟩⟩
    · obtain ⟨message, hmessage⟩ := hfailed hcommit
      rw [hmessage]
      refine .inr ⟨fun hok => ?_, ⟨message, rfl⟩, rfl⟩
      rw [hcheck] at hok
      cases hok.1
    · exact absurd hcheck (after_ne_crash h hu response e)
    · rw [commitOrRollbackTransition_of_ok (d := d.withService service) hcommit]
      exact .inl ⟨hcheck, hforward, rfl, rfl⟩
    · obtain ⟨message', hmessage⟩ := hfailed hcommit
      rw [hmessage]
      refine .inr ⟨fun hok => ?_, ⟨message', rfl⟩, rfl⟩
      rw [hforward] at hok
      cases hok.2

end

section

variable {dropped : String → Prop} {t u : ℤ} {b : ℕ} {d r : DurableState}
  (hd : d.durable.Recoverable u)
  (hr : r.durable.Recoverable u) (h : d.Resembles dropped t (b + 1) r) {c : DurableCall}
  (ht : t ≤ c.call.env.clock.start) (hu : u ≤ c.call.env.clock.start)
include hd hr h ht hu

omit hu in
theorem served_resembles : Service.Alike dropped t b c.call.subject
    (d.durable.service.serve c.inner) (r.durable.service.serve c.inner) :=
  Service.serve_resembles hd.sound.wellFormed hr.sound.wellFormed h.service c.inner
    (ht.trans (c.call.env.clock.start_le_read 2))

/-- The checks before the commit of a transition pass alike. -/
theorem checkCommit_resembles {x y : Response} (hxy : y = x ∨ x.Renewed y) :
    r.store.checkCommit (r.after c) (r.transitionEvents c y) = .ok () ↔
      d.store.checkCommit (d.after c) (d.transitionEvents c x) = .ok () := by
  have hservices := (served_resembles hd hr h ht).services
  have hvalid : (r.after c).Valid ↔ (d.after c).Valid := by
    rw [valid_after_iff hd hu, valid_after_iff hr hu, hservices.model, hservices.pending]
  have hbefore : (r.before c).model = (d.before c).model := h.service.model
  have hafter : (r.after c).model = (d.after c).model := hservices.model
  have hpending : (r.after c).pending = (d.after c).pending := by
    rw [pending_after hd hu, pending_after hr hu, hservices.pending]
  have hevents : (∀ event ∈ r.transitionEvents c y, validateAuditEvent event = .ok ()) ↔
      ∀ event ∈ d.transitionEvents c x, validateAuditEvent event = .ok () := by
    rw [transitionEvents, transitionEvents, h.service.settings,
      auditEvents_congr hbefore hafter hpending]
    rcases hxy with rfl | hrenewed
    · rfl
    · exact auditEvents_renewed _ _ _ _ _ hrenewed
  rw [Store.checkCommit_ok_iff, Store.checkCommit_ok_iff, hvalid, h.audited, hevents]

/-- Every call is answered alike. -/
theorem serve_resembles : SameAnswer (dropped c.call.subject) (d.serve c).1 (r.serve c).1 ∧
    (d.serve c).2.Resembles dropped t b (r.serve c).2 := by
  by_cases hreq : ∃ req, c.call.request = .getGlobalModel req
  · obtain ⟨req, hreq⟩ := hreq
    have halike := Service.serve_resembles hd.sound.wellFormed hr.sound.wellFormed
      h.service c.call ht
    simp only [Service.serve, hreq] at halike
    simp only [serve, hreq]
    exact ⟨halike.answers, halike.services, h.modelID, h.experiment, h.audited⟩
  · rw [not_exists] at hreq
    obtain ⟨hanswers, hservices⟩ := served_resembles hd hr h ht
    have hcheck := fun {x y : Response} (hxy : y = x ∨ x.Renewed y) =>
      checkCommit_resembles hd hr h ht hu hxy
    rcases hran : d.durable.service.serve c.inner with ⟨e | x, service⟩ <;>
      rcases hran' : r.durable.service.serve c.inner with ⟨e' | y, service'⟩ <;>
      rw [hran, hran'] at hanswers hservices
    · rw [serve_rejected hreq hran, serve_rejected hreq hran']
      cases hanswers with
      | error code => exact ⟨.error code, hservices, h.modelID, h.experiment, h.audited⟩
    · cases hanswers
    · cases hanswers
    · have hxy : y = x ∨ x.Renewed y := by
        cases hanswers with
        | ok => exact .inl rfl
        | renewed hrenewed responses => exact .inr responses
      have haudit : (r.serve c).2.store.audited = (d.serve c).2.store.audited := by
        rw [audited_serve, audited_serve, h.audited]
      have hr' := serve_attempted hr hu hreq hran'
      rw [hcheck hxy] at hr'
      rcases serve_attempted hd hu hreq hran with
        ⟨hok, hforward, hanswer, hdurable⟩ | ⟨hfailed, ⟨message, hanswer⟩, hdurable⟩
      · obtain ⟨-, -, hanswer', hdurable'⟩ := hr'.resolve_right fun hr' => hr'.1 ⟨hok, hforward⟩
        rw [hanswer, hanswer']
        refine ⟨hanswers, ?_, ?_, ?_, haudit⟩
        · rw [hdurable, hdurable']
          exact hservices
        · rw [hdurable, hdurable']
          exact h.modelID
        · rw [hdurable, hdurable']
          exact h.experiment
      · obtain ⟨-, ⟨message', hanswer'⟩, hdurable'⟩ := hr'.resolve_left fun hr' =>
          hfailed ⟨hr'.1, hr'.2.1⟩
        rw [hanswer, hanswer']
        refine ⟨.error rfl, ?_, ?_, ?_, haudit⟩
        · rw [hdurable, hdurable']
          exact (h.service.pruned _).mono (Nat.le_succ b)
        · rw [hdurable, hdurable']
          exact h.modelID
        · rw [hdurable, hdurable']
          exact h.experiment

end

/-! ## Runs -/

/-- Along every run the coordinator and the restarted one stay alike. -/
theorem resembles_final {dropped : String → Prop} {t u : ℤ} {b : ℕ} {d r : DurableState}
    (calls : List DurableCall) (hd : d.durable.Recoverable u) (hr : r.durable.Recoverable u)
    (h : d.Resembles dropped t (calls.length + b) r) (ht : ∀ c ∈ calls, t ≤ c.call.env.clock.start)
    (hu : ∀ c ∈ calls, u ≤ c.call.env.clock.start) :
    (final serve d calls).durable.Recoverable u ∧ (final serve r calls).durable.Recoverable u ∧
      (final serve d calls).Resembles dropped t b (final serve r calls) := by
  induction calls generalizing d r with
  | nil =>
    rw [List.length_nil, Nat.zero_add] at h
    exact ⟨hd, hr, h⟩
  | cons c calls ih =>
    rw [List.length_cons, Nat.add_right_comm] at h
    have ht' := ht c List.mem_cons_self
    have hu' := hu c List.mem_cons_self
    exact ih (recoverable_serve hd hu') (recoverable_serve hr hu')
      (serve_resembles hd hr h ht' hu').2
      (fun c' hc' => ht c' (List.mem_cons_of_mem _ hc')) fun c' hc' => hu c'
      (List.mem_cons_of_mem _ hc')

/-- The registration of the node has expired at `t`. -/
def Lapsed (d : DurableState) (t : ℤ) (n : String) : Prop :=
  ∃ e, d.durable.service.registry.entries.get? n = some e ∧ e.expiresAt ≤ t

/-- The coordinator with another durable service, restored from a snapshot. -/
def restarted (f : DurableState) (snapshot : StateSnapshot) (clock : Clock) : DurableState :=
  { f with durable := (f.durable.restoreSnapshot snapshot clock).2 }

/-- A restart is invisible.  Take a coordinator after any run, and restore a snapshot of it later in
a fresh one with the same configuration.  Both then answer every later sequence of calls alike and
go through the same models and pending updates; the answers differ at most in the credential
generations of the nodes whose registration had expired at the restart.  No generation of such a
node may be so large that the calls can exhaust it. -/
theorem restart_is_invisible (storeCalls : List StoreCall) (cfg : Config) (st : Store)
    (experimentConfig : ExperimentConfig) (modelID : String) (clock₀ : Clock)
    (outcome : CommitOutcome) (d₀ : DurableState)
    (hnew : newDurableServiceWithIdentity
      (final StoreCall.run newRegistrationStore storeCalls) cfg st
      experimentConfig modelID clock₀ outcome = .ok d₀) (calls : List DurableCall)
    (hord : (clocks clock₀ calls).Pairwise Clock.Before) (registry' : RegistrationStore)
    (st' : Store) (clock₁ : Clock) (outcome' : CommitOutcome) (f : DurableState)
    (hfresh : newDurableServiceWithIdentity registry' cfg st' experimentConfig modelID clock₁
      outcome' = .ok f) (hkind : st'.audited = st.audited) (clock clock' : Clock)
    (hclock : After clock₀ calls clock.start) (hle : clock.read 1 ≤ clock'.start)
    (later : List DurableCall) (hlater : (clocks clock' later).Pairwise Clock.Before)
    (hspare : ∀ n e, (final serve d₀ calls).durable.service.registry.entries.get? n = some e →
      e.expiresAt ≤ clock'.read 1 → e.generation.toNat + later.length < 2 ^ 64) :
    let d := final serve d₀ calls
    let r := f.restarted (d.durable.captureSnapshot clock) clock'
    (f.durable.restoreSnapshot (d.durable.captureSnapshot clock) clock').1 = .ok () ∧
      ∀ done c rest, later = done ++ c :: rest →
        let served := (final serve d done).serve c
        let served' := (final serve r done).serve c
        SameAnswer (d.Lapsed (clock'.read 1) c.call.subject) served.1 served'.1 ∧
          served'.2.durable.service.model = served.2.durable.service.model ∧
          served'.2.durable.service.pending = served.2.durable.service.pending := by
  intro d r
  obtain ⟨hready, hidentity⟩ :=
    ready_final (ready_new (RegistrationStore.wellFormed_final storeCalls) hnew) calls hord hclock
  have hrec : d.durable.Recoverable clock.start := hready.recoverable
  obtain ⟨hsettings, hid, hexp⟩ := hidentity.of_new hnew hfresh
  have hrestore : f.durable.restoreSnapshot (d.durable.captureSnapshot clock) clock' =
      (.ok (), { d.durable with service := d.durable.service.pruned clock' }) :=
    hrec.restoreSnapshot (clock.start_le_read 1) hle hsettings hid hexp
  have hr : r = ⟨{ d.durable with service := d.durable.service.pruned clock' }, f.store⟩ := by
    rw [show r = ⟨(f.durable.restoreSnapshot (d.durable.captureSnapshot clock) clock').2,
      f.store⟩ from rfl, hrestore]
  have haudited : d.store.audited = st.audited :=
    final_invariant (P := fun d : DurableState => d.store.audited = st.audited) (audited_new hnew)
      (fun d c h => (d.audited_serve c).trans h) calls
  have hresembles : d.Resembles (d.Lapsed (clock'.read 1)) (clock'.read 1) later.length r := by
    rw [hr]
    refine ⟨Service.resembles_pruned hrec.sound.wellFormed hspare, rfl, rfl, ?_⟩
    rw [audited_new hfresh, hkind, haudited]
  have hrec' : r.durable.Recoverable clock.start := by
    rw [hr]
    exact ⟨hrec.sound.pruned _, hrec.policy, hrec.lengths⟩
  have hafter : ∀ c ∈ later, clock'.finish ≤ c.call.env.clock.start := fun c hc =>
    (List.pairwise_cons.1 hlater).1 _ (List.mem_map_of_mem hc)
  refine ⟨by rw [hrestore], fun done c rest hsplit => ?_⟩
  have ht : ∀ c ∈ later, clock'.read 1 ≤ c.call.env.clock.start := fun c hc =>
    (clock'.le_finish 1).trans (hafter c hc)
  have hu : ∀ c ∈ later, clock.start ≤ c.call.env.clock.start := fun c hc =>
    (clock.start_le_read 1).trans (hle.trans (clock'.start_le_finish.trans (hafter c hc)))
  rw [hsplit, List.length_append, List.length_cons] at hresembles
  obtain ⟨hdone, hdone', hstep⟩ := resembles_final done hrec hrec' hresembles
    (fun c' hc' => ht c' (hsplit ▸ List.mem_append_left _ hc'))
    fun c' hc' => hu c' (hsplit ▸ List.mem_append_left _ hc')
  have hc : c ∈ later := hsplit ▸ List.mem_append_right _ List.mem_cons_self
  obtain ⟨hanswer, hafter⟩ := serve_resembles hdone hdone' hstep (ht c hc) (hu c hc)
  exact ⟨hanswer, hafter.service.model, hafter.service.pending⟩

/-- A worker registers. -/
def sampleRegistrations : List DurableCall :=
  [⟨Service.sampleRegistration "worker-1" 1 7, .success, .success⟩]

/-- The worker registers again after its lease has run out. -/
def sampleRenewal : DurableCall := ⟨Service.sampleRegistration "worker-1" 401 8, .success, .success⟩

theorem restart_sampleRenewal :
    let d := final serve sampleDurable sampleRegistrations
    let r := sampleDurable.restarted (d.durable.captureSnapshot (Service.sampleEnv 2 0).clock)
      (Service.sampleEnv 400 0).clock
    SameAnswer (d.Lapsed ((Service.sampleEnv 400 0).clock.read 1) sampleRenewal.call.subject)
      (d.serve sampleRenewal).1 (r.serve sampleRenewal).1 := by
  have hvalues :
      ∀ e ∈ (final serve sampleDurable sampleRegistrations).durable.service.registry.entries.values,
      e.generation.toNat + [sampleRenewal].length < 2 ^ 64 := by decide +kernel
  have hrun := restart_is_invisible [] _ _ _ _ _ _ _ newDurable_sampleDurable sampleRegistrations
    (by decide +kernel) _ _ _ _ _ newDurable_sampleDurable rfl (Service.sampleEnv 2 0).clock
    (Service.sampleEnv 400 0).clock (by decide +kernel) (by decide +kernel) [sampleRenewal]
    (by decide +kernel) fun n e he _ => hvalues e ((OrdMap.mem_values_iff _).2 ⟨n, he⟩)
  have hanswer := hrun.2 [] sampleRenewal [] rfl
  simp only [final_nil] at hanswer
  exact hanswer.1

/-! ## The last generation -/

/-- A store with audit that holds a registration of the last generation but one, with one second
left. -/
def agedStore : Store :=
  ⟨true, some (coordinatorStateSchemaVersion,
    { sampleDurable.durable.captureSnapshot (Service.sampleEnv 0 0).clock with
      registrations := [⟨"worker-1", "worker", "ab12", "registration-1", unixTime 1700000001,
        maxGeneration - 1, 0, ""⟩] }), []⟩

/-- The coordinator that starts with the store. -/
def agedDurable : DurableState :=
  let durable : DurableService := { sampleDurable.durable with
    service := { Service.sampleService with
      registry := ⟨OrdMap.ofList [("worker-1", ⟨"worker-1", "worker", "ab12", "registration-1",
        unixTime 1700000001, maxGeneration - 1, 0, ""⟩)]⟩ } }
  let snapshot := durable.captureSnapshot (Service.sampleEnv 0 0).clock
  ⟨durable, agedStore.apply snapshot [stateAuditEvent .stateRecovered snapshot
    (unixTime 1700000000)]⟩

/-- The worker rotates the registration that it has got with the random byte 7. -/
def sampleRotation : Call where
  identity := some (Service.sampleWorker "worker-1")
  request := .rotateRegistration (some
    { nodeID := "worker-1"
      registrationID := hexEncode (List.replicate 24 7)
      security := some ⟨1700000003, List.replicate 16 8⟩ })
  env := Service.sampleEnv 3 8

/-- The worker registers again after its lease has run out, and then rotates its registration: the
coordinator has no generation left for it, the restarted one counts from one. -/
theorem restart_visible_at_last_generation :
    let r := sampleDurable.restarted
      (agedDurable.durable.captureSnapshot (Service.sampleEnv 1 0).clock)
      (Service.sampleEnv 1 0).clock
    let register : DurableCall := ⟨Service.sampleRegistration "worker-1" 2 7, .success, .success⟩
    let rotate : DurableCall := ⟨sampleRotation, .success, .success⟩
    newDurableServiceWithIdentity newRegistrationStore
      ⟨0, 0, none, 1, 0, ""⟩ agedStore sampleExperiment
        "global-model" (Service.sampleEnv 0 0).clock .success = .ok agedDurable ∧
      newDurableServiceWithIdentity newRegistrationStore ⟨0, 0, none, 1, 0, ""⟩
        ⟨true, none, []⟩ sampleExperiment
        "global-model" (Service.sampleEnv 0 0).clock .success = .ok sampleDurable ∧
      (∀ e ∈ agedDurable.durable.service.registry.entries.values, e.generation ≠ maxGeneration) ∧
      (clocks (Service.sampleEnv 1 0).clock [register, rotate]).Pairwise Clock.Before ∧
      ((agedDurable.serve register).2.serve rotate).1 =
        .error (.status .permissionDenied "registration could not be rotated") ∧
      ((r.serve register).2.serve rotate).1 = .ok (.rotateRegistration
        ⟨true, hexEncode (List.replicate 24 8), 1700000303, 2⟩) := by
  refine ⟨?_, newDurable_sampleDurable, ?_⟩ <;> decide +kernel

end DurableState

end ZeroTrustFL
