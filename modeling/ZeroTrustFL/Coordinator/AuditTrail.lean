import Mathlib
import ZeroTrustFL.Coordinator.Agreement

/-!
# The audit chain and the persisted state

The events of a transition are committed together with its snapshot, but a rollback commits the
previous snapshot without any event.  So the chain is the history of the persisted state as long as
no forward commit is applied that reports a failure; such a commit leaves its events behind.
-/

namespace ZeroTrustFL

/-- A transition of the persisted state with the request that made it and its events. -/
structure Transition where
  request : Request
  before : StateSnapshot
  after : StateSnapshot
  events : List AuditEvent

/-- What an event is about: its type, its node and its round. -/
def AuditEvent.subject (event : AuditEvent) : AuditEventType × String × UInt64 :=
  (event.type, event.nodeID, event.roundID)

/-- The credential of a node that the snapshot holds is the one that the event reports. -/
def StateSnapshot.Credits (snap : StateSnapshot) (event : AuditEvent) : Prop :=
  ∀ entry ∈ snap.registrations, entry.nodeID = event.nodeID →
    hashAuditOpaqueIdentifier entry.registrationID = event.registrationIDHash ∧
      unixSeconds entry.expiresAt = event.leaseExpiresUnix ∧
      entry.generation = event.credentialGeneration

/-- A transition has given a node a credential and reports it with one event of the type. -/
structure Transition.Credential (t : Transition) (type : AuditEventType) (nodeID : String) :
    Prop where
  model : t.after.model = t.before.model
  pending : t.after.pending = t.before.pending
  reports : ∃ event, t.events = [event] ∧
    event.subject = (type, nodeID, t.after.model.roundID) ∧ t.after.Credits event

/-- The events of a transition are those of what it has done: of a registration, a renewed lease,
a rotation, a revocation, an update that waits for others, or one that closes the round. -/
inductive Transition.Reported (t : Transition) : Prop where
  | registered {req : RegisterNodeRequest} (request : t.request = .registerNode (some req))
      (credential : t.Credential .nodeRegistered req.nodeID)
  | renewed {req : HeartbeatRequest} (request : t.request = .heartbeat (some req))
      (credential : t.Credential .leaseRenewed req.nodeID)
  | rotated {req : RotateRegistrationRequest}
      (request : t.request = .rotateRegistration (some req))
      (credential : t.Credential .credentialRotated req.nodeID)
  | revoked {req : RevokeRegistrationRequest} {event : AuditEvent}
      (request : t.request = .revokeRegistration (some req)) (events : t.events = [event])
      (subject : event.subject = (.registrationRevoked, req.nodeID, t.after.model.roundID))
      (target : event.targetNodeID = trimSpace req.targetNodeID)
      (blocked : ∀ entry ∈ t.after.registrations, entry.nodeID = event.targetNodeID →
        entry.revokedAt ≠ 0)
      (model : t.after.model = t.before.model)
      (pending : ∀ u, u ∈ t.after.pending ↔ u ∈ t.before.pending ∧ u.nodeID ≠ event.targetNodeID)
  | accepted {req : SubmitLocalUpdateRequest} {event : AuditEvent} (update : PendingUpdate)
      (request : t.request = .submitLocalUpdate (some req)) (events : t.events = [event])
      (subject : event.subject = (.updateAccepted, req.nodeID, t.before.model.roundID))
      (node : update.nodeID = req.nodeID) (identifier : update.updateID = event.updateID)
      (model : t.after.model = t.before.model)
      (pending : ∀ u, u ∈ t.after.pending ↔ u ∈ t.before.pending ∨ u = update)
  | aggregated {req : SubmitLocalUpdateRequest} {event event' : AuditEvent}
      (request : t.request = .submitLocalUpdate (some req)) (events : t.events = [event, event'])
      (subject : event.subject = (.updateAccepted, req.nodeID, t.before.model.roundID))
      (subject' : event'.subject = (.roundAggregated, req.nodeID, t.after.model.roundID))
      (round : t.after.model.roundID = t.before.model.roundID + 1)
      (pending : t.after.pending = [])

/-- The transitions lead from one snapshot to another, up to what has expired at `t`. -/
def Linked (t : ℤ) : StateSnapshot → List Transition → StateSnapshot → Prop
  | a, [], b => a.Agree b t
  | a, transition :: transitions, b =>
    a.Agree transition.before t ∧ Linked t transition.after transitions b

namespace DurableState

/-- The transition of a call that returns success; a call that reads the model makes none. -/
def transition (d : DurableState) (c : DurableCall) : Option Transition :=
  match c.call.request, (d.serve c).1 with
  | .getGlobalModel _, _ => none
  | _, .error _ => none
  | _, .ok response =>
    some ⟨c.call.request, d.before c, d.after c, d.transitionEvents c response⟩

/-- The transitions of the calls of a run that return success. -/
def transitions (d : DurableState) : List DurableCall → List Transition
  | [] => []
  | c :: calls => (d.transition c).toList ++ transitions (d.serve c).2 calls

/-- The commit of a call does not take effect while it reports a failure. -/
def ReportsApplied (c : DurableCall) : Prop := ∀ message, c.outcomes.forward ≠ .failure true message

/-- No round that the chain reports as aggregated is later than the round of the model. -/
def RoundsBounded (chain : List AuditEvent) (model : GlobalModel) : Prop :=
  ∀ event ∈ chain, event.type = .roundAggregated → event.roundID ≤ model.roundID

end DurableState

/-- No round that the chain of a store reports as aggregated is later than that of the persisted
model. -/
def Store.RoundsBounded (st : Store) : Prop :=
  ∀ event ∈ st.chain, event.type = .roundAggregated → ∃ snap ∈ st.persisted,
    event.roundID ≤ snap.model.roundID

namespace StateSnapshot

theorem Agree.refl (a : StateSnapshot) (t : ℤ) : a.Agree a t := ⟨rfl, rfl, fun _ _ => rfl⟩

theorem Agree.trans {a b c : StateSnapshot} {t : ℤ} (h : a.Agree b t) (h' : b.Agree c t) :
    a.Agree c t :=
  ⟨h'.model.trans h.model, h'.pending.trans h.pending,
    fun u hu => (h'.registrations u hu).trans (h.registrations u hu)⟩

theorem Agree.mono {a b : StateSnapshot} {t u : ℤ} (h : a.Agree b t) (htu : t ≤ u) : a.Agree b u :=
  ⟨h.model, h.pending, fun v hv => h.registrations v (htu.trans hv)⟩

end StateSnapshot

theorem Linked.agree_left {t : ℤ} {a a' b : StateSnapshot} {l : List Transition}
    (h : Linked t a l b) (ha : a'.Agree a t) : Linked t a' l b := by
  cases l with
  | nil => exact ha.trans h
  | cons transition l => exact ⟨ha.trans h.1, h.2⟩

/-! ## What the events report -/

namespace RegistrationStore

variable {s registry : RegistrationStore} (hs : s.WellFormed) {i : PeerIdentity} {lease now : ℤ}
  {entry : Registration}
include hs

theorem get?_register {id : String} (ran : s.register i id lease now = (.ok entry, registry)) :
    registry.entries.get? i.nodeID = some entry := by
  rcases register_cases hs i id lease now with ⟨err, h⟩ | ⟨e, h, -⟩ <;> cases ran.symm.trans h
  exact OrdMap.get?_insert_self ..

theorem get?_refresh {id : String} (ran : s.refresh i id lease now = (.ok entry, registry)) :
    registry.entries.get? i.nodeID = some entry ∧ entry.registrationID = id := by
  rcases refresh_cases hs i id lease now with ⟨err, h⟩ | ⟨x, -, hadmits, -, h⟩ <;>
    cases ran.symm.trans h
  exact ⟨OrdMap.get?_insert_self .., hadmits.id⟩

theorem get?_rotate {id id' : String} (ran : s.rotate i id id' lease now = (.ok entry, registry)) :
    registry.entries.get? i.nodeID = some entry := by
  rcases rotate_cases hs i id id' lease now with ⟨err, h⟩ | ⟨x, -, -, -, -, -, -, h⟩ <;>
    cases ran.symm.trans h
  exact OrdMap.get?_insert_self ..

theorem get?_revoke {nodeID reason : String} (hnow : 0 < now)
    (ran : s.revoke nodeID reason now = (.ok entry, registry)) :
    registry.entries.get? entry.nodeID = some entry ∧ entry.nodeID = trimSpace nodeID ∧
      entry.revokedAt ≠ 0 := by
  rcases revoke_cases hs nodeID reason now with
    ⟨err, h⟩ | ⟨x, err, -, -, h⟩ | ⟨x, hx, -, hrevoked, h⟩ | ⟨x, hx, -, -, -, -, h⟩ <;>
    cases ran.symm.trans h
  · have hnode := hs.keyed _ _ hx
    exact ⟨hnode.symm ▸ hx, hnode, hrevoked⟩
  · have hnode : x.nodeID = trimSpace nodeID := hs.keyed _ _ hx
    refine ⟨?_, hnode, hnow.ne'⟩
    rw [show (_ : Registration).nodeID = trimSpace nodeID from hnode]
    exact OrdMap.get?_insert_self ..

end RegistrationStore

namespace DurableService

variable {d : DurableService} {t : ℤ} (h : d.service.Sound t) {clock : Clock}
include h

theorem mem_pending_captureSnapshot {u : PendingUpdate} :
    u ∈ (d.captureSnapshot clock).pending ↔ d.service.pending.get? u.nodeID = some u := by
  rw [pending_captureSnapshot h.toRoundSound, OrdMap.mem_values_iff]
  constructor
  · rintro ⟨k, hk⟩
    rwa [h.keyed _ _ hk]
  · exact fun hu => ⟨_, hu⟩

theorem of_mem_registrations {e : Registration} (he : e ∈ (d.captureSnapshot clock).registrations) :
    d.service.registry.entries.get? e.nodeID = some e := by
  rw [registrations_captureSnapshot h.wellFormed, OrdMap.mem_values_iff] at he
  obtain ⟨n, hn⟩ := he
  have hget := ((RegistrationStore.get?_unexpired _ _ _ _).1 hn).1
  rwa [h.wellFormed.keyed _ _ hget]

/-- The snapshot holds the credential that the registry has for the node of an event. -/
theorem credits_captureSnapshot {event : AuditEvent} {entry : Registration}
    (hget : d.service.registry.entries.get? event.nodeID = some entry)
    (hid : hashAuditOpaqueIdentifier entry.registrationID = event.registrationIDHash)
    (hlease : unixSeconds entry.expiresAt = event.leaseExpiresUnix)
    (hgeneration : entry.generation = event.credentialGeneration) :
    (d.captureSnapshot clock).Credits event := by
  intro e he hnode
  have he' := of_mem_registrations h he
  rw [hnode, hget, Option.some.injEq] at he'
  exact he' ▸ ⟨hid, hlease, hgeneration⟩

end DurableService

namespace DurableState

section

variable {d : DurableState} {t : ℤ} (h : d.durable.Recoverable t) {c : DurableCall}
  (ht : t ≤ c.call.env.clock.start) {response : Response} {service : Service}
  (ran : d.durable.service.serve c.inner = (.ok response, service))
include h ht ran

theorem after_eq : d.after c =
    (d.withService service).durable.captureSnapshot (c.call.env.clock.drop 6) ∧
      service.Sound t := by
  have hsound := sound_served h ht
  rw [ran] at hsound
  exact ⟨by rw [after, ran], hsound⟩

omit ht ran in
theorem mem_pending_before {u : PendingUpdate} :
    u ∈ (d.before c).pending ↔ d.durable.service.pending.get? u.nodeID = some u :=
  DurableService.mem_pending_captureSnapshot h.sound

/-- A call that has changed nothing but the registry. -/
theorem credential_of_get? {registry : RegistrationStore} {s₁ : Service}
    (hsame : d.durable.service.SameRound s₁) (hservice : service = { s₁ with registry := registry })
    {event : AuditEvent} {entry : Registration} {type : AuditEventType} {nodeID : String}
    (hsubject : event.subject = (type, nodeID, (d.after c).model.roundID))
    (hget : registry.entries.get? event.nodeID = some entry)
    (hid : hashAuditOpaqueIdentifier entry.registrationID = event.registrationIDHash)
    (hlease : unixSeconds entry.expiresAt = event.leaseExpiresUnix)
    (hgeneration : entry.generation = event.credentialGeneration) :
    Transition.Credential ⟨c.call.request, d.before c, d.after c, [event]⟩ type nodeID := by
  obtain ⟨hafter, hsound⟩ := after_eq h ht ran
  subst hservice
  refine ⟨?_, ?_, event, rfl, hsubject, ?_⟩
  · show (d.after c).model = d.durable.service.model
    rw [hafter]
    exact hsame.model
  · show (d.after c).pending = (d.before c).pending
    rw [hafter, before, DurableService.pending_captureSnapshot h.sound.toRoundSound,
      DurableService.pending_captureSnapshot hsound.toRoundSound]
    exact congrArg OrdMap.values hsame.pending
  · show (d.after c).Credits event
    rw [hafter]
    exact DurableService.credits_captureSnapshot hsound hget hid hlease hgeneration

theorem model_after : (d.after c).model = service.model := by
  rw [(after_eq h ht ran).1]
  rfl

theorem mem_pending_after {u : PendingUpdate} :
    u ∈ (d.after c).pending ↔ service.pending.get? u.nodeID = some u := by
  obtain ⟨hafter, hsound⟩ := after_eq h ht ran
  rw [hafter]
  exact DurableService.mem_pending_captureSnapshot hsound

theorem reported_revoked {r : RevokeRegistrationRequest} {entry : Registration} {s₁ : Service}
    {registry : RegistrationStore} (request : c.call.request = .revokeRegistration (some r))
    (same : d.durable.service.SameRound s₁)
    (hran : d.durable.service.registry.revoke r.targetNodeID r.reason (c.inner.env.clock.read 3) =
      (.ok entry, registry))
    (hresponse : response = .revokeRegistration ⟨true, entry.nodeID, entry.generation,
      unixSeconds entry.revokedAt, unixSeconds entry.expiresAt⟩)
    (hservice : service = { s₁ with
      registry := registry
      pending := d.durable.service.pending.erase entry.nodeID
      rates := s₁.rates.erase entry.nodeID }) :
    Transition.Reported
      ⟨c.call.request, d.before c, d.after c, d.transitionEvents c response⟩ := by
  obtain ⟨hafter, hsound⟩ := after_eq h ht ran
  obtain ⟨hget, hnode, hrevoked⟩ :=
    RegistrationStore.get?_revoke h.sound.wellFormed (c.inner.env.clock.read_pos 3) hran
  subst hresponse hservice
  simp only [transitionEvents, auditEvents, request, Option.toList_some, List.map_singleton]
  refine .revoked rfl rfl rfl hnode (fun e he hname => ?_) ((model_after h ht ran).trans same.model)
    fun u => ?_
  · have he' := DurableService.of_mem_registrations hsound (hafter ▸ he)
    rw [hname] at he'
    cases hget.symm.trans he'
    exact hrevoked
  · rw [mem_pending_after h ht ran, mem_pending_before h]
    show (d.durable.service.pending.erase entry.nodeID).get? u.nodeID = some u ↔
      _ ∧ u.nodeID ≠ entry.nodeID
    rw [OrdMap.get?_erase]
    split_ifs with heq
    · simp [heq]
    · simp [heq]

/-- The events of a call that the service accepts report what it has done. -/
theorem reported_served (haudit : d.durable.service.model.Auditable)
    (hreq : ∀ req, c.call.request ≠ .getGlobalModel req) : Transition.Reported
      ⟨c.call.request, d.before c, d.after c, d.transitionEvents c response⟩ := by
  obtain ⟨p, hout, hprepared⟩ := d.durable.service.serve_completed c.inner
  rw [ran] at hout
  replace hprepared := hprepared (congrArg Prod.fst ran)
  cases hout with
  | read =>
    obtain ⟨_, request⟩ := hprepared
    exact absurd request (hreq _)
  | registered hran =>
    obtain ⟨r, hc, -, hnode, -⟩ := hprepared
    replace hc : c.call.request = .registerNode (some r) := hc
    have hget := RegistrationStore.get?_register h.sound.wellFormed hran
    rw [← hnode] at hget
    simp only [transitionEvents, auditEvents, hc, Option.toList_some, List.map_singleton]
    exact .registered rfl (hc ▸ credential_of_get? h ht ran (.refl _) rfl rfl hget rfl rfl rfl)
  | @refreshed i r _ _ hran =>
    have hc : c.call.request = .heartbeat (some r) := hprepared.1
    obtain ⟨hget, hid⟩ := RegistrationStore.get?_refresh h.sound.wellFormed hran
    rw [← (requireIdentityAndRegistration_ok hprepared.2).2.2.1] at hget
    simp only [transitionEvents, auditEvents, hc, Option.toList_some, List.map_singleton]
    exact .renewed rfl
      (hc ▸ credential_of_get? h ht ran (.refl _) rfl rfl hget (congrArg _ hid) rfl rfl)
  | @rotated r i _ _ _ _ _ same hran =>
    have hc : c.call.request = .rotateRegistration (some r) := hprepared.1
    have hget := RegistrationStore.get?_rotate h.sound.wellFormed hran
    have hrequire := (Service.prepareRotation_ok hprepared.2).1
    rw [← (requireIdentityAndRegistration_ok hrequire).2.2.1] at hget
    simp only [transitionEvents, auditEvents, hc, Option.toList_some, List.map_singleton]
    exact .rotated rfl (hc ▸ credential_of_get? h ht ran same rfl rfl hget rfl rfl rfl)
  | revoked same hran => exact reported_revoked h ht ran hprepared.1 same hran rfl rfl
  | @waiting r prepared updateID _ passes few =>
    have hc : c.call.request = .submitLocalUpdate (some r) := hprepared.1
    have hmodel : (d.after c).model = (d.before c).model :=
      (model_after h ht ran).trans (Service.sameRound_afterChecks _ _ _).model
    simp only [transitionEvents, auditEvents, hc, Option.toList_some, List.flatMap_singleton,
      updateAuditEvents, hmodel, UInt64.lt_irrefl, if_false]
    refine .accepted (Service.updateOf r updateID prepared.values) rfl rfl ?_ rfl rfl hmodel
      fun u => ?_
    · exact congrArg (fun round => (_, _, round)) passes.admits.round
    · rw [mem_pending_after h ht ran, mem_pending_before h]
      show (d.durable.service.pending.insert r.nodeID _).get? u.nodeID = some u ↔ _
      rw [OrdMap.get?_insert]
      split_ifs with heq
      · rw [heq, passes.admits.fresh]
        simp [eq_comm]
      · constructor
        · exact .inl
        · rintro (hold | rfl)
          · exact hold
          · exact absurd rfl heq
  | @closing r prepared updateID _ _ _ payload passes enough closes =>
    have hc : c.call.request = .submitLocalUpdate (some r) := hprepared.1
    have hround : (d.after c).model.roundID = (d.before c).model.roundID + 1 := by
      rw [model_after h ht ran]
      rfl
    have hlt : (d.before c).model.roundID < (d.after c).model.roundID := by
      rw [hround]
      exact lt_add_one_of_le_max haudit.round
    have hpending : (d.after c).pending = [] := by
      obtain ⟨hafter, hsound⟩ := after_eq h ht ran
      rw [hafter, DurableService.pending_captureSnapshot hsound.toRoundSound]
      rfl
    simp only [transitionEvents, auditEvents, hc, Option.toList_some, List.flatMap_singleton,
      updateAuditEvents, hlt, if_true]
    exact .aggregated rfl rfl (congrArg (fun round => (_, _, round)) passes.admits.round) rfl
      hround hpending

end

end DurableState

/-! ## The events of a transition -/

/-- Only an aggregated round is reported as one, with the round of the model after it. -/
theorem roundID_of_mem_auditEvents {settings : Settings} {before after : StateSnapshot}
    {clock : Clock} {request : Request} {response : Response} {event : AuditEvent}
    (h : event ∈ auditEvents settings before after clock request response)
    (htype : event.type = .roundAggregated) : event.roundID = after.model.roundID := by
  cases request <;> cases response <;>
    simp only [auditEvents, List.mem_map, List.mem_flatMap, List.not_mem_nil] at h
  · obtain ⟨req, -, rfl⟩ := h
    cases htype
  · obtain ⟨req, -, rfl⟩ := h
    cases htype
  · obtain ⟨req, -, h⟩ := h
    simp only [updateAuditEvents] at h
    split_ifs at h with hlt
    · rcases List.mem_cons.1 h with rfl | h
      · cases htype
      · rw [List.mem_singleton.1 h]
        rfl
    · rw [List.mem_singleton.1 h] at htype
      cases htype
  · obtain ⟨req, -, rfl⟩ := h
    cases htype
  · obtain ⟨req, -, rfl⟩ := h
    cases htype

namespace DurableState

variable {d : DurableState} {c : DurableCall}

theorem transition_of_error {e : Failure} (h : (d.serve c).1 = .error e) :
    d.transition c = none := by
  cases hc : c.call.request <;> simp only [transition, hc, h]

theorem transition_of_ok {response : Response} (h : (d.serve c).1 = .ok response)
    (hreq : ∀ req, c.call.request ≠ .getGlobalModel req) :
    d.transition c =
      some ⟨c.call.request, d.before c, d.after c, d.transitionEvents c response⟩ := by
  cases hc : c.call.request with
  | getGlobalModel req => exact absurd hc (hreq req)
  | _ => simp only [transition, hc, h]

/-- The rounds of the chain stay bounded by the round of the model when the events of a transition
are appended. -/
theorem roundsBounded_committed {response : Response} {service : Service} {chain : List AuditEvent}
    (h : RoundsBounded chain d.durable.service.model) (haudit : d.durable.service.model.Auditable)
    (ran : d.durable.service.serve c.inner = (.ok response, service)) :
    RoundsBounded (chain ++ d.transitionEvents c response) service.model := by
  have hafter : (d.after c).model = service.model := by
    show (d.durable.service.serve c.inner).2.model = service.model
    rw [ran]
  have hround : d.durable.service.model.roundID ≤ service.model.roundID := by
    have hserve := d.durable.service.model_serve c.inner
    rw [ran] at hserve
    rcases hserve with hmodel | ⟨_, _, -, -, hround⟩
    · rw [show service.model = _ from hmodel]
      exact UInt64.le_refl _
    · rw [show service.model.roundID = _ from hround]
      exact UInt64.le_of_lt (lt_add_one_of_le_max haudit.round)
  intro event hevent htype
  rcases List.mem_append.1 hevent with hold | hnew
  · exact UInt64.le_trans (h event hold htype) hround
  · rw [roundID_of_mem_auditEvents hnew htype, hafter]
    exact UInt64.le_refl _

/-- What a call does to the chain and to the persisted state. -/
structure Records (d : DurableState) (c : DurableCall) (d' : DurableState) : Prop where
  audited : d'.store.audited = true
  chain : d'.store.chain = d.store.chain ++ (d.transition c).toList.flatMap Transition.events
  linked : ∀ snap ∈ d.store.persisted, ∀ snap' ∈ d'.store.persisted, ∀ u,
    c.call.env.clock.finish ≤ u → Linked u snap (d.transition c).toList snap'
  reported : ∀ transition ∈ d.transition c, transition.Reported
  bounded : RoundsBounded d.store.chain d.durable.service.model →
    RoundsBounded d'.store.chain d'.durable.service.model

/-- A call that leaves no event and has changed nothing that is persisted. -/
theorem records_unchanged {d' : DurableState} (haudited : d.store.audited = true)
    (hnone : d.transition c = none) (hunchanged : d.Unchanged c d')
    (haudited' : d'.store.audited = d.store.audited) (hchain : d'.store.chain = d.store.chain) :
    d.Records c d' where
  audited := haudited'.trans haudited
  chain := by rw [hchain, hnone, Option.toList_none, List.flatMap_nil, List.append_nil]
  linked := by
    intro snap hsnap snap' hsnap' u hu
    rw [hnone]
    exact (hunchanged.store snap hsnap snap' hsnap').mono hu
  reported := by
    intro transition hmem
    rw [hnone] at hmem
    cases hmem
  bounded := by
    intro hb
    rw [hchain, hunchanged.memory.model]
    exact hb

section

variable {d : DurableState} {t : ℤ} (h : d.Ready t) (hagrees : d.Agrees t)
  (haudited : d.store.audited = true) {c : DurableCall} (ht : t ≤ c.call.env.clock.start)
include h hagrees haudited ht

theorem records_serve (hrollback : c.outcomes.rollback = .success) (happlied : ReportsApplied c) :
    d.Records c (d.serve c).2 := by
  by_cases hget : ∃ req, c.call.request = .getGlobalModel req
  · obtain ⟨req, hreq⟩ := hget
    have hnone : d.transition c = none := by simp only [transition, hreq]
    have hsame : (d.serve c).2 = d := by simp only [serve, hreq]
    rw [hsame]
    refine records_unchanged haudited hnone ⟨⟨rfl, rfl, rfl⟩,
      ⟨fun _ _ _ _ => Iff.rfl, fun _ _ _ _ _ => Iff.rfl⟩, fun a ha b hb => ?_⟩ rfl rfl
    obtain rfl : a = b := Option.some.inj (ha.symm.trans hb)
    exact .refl a _
  · obtain ⟨hagrees', -, hunchanged⟩ := agrees_serve h.recoverable hagrees ht hrollback
    have herror := fun e (he : (d.serve c).1 = .error e) => transition_of_error he
    have hok := fun response (hr : (d.serve c).1 = .ok response) =>
      transition_of_ok hr fun req hreq => hget ⟨req, hreq⟩
    have hout := serve_outcome h.recoverable ht
    generalize d.serve c = result at hout hunchanged herror hok hagrees'
    cases hout with
    | read request => exact absurd ⟨_, request⟩ hget
    | @rejected e service ran =>
      exact records_unchanged haudited (herror e rfl) (hunchanged e rfl) rfl rfl
    | @rolledBack e response service st ran forwarded =>
      cases forwarded with
      | unchanged =>
        refine records_unchanged haudited (herror e rfl) (hunchanged e rfl) rfl ?_
        simp only [Store.apply, haudited, if_true, List.append_nil]
      | applied check forward => exact absurd forward (happlied _)
    | uncompensated ran forwarded rollback =>
      rw [hrollback] at rollback
      cases rollback
    | @committed response service ran check =>
      have hchain : (d.store.apply (d.after c) (d.transitionEvents c response)).chain =
          d.store.chain ++ d.transitionEvents c response := by
        simp only [Store.apply, haudited, if_true]
      refine ⟨haudited, ?_, fun snap hsnap snap' hsnap' u hu => ?_, fun transition hmem => ?_,
        fun hb => ?_⟩
      · rw [hok response rfl, hchain, Option.toList_some, List.flatMap_singleton]
      · rw [hok response rfl]
        obtain rfl : d.after c = snap' := Option.some.inj hsnap'
        obtain ⟨snap₁, hsnap₁, hholds⟩ := hagrees
        obtain rfl : snap₁ = snap := Option.some.inj (hsnap₁.symm.trans hsnap)
        have hbefore : (d.before c).Holds d.durable.service c.call.env.clock.finish :=
          StateSnapshot.holds_captureSnapshot h.recoverable.sound (c.call.env.clock.le_finish 1)
        have hwf := h.recoverable.sound.wellFormed
        exact ⟨(hholds.agree hbefore ⟨rfl, rfl, rfl⟩
          (ht.trans c.call.env.clock.start_le_finish) hwf hwf).mono hu, .refl _ u⟩
      · rw [hok response rfl, Option.mem_some_iff] at hmem
        exact hmem ▸ reported_served h.recoverable ht ran (h.auditable haudited) fun req hreq =>
          hget ⟨req, hreq⟩
      · rw [hchain]
        exact roundsBounded_committed hb (h.auditable haudited) ran

end

/-! ## Runs -/

/-- The chain and the persisted state after a run. -/
structure Recorded (d : DurableState) (calls : List DurableCall) (d' : DurableState) (u : ℤ) :
    Prop where
  chain : d'.store.chain = d.store.chain ++ (d.transitions calls).flatMap Transition.events
  linked : ∀ snap ∈ d.store.persisted, ∀ snap' ∈ d'.store.persisted,
    Linked u snap (d.transitions calls) snap'
  reported : ∀ transition ∈ d.transitions calls, transition.Reported
  bounded : RoundsBounded d.store.chain d.durable.service.model →
    RoundsBounded d'.store.chain d'.durable.service.model

theorem recorded_final {d : DurableState} {clock : Clock} (h : d.Ready clock.finish)
    (hagrees : d.Agrees clock.finish) (haudited : d.store.audited = true) (calls : List DurableCall)
    (hord : (clocks clock calls).Pairwise Clock.Before)
    (hrollback : ∀ c ∈ calls, c.outcomes.rollback = .success)
    (happlied : ∀ c ∈ calls, ReportsApplied c) {u : ℤ} (hu : After clock calls u) :
    d.Recorded calls (final serve d calls) u := by
  induction calls generalizing d clock with
  | nil =>
    refine ⟨by simp [transitions], fun a ha b hb => ?_, fun transition hmem => (by cases hmem), id⟩
    obtain rfl : a = b := Option.some.inj (ha.symm.trans hb)
    exact .refl a u
  | cons c calls ih =>
    obtain ⟨hfirst, hrest⟩ := List.pairwise_cons.1 hord
    have ht : clock.finish ≤ c.call.env.clock.start := hfirst _ List.mem_cons_self
    have hroll := hrollback c List.mem_cons_self
    have hstep := records_serve h hagrees haudited ht hroll (happlied c List.mem_cons_self)
    have hagrees' := (agrees_serve h.recoverable hagrees ht hroll).1
    have hrun := ih (h.serve ht) hagrees' hstep.audited hrest
      (fun c' hc' => hrollback c' (List.mem_cons_of_mem _ hc'))
      (fun c' hc' => happlied c' (List.mem_cons_of_mem _ hc')) fun k hk => hu k
      (List.mem_cons_of_mem _ hk)
    refine ⟨?_, fun snap hsnap snap' hsnap' => ?_, fun transition hmem => ?_,
      fun hb => hrun.bounded (hstep.bounded hb)⟩
    · rw [final_cons, hrun.chain, hstep.chain, transitions, List.flatMap_append, List.append_assoc]
    · obtain ⟨mid, hmid, -⟩ := hagrees'
      have hfinish : c.call.env.clock.finish ≤ u := hu _ (List.mem_cons_of_mem _ List.mem_cons_self)
      have hlinked := hstep.linked snap hsnap mid hmid u hfinish
      have htail := hrun.linked mid hmid snap' hsnap'
      rw [transitions]
      generalize d.transition c = transition at hlinked
      rcases transition with _ | transition
      · exact htail.agree_left hlinked
      · exact ⟨hlinked.1, htail.agree_left hlinked.2⟩
    · rw [transitions, List.mem_append, Option.mem_toList] at hmem
      rcases hmem with hfirst | hlater
      · exact hstep.reported transition hfirst
      · exact hrun.reported transition hlater

/-- A coordinator starts with the model of its store. -/
theorem roundsBounded_new {registry : RegistrationStore} {cfg : Config} {st : Store}
    {experimentConfig : ExperimentConfig} {modelID : String} {clock : Clock}
    {outcome : CommitOutcome} {d : DurableState} (hst : st.RoundsBounded)
    (h : newDurableServiceWithIdentity registry cfg st experimentConfig modelID clock outcome =
      .ok d) :
    RoundsBounded d.store.chain d.durable.service.model := by
  obtain ⟨d₀, -, hrec⟩ := newDurableServiceWithIdentity_ok h
  have hbound : ∀ {d₁ type clock'}, type ≠ .roundAggregated → Started d₁ st type clock' d →
      RoundsBounded st.chain d.durable.service.model →
      RoundsBounded d.store.chain d.durable.service.model := by
    intro d₁ type clock' hne hstart hb event hevent htype
    rw [hstart.store, Store.apply] at hevent
    dsimp only at hevent
    split_ifs at hevent
    · rcases List.mem_append.1 hevent with hold | hnew
      · exact hb event hold htype
      · rw [List.mem_singleton.1 hnew] at htype
        exact absurd htype hne
    · exact hb event hevent htype
  rcases recoverOrInitialize_ok hrec with ⟨hload, hstart⟩ | ⟨snapshot, d₁, hload, hrestore, hstart⟩
  · refine hbound (by decide) hstart fun event hevent htype => ?_
    obtain ⟨snap, hsnap, -⟩ := hst event hevent htype
    rw [Store.load_ok hload] at hsnap
    cases hsnap
  · refine hbound (by decide) hstart fun event hevent htype => ?_
    obtain ⟨snap, hsnap, hle⟩ := hst event hevent htype
    rw [Store.load_ok hload] at hsnap
    cases hsnap
    obtain ⟨registry', hr⟩ := DurableService.restoreSnapshot_restored hrestore
    rw [hstart.durable, hr.eq]
    exact hle

/-- Audit log and durable state agree.  Suppose that every rollback commit reports success and that
no forward commit takes effect while it reports a failure.  Then after every run the chain has grown
by the events of exactly those transitions that lead from the snapshot persisted at the start to the
one persisted now.  The events of each are those of its kind, for the node, the round and the effect
that the snapshots show, and no round that the chain reports as aggregated is later than the
persisted one. -/
theorem chain_is_history (storeCalls : List StoreCall) (cfg : Config) (st : Store)
    (experimentConfig : ExperimentConfig) (modelID : String) (clock₀ : Clock)
    (outcome : CommitOutcome) (d₀ : DurableState) (haudited : st.audited = true)
    (hst : st.RoundsBounded)
    (hnew : newDurableServiceWithIdentity
      (final StoreCall.run newRegistrationStore storeCalls) cfg st
      experimentConfig modelID clock₀ outcome = .ok d₀) (calls : List DurableCall)
    (hord : (clocks clock₀ calls).Pairwise Clock.Before)
    (hrollback : ∀ c ∈ calls, c.outcomes.rollback = .success)
    (happlied : ∀ c ∈ calls, ReportsApplied c) : let d := final serve d₀ calls
    d.store.chain = d₀.store.chain ++ (d₀.transitions calls).flatMap Transition.events ∧
      (∃ snap₀ snap, d₀.store.persisted = some snap₀ ∧ d.store.persisted = some snap ∧
        ∀ u, After clock₀ calls u → Linked u snap₀ (d₀.transitions calls) snap) ∧
      (∀ transition ∈ d₀.transitions calls, transition.Reported) ∧ d.store.RoundsBounded := by
  intro d
  have hregistry := RegistrationStore.wellFormed_final storeCalls
  have hready := ready_new hregistry hnew
  have hagrees := agrees_new hregistry hnew
  have haudited₀ : d₀.store.audited = true := by
    obtain ⟨_, _, -, hstart, -⟩ := started_new hregistry hnew
    rw [hstart.store]
    exact haudited
  have hrun : ∀ {u}, After clock₀ calls u → d₀.Recorded calls d u := fun hu =>
    recorded_final hready hagrees haudited₀ calls hord hrollback happlied hu
  have hagrees' : ∀ {u}, After clock₀ calls u → d.Agrees u := fun hu =>
    agrees_final hready hagrees calls hord hrollback hu
  obtain ⟨u, hu⟩ : ∃ u, After clock₀ calls u := by
    obtain ⟨u, hu⟩ := ((clocks clock₀ calls).map Clock.finish).toFinset.bddAbove
    exact ⟨u, fun k hk => hu (by simpa using ⟨k, hk, rfl⟩)⟩
  obtain ⟨snap₀, hsnap₀, -⟩ := hagrees
  obtain ⟨snap, hsnap, hholds⟩ := hagrees' hu
  refine ⟨(hrun hu).chain,
    ⟨snap₀, snap, hsnap₀, hsnap, fun v hv => (hrun hv).linked snap₀ hsnap₀ snap hsnap⟩,
    (hrun hu).reported, fun event hevent htype => ⟨snap, hsnap, ?_⟩⟩
  rw [hholds.model]
  exact (hrun hu).bounded (roundsBounded_new hst hnew) event hevent htype

/-- A worker registers and its update closes the round. -/
def sampleRound : List DurableCall :=
  [⟨Service.sampleRegistration "worker-1" 1 7, .success, .success⟩,
    ⟨Service.sampleSubmission "worker-1" 2 7 [1], .success, .success⟩]

theorem chain_sampleRound :
    (final serve sampleDurable sampleRound).store.chain.map AuditEvent.subject =
        [(.stateInitialized, "", 0), (.nodeRegistered, "worker-1", 0),
          (.updateAccepted, "worker-1", 0), (.roundAggregated, "worker-1", 1)] ∧
      (final serve sampleDurable sampleRound).store.chain = sampleDurable.store.chain ++
        (sampleDurable.transitions sampleRound).flatMap Transition.events ∧
      ∀ transition ∈ sampleDurable.transitions sampleRound, transition.Reported := by
  have happlied : ∀ c ∈ sampleRound, ReportsApplied c := by
    intro c hc message hforward
    rcases List.mem_cons.1 hc with rfl | hc
    · cases hforward
    · rw [List.mem_singleton.1 hc] at hforward
      cases hforward
  obtain ⟨hchain, -, hreported, -⟩ := chain_is_history [] _ _ _ _ _ _ _ rfl (fun _ h => by cases h)
    newDurable_sampleDurable sampleRound (by decide +kernel) (by decide +kernel) happlied
  exact ⟨by decide +kernel, hchain, hreported⟩

/-- When the commit of an update that closes the round takes effect but reports a failure, the chain
reports a round that the persisted state never reached. -/
theorem sampleCalls_round_not_persisted :
    newDurableServiceWithIdentity newRegistrationStore ⟨0, 0, none, 1, 0, ""⟩
        ⟨true, none, []⟩ sampleExperiment
        "global-model" (Service.sampleEnv 0 0).clock .success = .ok sampleDurable ∧
      (clocks (Service.sampleEnv 0 0).clock sampleCalls).Pairwise Clock.Before ∧
      (∀ c ∈ sampleCalls, c.outcomes.rollback = .success) ∧
      (((final serve sampleDurable sampleCalls).store.chain.filter fun event =>
        event.type = .roundAggregated).map AuditEvent.roundID) = [1] ∧
      (final serve sampleDurable sampleCalls).store.persisted.map
        (fun snap => snap.model.roundID) = some 0 := by
  refine ⟨newDurable_sampleDurable, ?_, ?_, ?_⟩ <;> decide +kernel

end DurableState

end ZeroTrustFL
