import Mathlib
import ZeroTrustFL.Coordinator.Linearizable
import ZeroTrustFL.Coordinator.EnvelopeRuns
import ZeroTrustFL.Security.Authorizer

/-!
# The server

`cmd/coordinator/main.go` serves the envelope service around a durable coordinator over mutual TLS,
behind the interceptor that authorizes calls.  Whatever remote calls are made at the same time, the
coordinator goes through calls of authenticated peers one after the other; each registration and
each pending update goes back to a certificate that the server has accepted, and only workers and
administrators change the round.
-/

namespace ZeroTrustFL

/-! ## The stack -/

/-- A remote call and how the commits of its transition go. -/
structure SecuredCall where
  rpc : Rpc
  outcomes : CommitOutcomes

/-- The transport and the interceptor. -/
structure Server where
  config : TLSConfig
  authorizer : Authorizer

/-- The server with a certificate of its own and the keys for tokens. -/
def newServer (opts : ServerTLSOptions) (leaf : Certificate) (verifier : TokenVerifier) :
    Except String Server :=
  match serverTLSConfig opts leaf with
  | .error e => .error e
  | .ok config => .ok ⟨config, newAuthorizer opts.trustDomain verifier⟩

namespace Server

/-- The check of the connection over which a call comes. -/
def checkConnection (server : Server) : PeerInfo → Except String Unit
  | .tls state => server.config.verifyConnection state
  | _ => .ok ()

/-- The call as which the handler gets a remote call of an identity: the interceptor has read the
clock twice. -/
def handled (c : SecuredCall) (identity : PeerIdentity) : DurableCall :=
  ⟨⟨some identity, c.rpc.request, { c.rpc.env with clock := c.rpc.env.clock.drop 2 }⟩, c.outcomes⟩

/-- What a remote call passes before its handler; the interceptor reads the registry while other
calls run. -/
def intercept (server : Server) (s : EnvelopeState DurableShared) (c : SecuredCall) :
    Except Denial DurableCall :=
  match server.checkConnection c.rpc.peer with
  | .error e => .error (.refused e)
  | .ok () =>
    match server.authorizer.authorize s.inner.state.durable.service.registry c.rpc with
    | .error denial => .error denial
    | .ok identity => .ok (handled c identity)

/-- The server in front of the envelope service. -/
def sections (server : Server) (modelID : String) :
    Sections (EnvelopeState DurableShared)
      (SecuredCall ⊕ EnvelopeTask DurableTask DurableCall) SecuredCall
      (Except Denial (Except Failure Response)) :=
  (EnvelopeService.sections wrappedDurable modelID).gated server.intercept

/-- The state after what happens on a server that starts with a coordinator. -/
def run (server : Server) (modelID : String) (d : DurableState)
    (events : List (ThreadEvent SecuredCall)) : EnvelopeState DurableShared :=
  (final (server.sections modelID).step ⟨⟨⟨d, none⟩, none⟩, fun _ => none⟩ events).shared

end Server

/-! ## Authentication -/

/-- The remote call comes over a connection that the server accepts.  The certificate of the peer
states the identity, the token is issued for it, and its role may make the call. -/
structure Authenticates (opts : ServerTLSOptions) (verifier : TokenVerifier) (rpc : Rpc)
    (identity : PeerIdentity) (state : ConnectionState) (cert : Certificate) : Prop where
  mode : ∃ pqcMode, parsePQCMode opts.pqcMode = .ok pqcMode ∧ opts.Accepts pqcMode state cert
  peer : rpc.peer = .tls state
  stated : cert.States opts.trustDomain identity
  token : ∃ rawToken, bearerTokenFromIncomingContext rpc.authorization = .ok rawToken ∧
    verifier.parse rawToken (rpc.env.clock.read 0) = .ok ⟨identity.nodeID, identity.nodeID,
      identity.role⟩
  permitted : ∃ rule, defaultMethodRules.lookup rpc.request.method = some rule ∧
    identity.role ∈ rule.roles

/-- The method of the remote call needs no registration, or the peer is registered. -/
def Enrolled (registry : RegistrationStore) (rpc : Rpc) (identity : PeerIdentity) : Prop :=
  ∀ rule, defaultMethodRules.lookup rpc.request.method = some rule →
    rule.requireRegistration = true → registry.isRegistered identity (rpc.env.clock.read 1) = true

section

variable {opts : ServerTLSOptions} {leaf : Certificate} {verifier : TokenVerifier} {server : Server}

theorem newServer_ok (h : newServer opts leaf verifier = .ok server) :
    ∃ pqcMode, parsePQCMode opts.pqcMode = .ok pqcMode ∧
      server = ⟨⟨pqcCurvePreferences pqcMode, opts.verifyConnection pqcMode⟩,
        newAuthorizer opts.trustDomain verifier⟩ := by
  rcases hmode : parsePQCMode opts.pqcMode with e | pqcMode
  · simp only [newServer, serverTLSConfig, hmode, reduceCtorEq] at h
  rcases hidentity : validatePQCIdentity opts.requirePQCIdentity leaf "server" with e | ⟨⟨⟩⟩
  · simp only [newServer, serverTLSConfig, hmode, hidentity, reduceCtorEq] at h
  simp only [newServer, serverTLSConfig, hmode, hidentity] at h
  cases h
  exact ⟨pqcMode, rfl, rfl⟩

theorem Server.intercept_ok (hserver : newServer opts leaf verifier = .ok server)
    {s : EnvelopeState DurableShared} {c : SecuredCall} {call : DurableCall}
    (h : server.intercept s c = .ok call) :
    ∃ identity state cert, call = handled c identity ∧
      Authenticates opts verifier c.rpc identity state cert ∧
      Enrolled s.inner.state.durable.service.registry c.rpc identity := by
  obtain ⟨pqcMode, hmode, rfl⟩ := newServer_ok hserver
  rcases hconnection : checkConnection
    ⟨⟨pqcCurvePreferences pqcMode, opts.verifyConnection pqcMode⟩,
    newAuthorizer opts.trustDomain verifier⟩ c.rpc.peer with e | ⟨⟨⟩⟩
  · simp only [intercept, hconnection, reduceCtorEq] at h
  rcases hauthorize : (newAuthorizer opts.trustDomain verifier).authorize
    s.inner.state.durable.service.registry c.rpc with denial | identity
  · simp only [intercept, hconnection, hauthorize, reduceCtorEq] at h
  simp only [intercept, hconnection, hauthorize] at h
  cases h
  obtain ⟨state, hadmits⟩ := Authorizer.authorize_ok hauthorize
  rw [hadmits.peer] at hconnection
  obtain ⟨cert, haccepts⟩ := ServerTLSOptions.verifyConnection_ok hconnection
  obtain ⟨cert', hleaf, hstates⟩ := hadmits.certificate
  obtain rfl : cert = cert' := Option.some.inj (haccepts.leaf.symm.trans hleaf)
  obtain ⟨rawToken, claims, htoken, hparse, rfl⟩ := hadmits.token
  obtain ⟨rule, hrule, hrole, hregistered⟩ := hadmits.permitted
  refine ⟨identity, state, cert, rfl,
    ⟨⟨pqcMode, hmode, haccepts⟩, hadmits.peer, ?_, ⟨rawToken, htoken, hparse⟩,
    ⟨rule, hrule, hrole⟩⟩, fun rule' hrule' hrequire => ?_⟩
  · exact hstates.trustDomainOr
  · obtain rfl : rule = rule' := Option.some.inj (hrule.symm.trans hrule')
    exact hregistered hrequire

/-- The handler's call for a remote call of the run, whose peer is authenticated and was registered,
where the method asks for it, in the state after some earlier part of the run. -/
def Server.Handled (opts : ServerTLSOptions) (verifier : TokenVerifier) (server : Server)
    (modelID : String) (d : DurableState) (events : List (ThreadEvent SecuredCall))
    (call : DurableCall) : Prop :=
  ∃ earlier k c identity state cert, earlier <+: events ∧ .call k c ∈ earlier ∧
    call = handled c identity ∧ Authenticates opts verifier c.rpc identity state cert ∧
    Enrolled (server.run modelID d earlier).inner.state.durable.service.registry c.rpc identity

/-- Whatever remote calls the server serves at the same time, the coordinator is in the state after
calls one after the other, or on the way there in a call that holds the lock.  Each of them is
forwarded for a remote call of an authenticated peer. -/
theorem secured_serializable (hserver : newServer opts leaf verifier = .ok server)
    (modelID : String) (d : DurableState) (events : List (ThreadEvent SecuredCall)) :
    SerialState (server.Handled opts verifier modelID d events) d
      (server.run modelID d events).inner := by
  obtain ⟨events', hadmitted, hshared⟩ :=
    (EnvelopeService.sections wrappedDurable modelID).gated_final server.intercept
    ⟨⟨d, none⟩, none⟩ events
  have hrun : server.run modelID d events =
      (final (EnvelopeService.sections wrappedDurable modelID).step
      ⟨⟨⟨d, none⟩, none⟩, fun _ => none⟩ events').shared := hshared.symm
  rw [hrun]
  refine serialState_of_calls fun k call hmem => ?_
  obtain ⟨earlier, c, hearlier, hcall, hintercept⟩ := hadmitted k call hmem
  obtain ⟨identity, state, cert, heq, hauthenticates, henrolled⟩ :=
    Server.intercept_ok hserver hintercept
  exact ⟨earlier, k, c, identity, state, cert, hearlier, hcall, heq, hauthenticates, henrolled⟩

end

/-! ## Where registrations come from -/

namespace RegistrationStore

/-- All registrations have a binding of `B`. -/
def Bound (B : String → String → String → Prop) (s : RegistrationStore) : Prop :=
  ∀ n e, s.entries.get? n = some e → B e.nodeID e.role e.certificateFingerprint

variable {B : String → String → String → Prop} {s : RegistrationStore}

theorem Bound.insert (h : s.Bound B) {n : String} {e : Registration}
    (he : B e.nodeID e.role e.certificateFingerprint) : Bound B ⟨s.entries.insert n e⟩ := by
  intro m x hx
  by_cases hm : m = n
  · subst hm
    rw [OrdMap.get?_insert_self] at hx
    cases hx
    exact he
  · exact h m x ((OrdMap.get?_insert_of_ne _ _ hm).symm.trans hx)

theorem Bound.filter (h : s.Bound B) (p : String → Registration → Bool) :
    Bound B ⟨s.entries.filter p⟩ := by
  intro m x hx
  rw [OrdMap.get?_filter, Option.filter_eq_some_iff] at hx
  exact h m x hx.1

theorem Bound.register (h : s.Bound B) (hs : s.WellFormed) {i : PeerIdentity}
    (hi : B i.nodeID i.role i.certificateFingerprint) (id : String) (lease now : ℤ) :
    Bound B (s.register i id lease now).2 := by
  rcases register_cases hs i id lease now with ⟨err, heq⟩ | ⟨e, heq, he⟩ <;> rw [heq]
  · exact h
  · exact h.insert (by rwa [he.node_eq, he.role_eq, he.fingerprint_eq])

theorem Bound.refresh (h : s.Bound B) (hs : s.WellFormed) (i : PeerIdentity) (id : String)
    (lease now : ℤ) : Bound B (s.refresh i id lease now).2 := by
  rcases refresh_cases hs i id lease now with ⟨err, heq⟩ | ⟨x, hx, -, -, heq⟩ <;> rw [heq]
  · exact h
  · exact h.insert (h _ x hx)

theorem Bound.rotate (h : s.Bound B) (hs : s.WellFormed) (i : PeerIdentity) (current next : String)
    (lease now : ℤ) : Bound B (s.rotate i current next lease now).2 := by
  rcases rotate_cases hs i current next lease now with
    ⟨err, heq⟩ | ⟨x, hx, -, -, -, -, -, heq⟩ <;> rw [heq]
  · exact h
  · exact h.insert (h _ x hx)

theorem Bound.revoke (h : s.Bound B) (hs : s.WellFormed) (nodeID reason : String) (now : ℤ) :
    Bound B (s.revoke nodeID reason now).2 := by
  rcases revoke_cases hs nodeID reason now with
    ⟨err, heq⟩ | ⟨x, err, -, -, heq⟩ | ⟨x, -, -, -, heq⟩ | ⟨x, hx, -, -, -, -, heq⟩ <;> rw [heq]
  · exact h
  · exact h.filter _
  · exact h
  · exact h.insert (h _ x hx)

end RegistrationStore

/-! ## Where the round comes from -/

/-- The binding of a registration goes back to the start of a run or to an identity that
registered. -/
def Service.TracedBinding (registers : PeerIdentity → Prop) (s₀ : Service)
    (node role fingerprint : String) : Prop :=
  (∃ e₀ ∈ s₀.registry.entries.values, e₀.nodeID = node ∧ e₀.role = role ∧
    e₀.certificateFingerprint = fingerprint) ∨
    ∃ i, registers i ∧ i.nodeID = node ∧ i.role = role ∧ i.certificateFingerprint = fingerprint

/-- What a service has from the start of a run and what it has from identities that registered,
submitted and revoked. -/
structure Service.Traced (registers submits revokes : PeerIdentity → Prop) (s₀ s : Service) :
    Prop where
  registry : s.registry.Bound (TracedBinding registers s₀)
  pending : ∀ p ∈ s.pending.values, p ∈ s₀.pending.values ∨ ∃ i, submits i ∧ p.nodeID = i.nodeID
  model : s.model = s₀.model ∨ ∃ i, submits i
  round : s.pending = s₀.pending ∨ (∃ i, submits i) ∨ ∃ i, revokes i

/-- What the identity of a call has done if the call succeeds. -/
structure Call.By (registers submits revokes : PeerIdentity → Prop) (c : Call) : Prop where
  register : ∀ i req, c.identity = some i → c.request = .registerNode req → registers i
  submit : ∀ i req, c.identity = some i → c.request = .submitLocalUpdate req → submits i
  revoke : ∀ i req, c.identity = some i → c.request = .revokeRegistration req → revokes i

namespace Service

variable {registers submits revokes : PeerIdentity → Prop} {s₀ s : Service} {c : Call}

theorem bound_serve {B : String → String → String → Prop} (h : s.registry.Bound B)
    (hs : s.registry.WellFormed)
    (hc : ∀ i req, c.identity = some i → c.request = .registerNode req →
      B i.nodeID i.role i.certificateFingerprint) : (s.serve c).2.registry.Bound B := by
  refine registry_serve h fun hprepared run => ?_
  cases run with
  | register ran =>
    obtain ⟨_, request, identity, -⟩ := hprepared
    exact ran ▸ h.register hs (hc _ _ identity request) _ _ _
  | refresh ran => exact ran ▸ h.refresh hs _ _ _ _
  | rotate ran => exact ran ▸ h.rotate hs _ _ _ _ _
  | revoke ran => exact ran ▸ h.revoke hs _ _ _

theorem Traced.refl (s : Service) : Traced registers submits revokes s s where
  registry n e he := .inl ⟨e, (OrdMap.mem_values_iff _).2 ⟨n, he⟩, rfl, rfl, rfl⟩
  pending _ hp := .inl hp
  model := .inl rfl
  round := .inl rfl

/-- A change that leaves the round keeps where it comes from. -/
theorem Traced.of_round (h : Traced registers submits revokes s₀ s) {s' : Service}
    (hregistry : s'.registry.Bound (TracedBinding registers s₀)) (hmodel : s'.model = s.model)
    (hpending : s'.pending = s.pending) : Traced registers submits revokes s₀ s' where
  registry := hregistry
  pending := by rw [hpending]; exact h.pending
  model := by rw [hmodel]; exact h.model
  round := by rw [hpending]; exact h.round

/-- An accepted submission is made by an identity for its own node. -/
theorem Accepts.identity {identity : Option PeerIdentity} {req : SubmitLocalUpdateRequest}
    {env : Env} {prepared : PreparedUpdate} {updateID : String} {currentValues : List Float32}
    (h : s.Accepts identity req env prepared updateID currentValues) :
    ∃ i, identity = some i ∧ req.nodeID = i.nodeID := by
  obtain ⟨hidentity, -, hnode, -⟩ := requireIdentityAndRegistration_ok
    (prepareUpdate_ok h.prepare).require
  exact ⟨prepared.identity, hidentity, hnode⟩

theorem Traced.serve (h : Traced registers submits revokes s₀ s) (hs : s.registry.WellFormed)
    (hc : c.By registers submits revokes) : Traced registers submits revokes s₀ (s.serve c).2 := by
  have hregistry : (s.serve c).2.registry.Bound (TracedBinding registers s₀) :=
    bound_serve h.registry hs
    fun i req hidentity hreq => .inr ⟨i, hc.register i req hidentity hreq, rfl, rfl, rfl⟩
  obtain ⟨p, hout, hprepared⟩ := s.serve_completed c
  generalize s.serve c = result at hregistry hout hprepared
  cases hout with
  | failed same => exact h.of_round hregistry same.model same.pending
  | rejected same => exact h.of_round hregistry same.model same.pending
  | read => exact h
  | registered => exact h.of_round hregistry rfl rfl
  | refreshed => exact h.of_round hregistry rfl rfl
  | @waiting r prepared updateID _ passes _ =>
    obtain ⟨request, prepare⟩ := hprepared rfl
    obtain ⟨i, hidentity, hnode⟩ := (passes.accepts prepare).identity
    have hi := hc.submit i _ hidentity request
    refine ⟨hregistry, fun p hp => ?_, .inr ⟨i, hi⟩, .inr (.inl ⟨i, hi⟩)⟩
    obtain ⟨n, hn⟩ := (OrdMap.mem_values_iff _).1 hp
    by_cases hself : n = r.nodeID
    · subst hself
      rw [OrdMap.get?_insert_self] at hn
      cases hn
      exact .inr ⟨i, hi, hnode⟩
    · rw [OrdMap.get?_insert_of_ne _ _ hself] at hn
      exact h.pending p ((OrdMap.mem_values_iff _).2 ⟨n, hn⟩)
  | closing passes =>
    obtain ⟨request, prepare⟩ := hprepared rfl
    obtain ⟨i, hidentity, -⟩ := (passes.accepts prepare).identity
    have hi := hc.submit i _ hidentity request
    exact ⟨hregistry, fun p hp => (by cases hp), .inr ⟨i, hi⟩, .inr (.inl ⟨i, hi⟩)⟩
  | rotated same => exact h.of_round hregistry same.model same.pending
  | @revoked r i now entry s₁ registry same _ =>
    obtain ⟨request, prepare⟩ := hprepared rfl
    have hidentity := (requireIdentityAndRegistration_ok (prepareRevocation_ok prepare).1).1
    have hmodel : s₁.model = s.model := same.model
    refine ⟨hregistry, fun p hp => ?_, hmodel.symm ▸ h.model,
      .inr (.inr ⟨i, hc.revoke i _ hidentity request⟩)⟩
    obtain ⟨n, hn⟩ := (OrdMap.mem_values_iff _).1 hp
    rw [OrdMap.get?_erase] at hn
    split_ifs at hn with hself
    exact h.pending p ((OrdMap.mem_values_iff _).2 ⟨n, hn⟩)

end Service

/-! ## The durable coordinator -/

namespace DurableState

variable {registers submits revokes : PeerIdentity → Prop} {s₀ : Service} {d : DurableState}
  {c : DurableCall}

theorem alwaysRecoverable_serve (h : d.durable.AlwaysRecoverable) :
    (d.serve c).2.durable.AlwaysRecoverable := by
  have hout := serve_outcome (h c.call.env.clock.start) (c := c) le_rfl
  generalize d.serve c = result at hout
  cases hout with
  | read => exact h
  | rejected ran => exact alwaysRecoverable_rejected h ran
  | committed ran check =>
    have hserved := alwaysRecoverable_served h (Store.valid_of_checkCommit check)
    rwa [ran] at hserved
  | rolledBack => exact alwaysRecoverable_restored h
  | uncompensated => exact alwaysRecoverable_restored h

/-- A call keeps where the state comes from, also when its transition is rolled back. -/
theorem traced_serve (hrec : d.durable.AlwaysRecoverable)
    (h : Service.Traced registers submits revokes s₀ d.durable.service)
    (hc : c.call.By registers submits revokes) :
    Service.Traced registers submits revokes s₀ (d.serve c).2.durable.service := by
  have hserved : Service.Traced registers submits revokes s₀ (d.durable.service.serve c.inner).2 :=
    h.serve (hrec 0).sound.wellFormed ⟨hc.register, hc.submit, hc.revoke⟩
  have hrestored : Service.Traced registers submits revokes s₀ (d.restored c).service :=
    h.of_round (h.registry.filter _) rfl rfl
  have hout := serve_outcome (hrec c.call.env.clock.start) (c := c) le_rfl
  generalize d.serve c = result at hout
  cases hout with
  | read => exact h
  | rejected ran => exact (by rwa [ran] at hserved : Service.Traced registers submits revokes s₀ _)
  | committed ran _ =>
    exact (by rwa [ran] at hserved : Service.Traced registers submits revokes s₀ _)
  | rolledBack => exact hrestored
  | uncompensated => exact hrestored

theorem traced_final (hrec : d.durable.AlwaysRecoverable) {calls : List DurableCall}
    (hcalls : ∀ c ∈ calls, c.call.By registers submits revokes) :
    Service.Traced registers submits revokes d.durable.service
      (final serve d calls).durable.service := by
  refine (final_induction (s := d)
    (P := fun before d' => (∀ c ∈ before, c.call.By registers submits revokes) →
    d'.durable.AlwaysRecoverable ∧
      Service.Traced registers submits revokes d.durable.service d'.durable.service)
    (fun _ => ⟨hrec, .refl _⟩) (fun before c ih hbefore => ?_) calls hcalls).2
  obtain ⟨hrec', htraced⟩ := ih fun c hc => hbefore c (List.mem_append_left _ hc)
  exact ⟨alwaysRecoverable_serve hrec', traced_serve hrec' htraced
    (hbefore c (List.mem_append_right _ (List.mem_singleton_self c)))⟩

end DurableState

/-! ## Provenance -/

/-- A remote call of the kind was made by an authenticated peer with one of the roles. -/
def Made (opts : ServerTLSOptions) (verifier : TokenVerifier)
    (events : List (ThreadEvent SecuredCall)) (kind : Request → Prop) (roles : List String)
    (identity : PeerIdentity) : Prop :=
  identity.role ∈ roles ∧ ∃ k c state cert, .call k c ∈ events ∧ kind c.rpc.request ∧
    Authenticates opts verifier c.rpc identity state cert

section

variable {opts : ServerTLSOptions} {leaf : Certificate} {verifier : TokenVerifier} {server : Server}
  {events : List (ThreadEvent SecuredCall)}

theorem lookup_submitLocalUpdate (req : Option SubmitLocalUpdateRequest) :
    defaultMethodRules.lookup (Request.submitLocalUpdate req).method =
      some ⟨["edge-worker", "admin"], true⟩ := rfl

theorem lookup_revokeRegistration (req : Option RevokeRegistrationRequest) :
    defaultMethodRules.lookup (Request.revokeRegistration req).method = some ⟨["admin"], true⟩ :=
      rfl

theorem lookup_registerNode (req : Option RegisterNodeRequest) :
    defaultMethodRules.lookup (Request.registerNode req).method =
      some ⟨["edge-worker", "observer", "admin"], false⟩ := rfl

/-- The handler's call is made by the authenticated peer. -/
theorem by_handled {k : ℕ} {c : SecuredCall} {identity : PeerIdentity} {state : ConnectionState}
    {cert : Certificate} (hmem : .call k c ∈ events)
    (h : Authenticates opts verifier c.rpc identity state cert) :
    (Server.handled c identity).call.By
      (Made opts verifier events (fun r => ∃ req, r = .registerNode req) ["edge-worker",
        "observer", "admin"])
      (Made opts verifier events
        (fun r => ∃ req, r = .submitLocalUpdate req) ["edge-worker", "admin"])
      (Made opts verifier events (fun r => ∃ req, r = .revokeRegistration req) ["admin"]) := by
  have hmade (kind : Request → Prop) {rule : MethodRule} (hkind : kind c.rpc.request)
      (hrule : defaultMethodRules.lookup c.rpc.request.method = some rule) :
      Made opts verifier events kind rule.roles identity := by
    obtain ⟨rule', hrule', hrole⟩ := h.permitted
    obtain rfl : rule = rule' := Option.some.inj (hrule.symm.trans hrule')
    exact ⟨hrole, k, c, state, cert, hmem, hkind, h⟩
  have hrequest : (Server.handled c identity).call.request = c.rpc.request := rfl
  refine ⟨fun i req hi hreq => ?_, fun i req hi hreq => ?_, fun i req hi hreq => ?_⟩ <;>
    cases hi <;> rw [hrequest] at hreq
  · exact hmade (fun r => ∃ req, r = .registerNode req) ⟨req, hreq⟩
      (hreq.symm ▸ lookup_registerNode req)
  · exact hmade (fun r => ∃ req, r = .submitLocalUpdate req) ⟨req, hreq⟩
      (hreq.symm ▸ lookup_submitLocalUpdate req)
  · exact hmade (fun r => ∃ req, r = .revokeRegistration req) ⟨req, hreq⟩
      (hreq.symm ▸ lookup_revokeRegistration req)

theorem Call.By.forwards {registers submits revokes : PeerIdentity → Prop} {c c' : DurableCall}
    (h : c.call.By registers submits revokes)
    (hforwards : EnvelopeService.Forwards wrappedDurable c c') :
    c'.call.By registers submits revokes := by
  cases hforwards with
  | same => exact h
  | reading req => exact ⟨fun _ _ _ heq => (by cases heq), fun _ _ _ heq => (by cases heq),
      fun _ _ _ heq => (by cases heq)⟩
  | submitting => exact ⟨h.register, h.submit, h.revoke⟩

/-- Whatever remote calls a server serves at the same time, when no call holds the lock every
registration and every pending update of its coordinator was there at the start or goes back to a
peer with an accepted certificate and token; only submissions of workers and administrators change
the model, and only they and revocations by administrators change the pending updates. -/
theorem secured_provenance (hserver : newServer opts leaf verifier = .ok server) {cfg : Config}
    {st : Store} {experimentConfig : ExperimentConfig} {modelID : String} {clock : Clock}
    {outcome : CommitOutcome} {d : DurableState}
    (hnew : newDurableServiceWithIdentity newRegistrationStore cfg st experimentConfig modelID clock
      outcome = .ok d) (hfree : (server.run modelID d events).inner.persistenceMu = none) :
    Service.Traced
      (Made opts verifier events (fun r => ∃ req, r = .registerNode req) ["edge-worker",
        "observer", "admin"])
      (Made opts verifier events
        (fun r => ∃ req, r = .submitLocalUpdate req) ["edge-worker", "admin"])
      (Made opts verifier events (fun r => ∃ req, r = .revokeRegistration req) ["admin"])
      d.durable.service (server.run modelID d events).inner.state.durable.service := by
  obtain ⟨calls, hcalls, hstate, -⟩ := secured_serializable hserver modelID d events
  rw [hstate hfree]
  refine DurableState.traced_final ((settled_new hnew).free rfl) fun c hc => ?_
  obtain ⟨_, ⟨earlier, k, c₀, identity, state, cert, hearlier, hmem, rfl, hauthenticates, -⟩,
    hforwards⟩ := hcalls c hc
  exact (by_handled (hearlier.subset hmem) hauthenticates).forwards hforwards

end

/-! A worker and an observer register, and both submit an update. -/

def securedCertificate (name role : String) : Certificate :=
  ⟨name, ["role:" ++ role], [some (nodeURI defaultTrustDomain name)], [1, 2, 3],
    ⟨"*mldsa.PublicKey", .ok []⟩, fun _ => .ok ()⟩

def securedVerifier : TokenVerifier :=
  ⟨fun token _ => .ok (if token = "worker-1" then ⟨token, token, "edge-worker"⟩
    else ⟨token, token, "observer"⟩)⟩

def securedOptions : ServerTLSOptions := ⟨"", [], [], "require", true⟩

def securedServer : Server :=
  ⟨⟨pqcCurvePreferences .required, securedOptions.verifyConnection .required⟩,
    newAuthorizer "" securedVerifier⟩

def securedCall (name role : String) (c : Call) : SecuredCall :=
  ⟨⟨.tls ⟨.x25519MLKEM768, [[securedCertificate name role]], [securedCertificate name role]⟩,
    some ["Bearer " ++ name], c.request, c.env⟩, .success, .success⟩

def securedEvents : List (ThreadEvent SecuredCall) :=
  List.flatten
    [callAndRun 0 12 (securedCall "worker-1" "edge-worker"
      (Service.sampleRegistration "worker-1" 0 7)),
      callAndRun 1 12 (securedCall "observer-1" "observer"
        (Service.sampleRegistration "observer-1" 0 8)),
      callAndRun 2 20 (securedCall "worker-1" "edge-worker"
        (Service.enveloped 1 (Service.sampleSubmission "worker-1" 1 7 [1]))),
      callAndRun 3 20 (securedCall "observer-1" "observer"
        (Service.enveloped 1 (Service.sampleSubmission "observer-1" 1 8 [1])))]

def afterSecuredEvents : EnvelopeState DurableShared :=
  securedServer.run "global-model" waitingDurable securedEvents

theorem provenance_afterSecuredEvents :
    afterSecuredEvents.inner.state.durable.service.registry.entries.values.map
        (fun e => (e.nodeID, e.role)) = [("observer-1", "observer"), ("worker-1", "edge-worker")] ∧
      afterSecuredEvents.inner.state.durable.service.pending.values.map (fun p => p.nodeID) =
        ["worker-1"] ∧
      ∀ p ∈ afterSecuredEvents.inner.state.durable.service.pending.values,
        ∃ i, Made securedOptions securedVerifier securedEvents
        (fun r => ∃ req, r = .submitLocalUpdate req)
          ["edge-worker", "admin"] i ∧ p.nodeID = i.nodeID := by
  have hnew : newDurableServiceWithIdentity newRegistrationStore ⟨0, 0, none, 3, 0, ""⟩
      ⟨false, none, []⟩
      DurableState.sampleExperiment "global-model" (Service.sampleEnv 0 0).clock .success =
        .ok waitingDurable := by
    decide +kernel
  have hend : afterSecuredEvents.inner.persistenceMu = none ∧
      afterSecuredEvents.inner.state.durable.service.registry.entries.values.map
      (fun e => (e.nodeID, e.role)) = [("observer-1", "observer"), ("worker-1", "edge-worker")] ∧
      afterSecuredEvents.inner.state.durable.service.pending.values.map (fun p => p.nodeID) =
        ["worker-1"] := by
    decide +kernel
  have hserver : newServer securedOptions
      (securedCertificate "coordinator" "coordinator") securedVerifier = .ok securedServer := by
    have hmode : parsePQCMode securedOptions.pqcMode = .ok .required := by decide +kernel
    have hidentity : validatePQCIdentity securedOptions.requirePQCIdentity
        (securedCertificate "coordinator" "coordinator") "server" = .ok () := by decide +kernel
    simp only [newServer, serverTLSConfig, hmode, hidentity]
    rfl
  have hrun : securedServer.run "global-model" waitingDurable securedEvents =
    afterSecuredEvents := rfl
  have htraced := @secured_provenance securedOptions
    (securedCertificate "coordinator" "coordinator") securedVerifier
    securedServer securedEvents hserver _ _ _ _ _ _ _ hnew (by rw [hrun]; exact hend.1)
  rw [hrun] at htraced
  refine ⟨hend.2.1, hend.2.2, fun p hp => (htraced.pending p hp).resolve_left fun hstart => ?_⟩
  have hnone : waitingDurable.durable.service.pending.values = [] := by decide +kernel
  rw [hnone] at hstart
  cases hstart

end ZeroTrustFL
