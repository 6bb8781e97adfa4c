import Mathlib
import ZeroTrustFL.Security.Pki
import ZeroTrustFL.Coordinator.Secured

/-!
# Enrolled nodes reach the coordinator

The clients that the command line of the certificate generator names get certificates and tokens
with which the server lets them make the calls of their role, and no others.
-/

namespace ZeroTrustFL

/-- The remote call comes over a verified connection with the certificate of the client, and with
the header that a client makes of its token file, while the token is valid. -/
structure Presents (issuedAt ttl leeway : ℤ) (opts : ServerTLSOptions) (issued : ClientArtifacts)
    (rpc : Rpc) (state : ConnectionState) : Prop where
  peer : rpc.peer = .tls state
  verified : state.verifiedChains ≠ []
  leaf : state.peerCertificates.head? = some issued.certificate
  keyExchange : parsePQCMode opts.pqcMode = .ok .required →
    isPostQuantumKeyExchange state.curveID = true
  header : ∃ header, contextWithBearerToken issued.tokenFile = .ok header ∧
    rpc.authorization = some header
  started : numericDate issuedAt - leeway ≤ rpc.env.clock.read 0
  unexpired : rpc.env.clock.read 0 < numericDate (issuedAt + ttl) + leeway

section

variable {issuedAt ttl leeway : ℤ} {opts : ServerTLSOptions} {issued : ClientArtifacts} {rpc : Rpc}
  {state : ConnectionState} {identity : PeerIdentity}

theorem validatePQCConnection_of {mode : PQCMode}
    (h : mode = .required → isPostQuantumKeyExchange state.curveID = true) :
    validatePQCConnection mode state = .ok () := by
  by_cases hmode : mode = .required
  · simp only [validatePQCConnection, hmode, ne_eq, not_true_eq_false, if_false, h hmode,
      Bool.not_true, Bool.false_eq_true]
  · simp only [validatePQCConnection, ne_eq, hmode, not_false_eq_true, if_true]

theorem validatePQCIdentity_of {required : Bool} {cert : Certificate} (peerLabel : String)
    (h : required = true → isMLDSACertificate cert = true) :
    validatePQCIdentity required cert peerLabel = .ok () := by
  rcases required with _ | _
  · rfl
  · simp only [validatePQCIdentity, h rfl, Bool.not_true, Bool.false_eq_true, if_false]

/-- The server accepts the connection of a client whose certificate has a key of the kind it
requires, states an identity with an allowed role, and is pinned. -/
theorem Presents.verifyConnection (h : Presents issuedAt ttl leeway opts issued rpc state)
    {mode : PQCMode} (hmode : parsePQCMode opts.pqcMode = .ok mode)
    (hkey : opts.requirePQCIdentity = true → isMLDSACertificate issued.certificate = true)
    (hidentity : clientIdentityFromCertificate issued.certificate (trustDomainOr opts.trustDomain) =
      .ok identity)
    (hpin : verifySPKIPin issued.certificate opts.clientSPKIPins = .ok ())
    (hrole : identity.role ∈ opts.roles) : opts.verifyConnection mode state = .ok () := by
  obtain ⟨chain, chains, hchains⟩ := List.exists_cons_of_ne_nil h.verified
  obtain ⟨certs, hcerts⟩ := List.head?_eq_some_iff.1 h.leaf
  have hgroup : validatePQCConnection mode state = .ok () :=
    validatePQCConnection_of fun hm => h.keyExchange (hm ▸ hmode)
  simp only [ServerTLSOptions.verifyConnection, hgroup, hchains, hcerts,
    validatePQCIdentity_of "client" hkey,
    hidentity, hpin, stringAllowed_iff.2 hrole, Bool.not_true, Bool.false_eq_true, if_false]

/-- The server reads the token that the client has been issued. -/
theorem Presents.bearerToken (h : Presents issuedAt ttl leeway opts issued rpc state)
    {token : String} (hfile : issued.tokenFile = token ++ "\n") (hne : token ≠ "")
    (hspace : ∀ c ∈ token.toList, isSpace c = false) :
    bearerTokenFromIncomingContext rpc.authorization = .ok token := by
  have htrim := trimSpace_append_newline hne hspace
  obtain ⟨header, hheader, hauthorization⟩ := h.header
  obtain ⟨header', hheader', hread⟩ := bearerToken_contextWithBearerToken (token ++ "\n")
    (by rwa [htrim])
  rw [hfile, hheader', Except.ok.injEq] at hheader
  rw [hauthorization, ← hheader, hread, htrim, if_neg]
  simpa using hspace

/-- The token is accepted while it is valid. -/
theorem verify_issued {jwt : Jwt} {verifier : TokenVerifier} {publicKey : Bytes}
    {issuer audience nodeID role tokenID token : String} {now : ℤ}
    (hverifier : newTokenVerifier jwt publicKey issuer audience leeway = .ok verifier)
    (hdecode : jwt.decode publicKey token =
      .ok (tokenClaims issuer audience nodeID role ttl issuedAt tokenID))
    (htoken : trimSpace token ≠ "") (hnode : nodeID ≠ "") (hrole : role ≠ "")
    (hstarted : numericDate issuedAt - leeway ≤ now)
    (hunexpired : now < numericDate (issuedAt + ttl) + leeway) :
    verifier.verify token now = .ok ⟨nodeID, nodeID, role⟩ := by
  unfold newTokenVerifier at hverifier
  split_ifs at hverifier
  cases hverifier
  have hbefore : numericDate (issuedAt - 5 * second) ≤ numericDate issuedAt :=
    numericDate_le (by unfold second; omega)
  have hvalid : (tokenClaims issuer audience nodeID role ttl issuedAt tokenID).valid issuer audience
      leeway now = true := by
    simp only [SignedClaims.valid, tokenClaims, List.mem_singleton, and_true, decide_eq_true_eq]
    exact ⟨hunexpired, by omega, hstarted⟩
  have hset : ¬ (nodeID = "" ∨ nodeID = "" ∨ role = "") := by simp [hnode, hrole]
  simp only [TokenVerifier.verify, if_neg htoken, hdecode, hvalid, if_true]
  simp only [tokenClaims, if_neg hset, ne_eq, not_true_eq_false, if_false]

/-- The interceptor lets through the calls of the role, from registered nodes where the method asks
for it. -/
theorem authorize_iff {a : Authorizer} (registry : RegistrationStore) {token : String}
    {rule : MethodRule} (hrule : a.rules.lookup rpc.request.method = some rule)
    (hpeer : peerIdentityFromContext rpc.peer a.trustDomain = .ok identity)
    (htoken : bearerTokenFromIncomingContext rpc.authorization = .ok token)
    (hverify : a.verifier.verify token (rpc.env.clock.read 0) =
      .ok ⟨identity.nodeID, identity.nodeID, identity.role⟩) :
    a.authorize registry rpc = .ok identity ↔ identity.role ∈ rule.roles ∧
      (rule.requireRegistration = true →
        registry.isRegistered identity (rpc.env.clock.read 1) = true) := by
  simp only [Authorizer.authorize, hrule, hpeer, htoken, hverify, ne_eq, not_true_eq_false, or_self,
    if_false]
  rcases hallowed : stringAllowed identity.role rule.roles with _ | _
  · simp only [Bool.not_false, if_true, reduceCtorEq, false_iff, not_and]
    intro hmem
    cases hallowed.symm.trans (stringAllowed_iff.2 hmem)
  · have hmem := stringAllowed_iff.1 hallowed
    rcases rule.requireRegistration with _ | _ <;>
      rcases hregistered : registry.isRegistered identity (rpc.env.clock.read 1) with _ | _ <;>
        simp [hmem]

end

/-- The token of each client is a word that decodes to its claims under the key of its signature. -/
def PkiEnv.SignsTokens (env : PkiEnv) (cfg : DevelopmentPKIConfig)
    (clients : List DevelopmentClient) : Prop :=
  ∀ i client, clients[i]? = some client →
    let claims := tokenClaims cfg.issuer cfg.audience client.nodeID client.role cfg.tokenTTL
      (env.now (1 + i)) (env.tokenIDs (1 + i))
    let token := env.jwt.signedString env.jwtPrivate claims
    token ≠ "" ∧ (∀ c ∈ token.toList, isSpace c = false) ∧
      env.jwt.decode (env.jwt.publicKey env.jwtPrivate) token = .ok claims

theorem exists_rule (r : Request) : ∃ rule, defaultMethodRules.lookup r.method = some rule := by
  rcases r with req | req | req | req | req | req
  all_goals exact ⟨_, rfl⟩

theorem trimSpace_of_noSpace {s : String} (h : ∀ c ∈ s.toList, isSpace c = false) :
    trimSpace s = s := by
  have hdrop : s.toList.dropWhile isSpace = s.toList := by
    rw [List.dropWhile_eq_self_iff]
    intro hpos
    rw [h _ (List.getElem_mem hpos)]
    simp
  rw [trimSpace, hdrop,
    List.rdropWhile_eq_self_iff.2 fun hne => by rw [h _ (List.getLast_mem hne)]; simp,
    String.ofList_toList]

/-- The certificate of a client has an ML-DSA key exactly when that is the algorithm of the
generation. -/
theorem isMLDSACertificate_leafCertificate {env : PkiEnv} {algorithm : String} {index : ℕ}
    {commonName role uri : String} {dnsNames : List String} :
    isMLDSACertificate (leafCertificate env algorithm index commonName role uri dnsNames) = true ↔
      algorithm = "mldsa65" := by
  simp only [isMLDSACertificate, leafCertificate, keyTypeName]
  split_ifs with hmldsa hed <;> simp [hmldsa]

theorem states_leafCertificate {env : PkiEnv} {algorithm trustDomain uri : String} {index : ℕ}
    {client : DevelopmentClient} {identity : PeerIdentity} (hclient : client.Trimmed)
    (h : (leafCertificate env algorithm index client.nodeID client.role uri []).States
      trustDomain identity) :
    uri = nodeURI (trustDomainOr trustDomain) client.nodeID ∧ identity.role = client.role := by
  have hnode : identity.nodeID = client.nodeID := h.node.trans hclient.nodeID
  have huri := h.uri
  rw [hnode, leafCertificate, List.mem_singleton, Option.some.injEq] at huri
  exact ⟨huri.symm, Except.ok.inj
    (h.role.symm.trans (certificateRole_leafCertificate hclient.role hclient.role_ne))⟩

/-- What a server asks of the certificate of a client, with the URI in it. -/
structure Suits (opts : ServerTLSOptions) (algorithm : String) (client : DevelopmentClient)
    (uri : String) (cert : Certificate) : Prop where
  uri : uri = nodeURI (trustDomainOr opts.trustDomain) client.nodeID
  key : opts.requirePQCIdentity = true → algorithm = "mldsa65"
  pin : opts.clientSPKIPins = [] ∨ ∃ pin ∈ opts.clientSPKIPins, spkiPin cert = .ok (trimSpace pin)
  role : client.role ∈ opts.roles

/-- A client that the command line of the certificate generator names gets a certificate and a token
with which the server lets it make a call exactly when its certificate suits the server, its role
may make the call, and the node is registered where the method asks for it. -/
theorem enrolled_client_admitted {value : String} {clients : List DevelopmentClient}
    (hparse : parseDevelopmentClients value = .ok clients) (hne : clients ≠ []) {env : PkiEnv}
    {cfg : DevelopmentPKIConfig} (hclients : cfg.clients = clients) {pki : DevelopmentPKIArtifacts}
    (hpki : generateDevelopmentPKI env cfg = .ok pki)
    (henv : env.SignsTokens cfg.withDefaults clients) {leeway : ℤ} {verifier : TokenVerifier}
    (hverifier : newTokenVerifier env.jwt pki.jwtPublicKey cfg.withDefaults.issuer
      cfg.withDefaults.audience leeway =
      .ok verifier) {opts : ServerTLSOptions} {leaf : Certificate} {server : Server}
    (hserver : newServer opts leaf verifier = .ok server) {i : ℕ} {client : DevelopmentClient}
    (hclient : clients[i]? = some client) :
    ∃ issued uri, pki.clients.get? client.nodeID = some issued ∧
      env.parseURL (nodeURI cfg.withDefaults.trustDomain client.nodeID) = .ok uri ∧
      ∀ (c : SecuredCall) (state : ConnectionState) (s : EnvelopeState DurableShared),
        Presents (env.now (1 + i)) cfg.withDefaults.tokenTTL leeway opts issued c.rpc state →
        let identity := buildPeerIdentity issued.certificate client.nodeID client.role
        ∃ rule, defaultMethodRules.lookup c.rpc.request.method = some rule ∧
          (server.intercept s c = .ok (Server.handled c identity) ↔
            Suits opts pki.certificateAlgorithm client uri issued.certificate ∧
            client.role ∈ rule.roles ∧
              (rule.requireRegistration = true →
                s.inner.state.durable.service.registry.isRegistered identity
                (c.rpc.env.clock.read 1) = true)) := by
  obtain ⟨htrimmed, hnodup⟩ := parseDevelopmentClients_ok hparse
  have hclient' := htrimmed client (List.mem_of_getElem? hclient)
  have hdefaults : cfg.withDefaults.clients = clients := by
    simp only [DevelopmentPKIConfig.withDefaults, hclients]
    rw [if_neg (by simpa using hne)]
  obtain ⟨serverURI, hgenerated⟩ := generateDevelopmentPKI_ok hpki
  have hadded := hgenerated.clients
  rw [hdefaults] at hadded
  obtain ⟨issued, hartifacts, hget⟩ := addClients_get? hadded hnodup hclient
  obtain ⟨uri, hissued⟩ := clientArtifacts_ok hartifacts
  obtain ⟨htoken, hspace, hdecode⟩ := henv i client hclient
  rw [hgenerated.jwtPublicKey] at hverifier
  refine ⟨issued, uri, hget, hissued.parsed, fun c state s hpresents => ?_⟩
  obtain ⟨rule, hrule⟩ := exists_rule c.rpc.request
  refine ⟨rule, hrule, ?_⟩
  obtain ⟨mode, hmode, rfl⟩ := newServer_ok hserver
  have hidentity (huri : uri = nodeURI (trustDomainOr opts.trustDomain) client.nodeID) :
      clientIdentityFromCertificate issued.certificate (trustDomainOr opts.trustDomain) =
        .ok (buildPeerIdentity issued.certificate client.nodeID client.role) := by
    have hstated := @clientIdentity_leafCertificate env pki.certificateAlgorithm
      (1 + i) client hclient' (trustDomainOr opts.trustDomain)
    rwa [trustDomainOr_trustDomainOr, ← huri, ← hissued.certificate] at hstated
  -- A connection that is accepted has a certificate that suits the server.
  have hsuits : opts.verifyConnection mode state = .ok () ↔
      Suits opts pki.certificateAlgorithm client uri issued.certificate := by
    constructor
    · intro hcheck
      obtain ⟨cert, haccepts⟩ := ServerTLSOptions.verifyConnection_ok hcheck
      obtain rfl : issued.certificate = cert :=
        Option.some.inj (hpresents.leaf.symm.trans haccepts.leaf)
      obtain ⟨identity, hstates, hrole⟩ := haccepts.stated
      have hsignature := haccepts.signature
      rw [hissued.certificate] at hstates hsignature
      obtain ⟨huri, hsame⟩ := states_leafCertificate hclient' hstates
      exact ⟨huri, fun hrequired => isMLDSACertificate_leafCertificate.1 (hsignature hrequired),
        haccepts.pinned, hsame ▸ hrole⟩
    · rintro ⟨huri, hkey, hpin, hrole⟩
      refine hpresents.verifyConnection hmode (fun hrequired => ?_) (hidentity huri)
        (verifySPKIPin_ok_iff.2 hpin) hrole
      rw [hissued.certificate]
      exact isMLDSACertificate_leafCertificate.2 (hkey hrequired)
  have hpeer (huri : uri = nodeURI (trustDomainOr opts.trustDomain) client.nodeID) :
      peerIdentityFromContext c.rpc.peer (newAuthorizer opts.trustDomain verifier).trustDomain =
        .ok (buildPeerIdentity issued.certificate client.nodeID client.role) := by
    obtain ⟨chain, chains, hchains⟩ := List.exists_cons_of_ne_nil hpresents.verified
    obtain ⟨certs, hcerts⟩ := List.head?_eq_some_iff.1 hpresents.leaf
    rw [hpresents.peer]
    simp only [peerIdentityFromContext, hchains, hcerts]
    exact hidentity huri
  have hverify := verify_issued hverifier hdecode
    (by rwa [trimSpace_of_noSpace hspace]) hclient'.nodeID_ne
    hclient'.role_ne hpresents.started hpresents.unexpired
  have hauthorize (huri : uri = nodeURI (trustDomainOr opts.trustDomain) client.nodeID) :=
    authorize_iff (a := newAuthorizer opts.trustDomain verifier)
      s.inner.state.durable.service.registry hrule
      (hpeer huri) (hpresents.bearerToken hissued.tokenFile htoken hspace) hverify
  constructor
  · intro hintercept
    rcases hcheck : opts.verifyConnection mode state with e | ⟨⟨⟩⟩
    · simp only [Server.intercept, Server.checkConnection, hpresents.peer, hcheck,
        reduceCtorEq] at hintercept
    have hsuited := hsuits.1 hcheck
    refine ⟨hsuited, (hauthorize hsuited.uri).1 ?_⟩
    rcases hresult : (newAuthorizer opts.trustDomain verifier).authorize
      s.inner.state.durable.service.registry c.rpc with denial | identity
    · simp only [Server.intercept, Server.checkConnection, hpresents.peer, hcheck, hresult,
        reduceCtorEq] at hintercept
    simp only [Server.intercept, Server.checkConnection, hpresents.peer, hcheck, hresult,
      Except.ok.injEq] at hintercept
    have hsame : some identity =
        some (buildPeerIdentity issued.certificate client.nodeID client.role) :=
      congrArg (fun call : DurableCall => call.call.identity) hintercept
    rw [Option.some.inj hsame]
  · rintro ⟨hsuited, hrest⟩
    simp only [Server.intercept, Server.checkConnection, hpresents.peer, hsuits.2 hsuited,
      (hauthorize hsuited.uri).2 hrest]

/-! A worker and an observer are enrolled, and the worker registers. -/

theorem signsTokens_enrolmentEnv :
    enrolmentEnv.SignsTokens enrolmentConfig.withDefaults enrolmentClients := by
  intro i client hclient
  have hword (name : String) (h : name.toList.all (fun c => !isSpace c) = true) :
      ∀ c ∈ name.toList, isSpace c = false :=
    fun c hc => by simpa using List.all_eq_true.1 h c hc
  match i, hclient with
  | 0, hclient =>
    cases hclient
    exact ⟨(by decide : "edge-01" ≠ ""), hword "edge-01" (by decide), rfl⟩
  | 1, hclient =>
    cases hclient
    exact ⟨(by decide : "monitor" ≠ ""), hword "monitor" (by decide), rfl⟩

def enrolmentCall (issued : ClientArtifacts) : SecuredCall :=
  ⟨⟨.tls ⟨.x25519MLKEM768, [[issued.certificate]], [issued.certificate]⟩, some ["Bearer edge-01"],
    .registerNode (some ⟨"edge-01", "edge-01", true⟩), Service.sampleEnv 1 7⟩, .success, .success⟩

theorem enrolled_client_registers : ∃ pki verifier issued,
    generateDevelopmentPKI enrolmentEnv enrolmentConfig = .ok pki ∧
    pki.clients.get? "edge-01" = some issued ∧
      ∀ s,
      Server.intercept ⟨⟨pqcCurvePreferences .required, securedOptions.verifyConnection .required⟩,
          newAuthorizer "" verifier⟩ s (enrolmentCall issued) =
        .ok (Server.handled (enrolmentCall issued)
          (buildPeerIdentity issued.certificate "edge-01" "edge-worker")) := by
  have hparse : parseDevelopmentClients " edge-01=edge-worker, monitor=observer" =
      .ok enrolmentClients := by
    decide +kernel
  have hgenerated : ((generateDevelopmentPKI enrolmentEnv enrolmentConfig).toOption.map fun pki =>
      (pki.jwtPublicKey, pki.certificateAlgorithm, (pki.clients.get? "edge-01").map fun issued =>
        issued.tokenFile)) =
      some (List.replicate 32 0, "mldsa65", some "edge-01\n") := by
    decide +kernel
  rcases hpki : generateDevelopmentPKI enrolmentEnv enrolmentConfig with e | pki <;>
    rw [hpki] at hgenerated
  · cases hgenerated
  simp only [Except.toOption, Option.map_some, Option.some.injEq, Prod.mk.injEq] at hgenerated
  obtain ⟨hpublic, halgorithm, hfile⟩ := hgenerated
  rcases hverifier : newTokenVerifier enrolmentEnv.jwt pki.jwtPublicKey
    enrolmentConfig.withDefaults.issuer
    enrolmentConfig.withDefaults.audience (15 * second) with e | verifier
  · rw [hpublic] at hverifier
    cases hverifier
  have hserver : newServer securedOptions
      (securedCertificate "coordinator" "coordinator") verifier =
      .ok ⟨⟨pqcCurvePreferences .required, securedOptions.verifyConnection .required⟩,
        newAuthorizer "" verifier⟩ := by
    have hmode : parsePQCMode securedOptions.pqcMode = .ok .required := by decide +kernel
    have hidentity : validatePQCIdentity securedOptions.requirePQCIdentity
        (securedCertificate "coordinator" "coordinator") "server" = .ok () := by decide +kernel
    simp only [newServer, serverTLSConfig, hmode, hidentity]
    rfl
  obtain ⟨issued, uri, hget, huri, hintercept⟩ := enrolled_client_admitted hparse
    (by decide) rfl hpki signsTokens_enrolmentEnv hverifier hserver (i := 0) rfl
  refine ⟨pki, verifier, issued, rfl, hget, fun s => ?_⟩
  have htoken : issued.tokenFile = "edge-01\n" := by
    rw [hget, Option.map_some, Option.some.injEq] at hfile
    exact hfile
  have hwindow : numericDate (enrolmentEnv.now 1) - 15 * second ≤
      (Service.sampleEnv 1 7).clock.read 0 ∧
      (Service.sampleEnv 1 7).clock.read 0 <
        numericDate (enrolmentEnv.now 1 + enrolmentConfig.withDefaults.tokenTTL) + 15 * second := by
    decide +kernel
  have hpresents : Presents (enrolmentEnv.now 1) enrolmentConfig.withDefaults.tokenTTL
      (15 * second) securedOptions
      issued (enrolmentCall issued).rpc ⟨.x25519MLKEM768, [[issued.certificate]],
        [issued.certificate]⟩ :=
    ⟨rfl, List.cons_ne_nil _ _, rfl, fun _ => rfl,
      ⟨["Bearer edge-01"], by rw [htoken]; decide +kernel, rfl⟩, hwindow.1, hwindow.2⟩
  obtain ⟨rule, hrule, hiff⟩ := hintercept (enrolmentCall issued) _ s hpresents
  rw [show (enrolmentCall issued).rpc.request.method =
    "/zerotrust.fl.v1.CoordinatorService/RegisterNode" from rfl] at hrule
  cases hrule
  exact hiff.2 ⟨⟨(Except.ok.inj huri).symm, fun _ => halgorithm, .inl rfl, by decide⟩, by decide,
    fun h => (by cases h)⟩

end ZeroTrustFL
