import Mathlib
import ZeroTrustFL.Security.Certificate
import ZeroTrustFL.Coordinator.Service

/-!
# Authorization

The interceptor of `pkg/security/middleware.go`: what a remote call has to show before its handler
runs, and the bearer tokens of `pkg/security/token.go` and `pkg/client/client.go`.  Parsing a token
and checking its signature, issuer, audience and times is up to the token library.
-/

namespace ZeroTrustFL

/-! ## Tokens -/

/-- What is read of the claims of a token. -/
structure TokenClaims where
  subject : String
  nodeID : String
  role : String
deriving DecidableEq

/-- The token library with the verifier's key, issuer, audience and leeway, at a time. -/
structure TokenVerifier where
  parse : String → ℤ → Except String TokenClaims

def TokenVerifier.verify (v : TokenVerifier) (rawToken : String) (now : ℤ) :
    Except String TokenClaims :=
  if trimSpace rawToken = "" then .error "token is empty"
  else
    match v.parse rawToken now with
    | .error e => .error ("verify token: " ++ e)
    | .ok claims =>
      if claims.subject = "" ∨ claims.nodeID = "" ∨ claims.role = "" then
        .error "token identity claims are incomplete"
      else if claims.subject ≠ claims.nodeID then .error "token subject does not match node_id"
      else .ok claims

/-- The words of a text; `word` is the one that has begun. -/
def wordsOf (word : List Char) : List Char → List (List Char)
  | [] => if word = [] then [] else [word]
  | c :: cs =>
    if isSpace c then if word = [] then wordsOf [] cs else word :: wordsOf [] cs
    else wordsOf (word ++ [c]) cs

/-- `strings.Fields`. -/
def fields (s : String) : List String := (wordsOf [] s.toList).map .ofList

/-- The token in the values of the authorization header, if there is metadata. -/
def bearerTokenFromIncomingContext : Option (List String) → Except String String
  | none => .error "authorization metadata is required"
  | some [value] =>
    match fields value with
    | [scheme, token] =>
      if toLower scheme ≠ "bearer" ∨ token = "" then
        .error "authorization header must use Bearer authentication"
      else .ok token
    | _ => .error "authorization header must use Bearer authentication"
  | some _ => .error "exactly one authorization header is required"

/-- The header that a client sends with its token. -/
def contextWithBearerToken (token : String) : Except String (List String) :=
  let token := trimSpace token
  if token = "" then .error "bearer token is empty" else .ok ["Bearer " ++ token]

/-! ## Rules -/

def Request.method : Request → String
  | .registerNode _ => "/zerotrust.fl.v1.CoordinatorService/RegisterNode"
  | .heartbeat _ => "/zerotrust.fl.v1.CoordinatorService/Heartbeat"
  | .getGlobalModel _ => "/zerotrust.fl.v1.CoordinatorService/GetGlobalModel"
  | .submitLocalUpdate _ => "/zerotrust.fl.v1.CoordinatorService/SubmitLocalUpdate"
  | .rotateRegistration _ => "/zerotrust.fl.v1.CoordinatorService/RotateRegistration"
  | .revokeRegistration _ => "/zerotrust.fl.v1.CoordinatorService/RevokeRegistration"

structure MethodRule where
  roles : List String
  requireRegistration : Bool

def defaultMethodRules : List (String × MethodRule) :=
  [("/zerotrust.fl.v1.CoordinatorService/RegisterNode",
    ⟨["edge-worker", "observer", "admin"], false⟩),
    ("/zerotrust.fl.v1.CoordinatorService/Heartbeat", ⟨["edge-worker", "observer", "admin"], true⟩),
    ("/zerotrust.fl.v1.CoordinatorService/GetGlobalModel",
      ⟨["edge-worker", "observer", "admin"], true⟩),
    ("/zerotrust.fl.v1.CoordinatorService/SubmitLocalUpdate", ⟨["edge-worker", "admin"], true⟩),
    ("/zerotrust.fl.v1.CoordinatorService/RotateRegistration",
      ⟨["edge-worker", "observer", "admin"], true⟩),
    ("/zerotrust.fl.v1.CoordinatorService/RevokeRegistration", ⟨["admin"], true⟩),
    ("/grpc.health.v1.Health/Check", ⟨["edge-worker", "observer", "admin"], false⟩),
    ("/grpc.health.v1.Health/Watch", ⟨["edge-worker", "observer", "admin"], false⟩)]

/-! ## The interceptor -/

/-- What is known of the peer of a remote call. -/
inductive PeerInfo where
  | missing
  | withoutTLS
  | tls (state : ConnectionState)

def peerIdentityFromContext (peer : PeerInfo) (trustDomain : String) : Except String PeerIdentity :=
  match peer with
  | .missing => .error "gRPC peer authentication information is missing"
  | .withoutTLS => .error "gRPC peer is not authenticated with TLS"
  | .tls state =>
    match state.verifiedChains, state.peerCertificates with
    | _ :: _, cert :: _ => clientIdentityFromCertificate cert trustDomain
    | _, _ => .error "gRPC peer certificate was not verified"

/-- A remote call: its peer, the values of its authorization header if it has metadata, and what it
asks for. -/
structure Rpc where
  peer : PeerInfo
  authorization : Option (List String)
  request : Request
  env : Env

/-- Why a call does not get to its handler. -/
inductive Denial where
  | refused (message : String)
  | unauthenticated (message : String)
  | permissionDenied (message : String)
deriving DecidableEq

structure Authorizer where
  trustDomain : String
  verifier : TokenVerifier
  rules : List (String × MethodRule)

def newAuthorizer (trustDomain : String) (verifier : TokenVerifier) : Authorizer :=
  ⟨trustDomainOr trustDomain, verifier, defaultMethodRules⟩

/-- The identity under which the handler runs. -/
def Authorizer.authorize (a : Authorizer) (registry : RegistrationStore) (rpc : Rpc) :
    Except Denial PeerIdentity :=
  match a.rules.lookup rpc.request.method with
  | none => .error (.permissionDenied "RPC is not permitted by policy")
  | some rule =>
    match peerIdentityFromContext rpc.peer a.trustDomain with
    | .error _ => .error (.unauthenticated "verified client certificate is required")
    | .ok identity =>
      match bearerTokenFromIncomingContext rpc.authorization with
      | .error e => .error (.unauthenticated e)
      | .ok rawToken =>
        match a.verifier.verify rawToken (rpc.env.clock.read 0) with
        | .error _ => .error (.unauthenticated "bearer token is invalid")
        | .ok claims =>
          if claims.subject ≠ identity.nodeID ∨ claims.nodeID ≠ identity.nodeID then
            .error (.permissionDenied "token identity is not bound to the client certificate")
          else if claims.role ≠ identity.role then
            .error (.permissionDenied "token role is not bound to the client certificate")
          else if !stringAllowed identity.role rule.roles then
            .error (.permissionDenied
              ("role " ++ quote identity.role ++ " cannot invoke " ++ rpc.request.method))
          else if rule.requireRegistration && !registry.isRegistered identity
            (rpc.env.clock.read 1) then
            .error (.permissionDenied "node must register before invoking this RPC")
          else .ok identity

/-! ## What the interceptor has checked -/

/-- The certificate states the identity. -/
structure Certificate.States (cert : Certificate) (trustDomain : String) (identity : PeerIdentity) :
    Prop where
  node : identity.nodeID = trimSpace cert.commonName
  named : identity.nodeID ≠ ""
  role : certificateRole cert = .ok identity.role
  uri : some (nodeURI (trustDomainOr trustDomain) identity.nodeID) ∈ cert.uris
  fingerprint : identity.certificateFingerprint = hexEncode (sha256 cert.raw)

variable {cert : Certificate} {word cs : List Char} {c : Char}

theorem clientIdentityFromCertificate_ok {trustDomain : String} {identity : PeerIdentity}
    (h : clientIdentityFromCertificate cert trustDomain = .ok identity) :
    cert.States trustDomain identity := by
  rcases hrole : certificateRole cert with e | role <;>
    simp only [clientIdentityFromCertificate, hrole] at h
  · split_ifs at h
  split_ifs at h with hname huri
  cases h
  refine ⟨rfl, hname, hrole, ?_, rfl⟩
  simp only [certificateHasURI, Bool.not_eq_true', Bool.not_eq_false, List.any_eq_true,
    decide_eq_true_eq] at huri
  obtain ⟨_, hmem, rfl⟩ := huri
  exact hmem

theorem stringAllowed_iff {value : String} {allowed : List String} :
    stringAllowed value allowed = true ↔ value ∈ allowed := by
  simp only [stringAllowed, List.any_eq_true, decide_eq_true_eq, exists_eq_right']

/-- The remote call comes from the peer, with a verified certificate that states the identity and a
token for it, and the peer's role may make it; where it has to be registered it is. -/
structure Authorizer.Admits (a : Authorizer) (registry : RegistrationStore) (rpc : Rpc)
    (identity : PeerIdentity) (state : ConnectionState) : Prop where
  peer : rpc.peer = .tls state
  verified : state.verifiedChains ≠ []
  certificate : ∃ cert, state.peerCertificates.head? = some cert ∧
    cert.States a.trustDomain identity
  token : ∃ rawToken claims, bearerTokenFromIncomingContext rpc.authorization = .ok rawToken ∧
    a.verifier.parse rawToken (rpc.env.clock.read 0) = .ok claims ∧
    claims = ⟨identity.nodeID, identity.nodeID, identity.role⟩
  permitted : ∃ rule, a.rules.lookup rpc.request.method = some rule ∧ identity.role ∈ rule.roles ∧
    (rule.requireRegistration = true → registry.isRegistered identity (rpc.env.clock.read 1) = true)

theorem TokenVerifier.verify_ok {v : TokenVerifier} {rawToken : String} {now : ℤ}
    {claims : TokenClaims} (h : v.verify rawToken now = .ok claims) :
    v.parse rawToken now = .ok claims := by
  simp only [verify] at h
  split_ifs at h with hempty
  rcases hparse : v.parse rawToken now with e | claims'
  · rw [hparse] at h
    cases h
  rw [hparse] at h
  simp only at h
  split_ifs at h
  cases h
  rfl

theorem Authorizer.authorize_ok {a : Authorizer} {registry : RegistrationStore} {rpc : Rpc}
    {identity : PeerIdentity} (h : a.authorize registry rpc = .ok identity) :
    ∃ state, a.Admits registry rpc identity state := by
  simp only [authorize] at h
  rcases hrule : a.rules.lookup rpc.request.method with _ | rule
  · rw [hrule] at h
    cases h
  rcases hpeer : peerIdentityFromContext rpc.peer a.trustDomain with e | identity'
  · rw [hrule, hpeer] at h
    cases h
  rcases htoken : bearerTokenFromIncomingContext rpc.authorization with e | rawToken
  · rw [hrule, hpeer, htoken] at h
    cases h
  rcases hverify : a.verifier.verify rawToken (rpc.env.clock.read 0) with e | claims
  · rw [hrule, hpeer, htoken] at h
    simp only [hverify] at h
    cases h
  rw [hrule, hpeer, htoken] at h
  simp only [hverify] at h
  split_ifs at h with hnode hrole hallowed hregistered
  cases h
  simp only [not_or, not_not] at hnode hrole
  obtain ⟨state, hstate, hchains, cert, hcert, hidentity⟩ : ∃ state, rpc.peer = .tls state ∧
      state.verifiedChains ≠ [] ∧ ∃ cert, state.peerCertificates.head? = some cert ∧
        clientIdentityFromCertificate cert a.trustDomain = .ok identity := by
    rcases hp : rpc.peer with _ | _ | state <;> rw [hp] at hpeer
    · cases hpeer
    · cases hpeer
    · simp only [peerIdentityFromContext] at hpeer
      rcases hchains : state.verifiedChains with _ | ⟨chain, chains⟩
      · rw [hchains] at hpeer
        cases hpeer
      · rcases hcerts : state.peerCertificates with _ | ⟨cert, certs⟩
        · rw [hchains, hcerts] at hpeer
          cases hpeer
        · rw [hchains, hcerts] at hpeer
          exact ⟨state, rfl, by rw [hchains]; exact List.cons_ne_nil _ _, cert,
            by rw [hcerts]; rfl, hpeer⟩
  refine ⟨state, hstate, hchains, ⟨cert, hcert, clientIdentityFromCertificate_ok hidentity⟩,
    ⟨rawToken, claims, htoken, TokenVerifier.verify_ok hverify, ?_⟩, rule, hrule, ?_,
    fun hrequire => ?_⟩
  · rw [← hrole, ← hnode.2]
    rcases claims with ⟨subject, nodeID, role⟩
    simp only [TokenClaims.mk.injEq, and_true]
    exact hnode.1.trans hnode.2.symm
  · exact stringAllowed_iff.1 (by simpa using hallowed)
  · rw [hrequire] at hregistered
    simpa using hregistered

/-! ## What the server has checked of a connection -/

theorem trustDomainOr_trustDomainOr (trustDomain : String) :
    trustDomainOr (trustDomainOr trustDomain) = trustDomainOr trustDomain := by
  by_cases h : trustDomain = ""
  · simp only [trustDomainOr, if_pos h]
    rfl
  · simp only [trustDomainOr, if_neg h]

theorem Certificate.States.trustDomainOr {trustDomain : String} {identity : PeerIdentity}
    (h : cert.States (trustDomainOr trustDomain) identity) : cert.States trustDomain identity :=
  { h with uri := by simpa only [trustDomainOr_trustDomainOr] using h.uri }

theorem verifySPKIPin_ok_iff {allowedPins : List String} :
    verifySPKIPin cert allowedPins = .ok () ↔
      allowedPins = [] ∨ ∃ pin ∈ allowedPins, spkiPin cert = .ok (trimSpace pin) := by
  rcases allowedPins with _ | ⟨first, rest⟩
  · simp [verifySPKIPin]
  rcases hpin : spkiPin cert with e | actual
  · simp [verifySPKIPin, hpin]
  · simp only [verifySPKIPin, hpin, List.length_cons, Nat.add_eq_zero_iff, one_ne_zero, and_false,
      if_false, List.any_eq_true, decide_eq_true_eq, reduceCtorEq, false_or, Except.ok.injEq,
      @eq_comm _ actual]
    split_ifs with hany <;> simpa using hany

/-- What the server has checked of a connection and the certificate of the peer. -/
structure ServerTLSOptions.Accepts (opts : ServerTLSOptions) (pqcMode : PQCMode)
    (state : ConnectionState) (cert : Certificate) : Prop where
  verified : state.verifiedChains ≠ []
  leaf : state.peerCertificates.head? = some cert
  keyExchange : pqcMode = .required → isPostQuantumKeyExchange state.curveID = true
  signature : opts.requirePQCIdentity = true → isMLDSACertificate cert = true
  stated : ∃ identity, cert.States opts.trustDomain identity ∧ identity.role ∈ opts.roles
  pinned : opts.clientSPKIPins = [] ∨ ∃ pin ∈ opts.clientSPKIPins,
    spkiPin cert = .ok (trimSpace pin)

theorem validatePQCConnection_ok {mode : PQCMode} {state : ConnectionState}
    (h : validatePQCConnection mode state = .ok ()) :
    mode = .required → isPostQuantumKeyExchange state.curveID = true := by
  rintro rfl
  simp only [validatePQCConnection, ne_eq, not_true_eq_false, if_false] at h
  split_ifs at h with hgroup
  simpa using hgroup

theorem validatePQCIdentity_ok {required : Bool} {peerLabel : String}
    (h : validatePQCIdentity required cert peerLabel = .ok ()) :
    required = true → isMLDSACertificate cert = true := by
  rintro rfl
  simp only [validatePQCIdentity, Bool.not_true, Bool.false_eq_true, if_false] at h
  split_ifs at h with hkey
  simpa using hkey

theorem ServerTLSOptions.verifyConnection_ok {opts : ServerTLSOptions} {pqcMode : PQCMode}
    {state : ConnectionState} (h : opts.verifyConnection pqcMode state = .ok ()) :
    ∃ cert, opts.Accepts pqcMode state cert := by
  rcases hconnection : validatePQCConnection pqcMode state with e | ⟨⟨⟩⟩
  · simp only [verifyConnection, hconnection, reduceCtorEq] at h
  rcases hchains : state.verifiedChains with _ | ⟨chain, chains⟩
  · simp only [verifyConnection, hconnection, hchains, reduceCtorEq] at h
  rcases hcerts : state.peerCertificates with _ | ⟨cert, certs⟩
  · simp only [verifyConnection, hconnection, hchains, hcerts, reduceCtorEq] at h
  rcases hsignature : validatePQCIdentity opts.requirePQCIdentity cert "client" with e | ⟨⟨⟩⟩
  · simp only [verifyConnection, hconnection, hchains, hcerts, hsignature, reduceCtorEq] at h
  rcases hidentity : clientIdentityFromCertificate cert (trustDomainOr opts.trustDomain) with
    e | identity
  · simp only [verifyConnection, hconnection, hchains, hcerts, hsignature, hidentity,
      reduceCtorEq] at h
  simp only [verifyConnection, hconnection, hchains, hcerts, hsignature, hidentity] at h
  split_ifs at h with hrole
  rcases hpin : verifySPKIPin cert opts.clientSPKIPins with e | ⟨⟨⟩⟩
  · rw [hpin] at h
    cases h
  have hstates := (clientIdentityFromCertificate_ok hidentity).trustDomainOr
  exact ⟨cert, by rw [hchains]; exact List.cons_ne_nil _ _, by rw [hcerts]; rfl,
    validatePQCConnection_ok hconnection,
    validatePQCIdentity_ok hsignature,
    ⟨identity, hstates, stringAllowed_iff.1 (by simpa using hrole)⟩, verifySPKIPin_ok_iff.1 hpin⟩

/-! ## Bearer tokens between client and server -/

theorem wordsOf_of_noSpace (h : ∀ c ∈ cs, isSpace c = false) (hne : word ++ cs ≠ []) :
    wordsOf word cs = [word ++ cs] := by
  induction cs generalizing word with
  | nil =>
    rw [List.append_nil] at hne ⊢
    simp only [wordsOf, if_neg hne]
  | cons c cs ih =>
    have hc := h c List.mem_cons_self
    rw [List.append_cons] at hne ⊢
    simp only [wordsOf, hc, Bool.false_eq_true, if_false]
    exact ih (fun d hd => h d (List.mem_cons_of_mem c hd)) hne

/-- A word ends at a space. -/
theorem wordsOf_append_space {rest : List Char} (h : ∀ d ∈ cs, isSpace d = false)
    (hc : isSpace c = true) (hne : word ++ cs ≠ []) :
    wordsOf word (cs ++ c :: rest) = (word ++ cs) :: wordsOf [] rest := by
  induction cs generalizing word with
  | nil =>
    rw [List.append_nil] at hne ⊢
    simp only [List.nil_append, wordsOf, hc, if_true, if_neg hne]
  | cons d cs ih =>
    have hd := h d List.mem_cons_self
    rw [List.append_cons word d cs] at hne ⊢
    simp only [List.cons_append, wordsOf, hd, Bool.false_eq_true, if_false]
    exact ih (fun x hx => h x (List.mem_cons_of_mem d hx)) hne

theorem wordsOf_ne_nil (h : word ≠ [] ∨ ∃ c ∈ cs, isSpace c = false) : wordsOf word cs ≠ [] := by
  induction cs generalizing word with
  | nil =>
    rcases h with h | ⟨c, hc, -⟩
    · simp only [wordsOf, if_neg h, ne_eq, List.cons_ne_nil, not_false_eq_true]
    · cases hc
  | cons c cs ih =>
    by_cases hc : isSpace c = true
    · by_cases hword : word = []
      · simp only [wordsOf, hc, if_true, if_pos hword]
        rcases h with h | ⟨d, hd, hspace⟩
        · exact absurd hword h
        · rcases List.mem_cons.1 hd with rfl | hd
          · cases hc.symm.trans hspace
          · exact ih (.inr ⟨d, hd, hspace⟩)
      · simp only [wordsOf, hc, if_true, if_neg hword, ne_eq, List.cons_ne_nil, not_false_eq_true]
    · simp only [wordsOf, hc, Bool.false_eq_true, if_false]
      exact ih (.inl (by simp))

/-- A trimmed text with a space in it has words before and after the space. -/
theorem exists_words_of_space (hfirst : ∀ c, cs.head? = some c → isSpace c = false)
    (hlast : ∀ c, cs.getLast? = some c → isSpace c = false) (h : ∃ c ∈ cs, isSpace c = true) :
    ∃ first second rest, wordsOf [] cs = first :: second :: rest := by
  obtain ⟨before, c, after, hcs, hbefore, hc⟩ : ∃ before c after, cs = before ++ c :: after ∧
      (∀ d ∈ before, isSpace d = false) ∧ isSpace c = true := by
    obtain ⟨c, hc⟩ := Option.isSome_iff_exists.1 (List.find?_isSome.2 h)
    obtain ⟨hspace, before, after, rfl, hnone⟩ := List.find?_eq_some_iff_append.1 hc
    exact ⟨before, c, after, rfl, fun d hd => by simpa using hnone d hd, hspace⟩
  have hne : before ≠ [] := by
    rintro rfl
    have hnot := hfirst c (by rw [hcs]; rfl)
    cases hnot.symm.trans hc
  have hafter : after ≠ [] := by
    rintro rfl
    have hnot := hlast c (by rw [hcs, List.getLast?_append]; rfl)
    cases hnot.symm.trans hc
  obtain ⟨second, rest, hrest⟩ := List.exists_cons_of_ne_nil (@wordsOf_ne_nil [] after
    (.inr ⟨after.getLast hafter, List.getLast_mem hafter, hlast _ (by
      rw [hcs, List.getLast?_append, List.getLast?_cons, List.getLast?_eq_some_getLast hafter]
      rfl)⟩))
  refine ⟨before, second, rest, ?_⟩
  rw [hcs, @wordsOf_append_space [] _ _ _ hbefore hc (by simpa using hne), hrest]
  rfl

theorem head?_trimSpace {s : String} (h : (trimSpace s).toList.head? = some c) :
    isSpace c = false := by
  rw [trimSpace, String.toList_ofList] at h
  have hprefix := List.rdropWhile_prefix isSpace (s.toList.dropWhile isSpace)
  generalize hd : s.toList.dropWhile isSpace = dropped at h hprefix
  obtain ⟨rest, hrest⟩ := hprefix
  have hhead : dropped.head? = some c := by
    rw [← hrest, List.head?_append, h]
    rfl
  have hnot := List.head?_dropWhile_not isSpace s.toList
  rw [hd, hhead] at hnot
  exact hnot

theorem getLast?_trimSpace {s : String} (h : (trimSpace s).toList.getLast? = some c) :
    isSpace c = false := by
  rw [trimSpace, String.toList_ofList] at h
  have hne : (s.toList.dropWhile isSpace).rdropWhile isSpace ≠ [] := by
    intro hnil
    rw [hnil] at h
    cases h
  have hnot := List.rdropWhile_last_not isSpace (s.toList.dropWhile isSpace) hne
  rw [List.getLast?_eq_some_getLast hne, Option.some.injEq] at h
  rw [h] at hnot
  simpa using hnot

/-- The server reads the token that a client sends, without the space around it; it refuses a token
with space in it. -/
theorem bearerToken_contextWithBearerToken (token : String) (h : trimSpace token ≠ "") :
    ∃ header, contextWithBearerToken token = .ok header ∧
      bearerTokenFromIncomingContext (some header) =
        if (trimSpace token).toList.any isSpace then
          .error "authorization header must use Bearer authentication"
        else .ok (trimSpace token) := by
  refine ⟨["Bearer " ++ trimSpace token], by simp only [contextWithBearerToken, if_neg h], ?_⟩
  have hchars : ("Bearer " ++ trimSpace token).toList = "Bearer".toList ++ ' ' ::
      (trimSpace token).toList := by
    rw [String.toList_append]
    rfl
  have hwords : wordsOf [] ("Bearer " ++ trimSpace token).toList =
      "Bearer".toList :: wordsOf [] (trimSpace token).toList := by
    rw [hchars]
    have hscheme : "Bearer".toList.all (fun d => !isSpace d) = true := by decide
    exact @wordsOf_append_space []
      _ _ _ (fun d hd => by simpa using List.all_eq_true.1 hscheme d hd) (by decide) (by decide)
  have hne : (trimSpace token).toList ≠ [] := by
    intro hnil
    exact h (String.toList_injective hnil)
  by_cases hspace : ∃ c ∈ (trimSpace token).toList, isSpace c = true
  · obtain ⟨first, second, rest, hrest⟩ :=
      exists_words_of_space (fun c => head?_trimSpace) (fun c => getLast?_trimSpace) hspace
    rw [if_pos (List.any_eq_true.2 hspace)]
    simp only [bearerTokenFromIncomingContext, fields, hwords, hrest, List.map_cons]
  · have hnone : ∀ c ∈ (trimSpace token).toList, isSpace c = false := by simpa using hspace
    rw [if_neg (by simpa using hspace)]
    have hscheme : ¬ (toLower "Bearer" ≠ "bearer" ∨ trimSpace token = "") := by
      rw [not_or]
      exact ⟨by decide, h⟩
    simp only [bearerTokenFromIncomingContext, fields, hwords,
      @wordsOf_of_noSpace [] _ hnone (by simpa using hne), List.nil_append, List.map_cons,
      List.map_nil, String.ofList_toList, if_neg hscheme]

end ZeroTrustFL
