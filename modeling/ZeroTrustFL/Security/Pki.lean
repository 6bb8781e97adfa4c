import Mathlib
import ZeroTrustFL.Lib.OrdMap
import ZeroTrustFL.Lib.Time
import ZeroTrustFL.Security.Authorizer

/-!
# Enrolment

`security/certgen.go` and `pkg/security/pki.go` issue certificates and tokens to the nodes of a
deployment, and `pkg/security/token.go` issues and checks the tokens.  Keys, signatures, the DER
encoding and the parsing of URLs are up to libraries; files that cannot be written and keys that
cannot be generated are left out.
-/

namespace ZeroTrustFL

/-! ## Tokens -/

/-- The claims of a token. -/
structure SignedClaims where
  nodeID : String
  role : String
  issuer : String
  subject : String
  audience : List String
  expiresAt : ℤ
  notBefore : ℤ
  issuedAt : ℤ
  tokenID : String
deriving DecidableEq

/-- The token library: signing, and the format and the signature of a token. -/
structure Jwt where
  publicKey : Bytes → Bytes
  signedString : Bytes → SignedClaims → String
  decode : Bytes → String → Except String SignedClaims

/-- `jwt.NewNumericDate`. -/
def numericDate (t : ℤ) : ℤ := t - t % second

/-- The claims that the library checks with the options of the verifier. -/
def SignedClaims.valid (claims : SignedClaims) (issuer audience : String) (leeway now : ℤ) : Bool :=
  now < claims.expiresAt + leeway ∧ claims.notBefore - leeway ≤ now ∧
    claims.issuedAt - leeway ≤ now ∧ claims.issuer = issuer ∧ audience ∈ claims.audience

def newTokenVerifier (jwt : Jwt) (publicKey : Bytes) (issuer audience : String) (leeway : ℤ) :
    Except String TokenVerifier :=
  if publicKey.length ≠ 32 then .error "invalid Ed25519 public key"
  else if trimSpace issuer = "" then .error "token issuer is required"
  else if trimSpace audience = "" then .error "token audience is required"
  else if leeway < 0 then .error "token leeway cannot be negative"
  else .ok ⟨fun rawToken now =>
    match jwt.decode publicKey rawToken with
    | .error e => .error e
    | .ok claims =>
      if claims.valid issuer audience leeway now then
        .ok ⟨claims.subject, claims.nodeID, claims.role⟩
      else .error "token has invalid claims"⟩

/-- The claims of a new token. -/
def tokenClaims (issuer audience nodeID role : String) (ttl now : ℤ) (tokenID : String) :
    SignedClaims where
  nodeID := nodeID
  role := role
  issuer := issuer
  subject := nodeID
  audience := [audience]
  expiresAt := numericDate (now + ttl)
  notBefore := numericDate (now - 5 * second)
  issuedAt := numericDate now
  tokenID := tokenID

def issueToken (jwt : Jwt) (privateKey : Bytes) (issuer audience nodeID role : String) (ttl now : ℤ)
    (tokenID : String) : Except String String :=
  if privateKey.length ≠ 64 then .error "invalid Ed25519 private key"
  else if trimSpace issuer = "" ∨ trimSpace audience = "" then
    .error "issuer and audience are required"
  else if trimSpace nodeID = "" ∨ trimSpace role = "" then .error "node ID and role are required"
  else if ttl ≤ 0 then .error "token TTL must be positive"
  else .ok (jwt.signedString privateKey (tokenClaims issuer audience nodeID role ttl now tokenID))

/-! ## Certificates -/

structure DevelopmentClient where
  nodeID : String
  role : String
deriving DecidableEq

structure DevelopmentPKIConfig where
  outputDir : String
  trustDomain : String
  serverName : String
  issuer : String
  audience : String
  tokenTTL : ℤ
  clients : List DevelopmentClient
  certificateAlgorithm : String

/-- The libraries, the clock and the randomness of a generation: `leaf` has the encoded key and the
encoded certificate of each leaf certificate, `now` and `tokenIDs` the times and the identifiers of
the tokens. -/
structure PkiEnv where
  jwt : Jwt
  parseURL : String → Except String String
  verifyHostname : List String → String → Except String Unit
  now : ℕ → ℤ
  jwtPrivate : Bytes
  leaf : ℕ → Bytes × Bytes
  tokenIDs : ℕ → String

/-- What a client gets: its certificate and the text of its token file. -/
structure ClientArtifacts where
  certificate : Certificate
  tokenFile : String

structure DevelopmentPKIArtifacts where
  serverCertificate : Certificate
  jwtPublicKey : Bytes
  certificateAlgorithm : String
  clients : OrdMap String ClientArtifacts

def containsAny (s chars : String) : Bool := s.toList.any fun c => chars.toList.contains c

def validateIdentityPart (value label : String) : Except String Unit :=
  let value := trimSpace value
  if value = "" then .error (label ++ " is required")
  else if containsAny value "/:\\ \t\r\n" then .error (label ++ " contains unsupported characters")
  else .ok ()

def validateDNSLikeValue (value label : String) : Except String Unit :=
  let value := trimSpace value
  if value = "" then .error (label ++ " is required")
  else if containsAny value "/ \\ \t\r\n" then .error (label ++ " contains unsupported characters")
  else .ok ()

def normalizeCertificateAlgorithm (value : String) : Except String String :=
  let normalized := toLower (trimSpace value)
  if normalized = "" then .ok "ecdsa-p256"
  else if normalized = "ecdsa-p256" ∨ normalized = "ed25519" ∨ normalized = "mldsa65" then
    .ok normalized
  else .error ("unsupported certificate algorithm " ++ quote value ++
    "; expected ecdsa-p256, ed25519, or mldsa65")

/-- The type of the public keys that `generateCertificateKey` makes. -/
def keyTypeName (algorithm : String) : String :=
  if algorithm = "mldsa65" then "*mldsa.PublicKey"
  else if algorithm = "ed25519" then "ed25519.PublicKey"
  else "*ecdsa.PublicKey"

/-- The loop of `uniqueStrings`. -/
def uniqueStrings (values : List String) : List String :=
  values.foldl (fun result value => if value = "" ∨ value ∈ result then result
    else result ++ [value]) []

/-- The certificate that is made from `leafCertificateTemplate` with a URI and DNS names. -/
def leafCertificate (env : PkiEnv) (algorithm : String) (index : ℕ) (commonName role uri : String)
    (dnsNames : List String) : Certificate where
  commonName := commonName
  organizationalUnits := ["role:" ++ role]
  uris := [some uri]
  raw := (env.leaf index).2
  publicKey := ⟨keyTypeName algorithm, .ok (env.leaf index).1⟩
  verifyHostname := env.verifyHostname dnsNames

namespace DevelopmentPKIConfig

/-- The configuration with defaults for what is not set. -/
def withDefaults (cfg : DevelopmentPKIConfig) : DevelopmentPKIConfig :=
  { cfg with
    trustDomain := trustDomainOr cfg.trustDomain
    serverName := if cfg.serverName = "" then "coordinator.local" else cfg.serverName
    issuer := if cfg.issuer = "" then "zerotrust-fl-sim" else cfg.issuer
    audience := if cfg.audience = "" then "zerotrust-fl-services" else cfg.audience
    tokenTTL := if cfg.tokenTTL ≤ 0 then 24 * 60 * minute else cfg.tokenTTL
    clients := if cfg.clients.length = 0 then
      [⟨"edge-worker-01", "edge-worker"⟩, ⟨"observer-01", "observer"⟩] else cfg.clients }

end DevelopmentPKIConfig

/-- What one client gets. -/
def clientArtifacts (env : PkiEnv) (cfg : DevelopmentPKIConfig) (algorithm : String) (index : ℕ)
    (client : DevelopmentClient) : Except String ClientArtifacts :=
  match validateIdentityPart client.nodeID "client node ID" with
  | .error e => .error e
  | .ok () =>
    match validateIdentityPart client.role "client role" with
    | .error e => .error e
    | .ok () =>
      match env.parseURL (nodeURI cfg.trustDomain client.nodeID) with
      | .error e => .error ("build client URI SAN: " ++ e)
      | .ok uri =>
        match issueToken env.jwt env.jwtPrivate cfg.issuer cfg.audience client.nodeID client.role
          cfg.tokenTTL (env.now index) (env.tokenIDs index) with
        | .error e => .error ("issue token for " ++ client.nodeID ++ ": " ++ e)
        | .ok token =>
          .ok ⟨leafCertificate env algorithm index client.nodeID client.role uri [], token ++ "\n"⟩

/-- The loop over the clients, from the index of the first one. -/
def addClients (env : PkiEnv) (cfg : DevelopmentPKIConfig) (algorithm : String) (index : ℕ)
    (artifacts : OrdMap String ClientArtifacts) :
    List DevelopmentClient → Except String (OrdMap String ClientArtifacts)
  | [] => .ok artifacts
  | client :: clients =>
    match clientArtifacts env cfg algorithm index client with
    | .error e => .error e
    | .ok issued => addClients env cfg algorithm (index + 1)
        (artifacts.insert client.nodeID issued) clients

def generateDevelopmentPKI (env : PkiEnv) (cfg : DevelopmentPKIConfig) :
    Except String DevelopmentPKIArtifacts :=
  if trimSpace cfg.outputDir = "" then .error "output directory is required"
  else
    let cfg := cfg.withDefaults
    match normalizeCertificateAlgorithm cfg.certificateAlgorithm with
    | .error e => .error e
    | .ok algorithm =>
      match validateDNSLikeValue cfg.trustDomain "trust domain" with
      | .error e => .error e
      | .ok () =>
        match validateDNSLikeValue cfg.serverName "server name" with
        | .error e => .error e
        | .ok () =>
          match env.parseURL (coordinatorURI cfg.trustDomain cfg.serverName) with
          | .error e => .error ("build server URI SAN: " ++ e)
          | .ok uri =>
            match addClients env cfg algorithm 1 ∅ cfg.clients with
            | .error e => .error e
            | .ok clients =>
              .ok ⟨leafCertificate env algorithm 0 cfg.serverName "coordinator" uri
                  (uniqueStrings [cfg.serverName, "localhost"]),
                env.jwt.publicKey env.jwtPrivate, algorithm, clients⟩

/-! ## The command line -/

/-- `strings.Split` at a character; `part` is the part that has begun. -/
def splitAt (separator : Char) (part : List Char) : List Char → List (List Char)
  | [] => [part]
  | c :: cs => if c = separator then part :: splitAt separator [] cs
    else splitAt separator (part ++ [c]) cs

/-- One entry `node=role` of the list of clients. -/
def parseClient (rawEntry : List Char) : Except String DevelopmentClient :=
  let entry := trimSpace (.ofList rawEntry)
  match entry.toList.span (· ≠ '=') with
  | (_, []) => .error ("client " ++ quote entry ++ " must use node=role syntax")
  | (node, _ :: role) =>
    let nodeID := trimSpace (.ofList node)
    let role := trimSpace (.ofList role)
    if nodeID = "" ∨ role = "" then
      .error ("client " ++ quote entry ++ " must contain a non-empty node and role")
    else .ok ⟨nodeID, role⟩

/-- The loop over the entries, with the clients so far. -/
def parseEntries (clients : List DevelopmentClient) :
    List (List Char) → Except String (List DevelopmentClient)
  | [] => .ok clients
  | rawEntry :: entries =>
    match parseClient rawEntry with
    | .error e => .error e
    | .ok client =>
      if client.nodeID ∈ clients.map DevelopmentClient.nodeID then
        .error ("duplicate client node ID " ++ quote client.nodeID)
      else parseEntries (clients ++ [client]) entries

def parseDevelopmentClients (value : String) : Except String (List DevelopmentClient) :=
  let value := trimSpace value
  if value = "" then .ok [] else parseEntries [] (splitAt ',' [] value.toList)

/-! ## What is issued -/

/-- An identity whose parts are set and have no space around them. -/
structure DevelopmentClient.Trimmed (client : DevelopmentClient) : Prop where
  nodeID : trimSpace client.nodeID = client.nodeID
  nodeID_ne : client.nodeID ≠ ""
  role : trimSpace client.role = client.role
  role_ne : client.role ≠ ""

theorem parseClient_ok {rawEntry : List Char} {client : DevelopmentClient}
    (h : parseClient rawEntry = .ok client) : client.Trimmed := by
  unfold parseClient at h
  simp only at h
  split at h
  · cases h
  · split_ifs at h with hempty
    cases h
    rw [not_or] at hempty
    exact ⟨trimSpace_trimSpace _, hempty.1, trimSpace_trimSpace _, hempty.2⟩

theorem parseEntries_ok {entries : List (List Char)} {clients result : List DevelopmentClient}
    (h : parseEntries clients entries = .ok result) (htrimmed : ∀ client ∈ clients, client.Trimmed)
    (hnodup : (clients.map DevelopmentClient.nodeID).Nodup) :
    (∀ client ∈ result, client.Trimmed) ∧ (result.map DevelopmentClient.nodeID).Nodup := by
  induction entries generalizing clients with
  | nil =>
    cases h
    exact ⟨htrimmed, hnodup⟩
  | cons rawEntry entries ih =>
    rcases hparse : parseClient rawEntry with e | client <;>
      simp only [parseEntries, hparse, reduceCtorEq] at h
    split_ifs at h with hseen
    refine ih h (fun client' hmem => ?_) ?_
    · rcases List.mem_append.1 hmem with hmem | hmem
      · exact htrimmed client' hmem
      · rw [List.mem_singleton.1 hmem]
        exact parseClient_ok hparse
    · rw [List.map_append, List.map_singleton]
      exact List.Nodup.append hnodup (List.nodup_singleton _) (List.disjoint_singleton.2 hseen)

/-- The clients of the command line have distinct, trimmed names. -/
theorem parseDevelopmentClients_ok {value : String} {clients : List DevelopmentClient}
    (h : parseDevelopmentClients value = .ok clients) :
    (∀ client ∈ clients, client.Trimmed) ∧ (clients.map DevelopmentClient.nodeID).Nodup := by
  unfold parseDevelopmentClients at h
  simp only at h
  split_ifs at h
  · cases h
    exact ⟨fun client hmem => (by cases hmem), List.nodup_nil⟩
  · exact parseEntries_ok h (fun client hmem => (by cases hmem)) List.nodup_nil

section

variable {env : PkiEnv} {cfg : DevelopmentPKIConfig} {algorithm : String}

variable {index : ℕ} {client : DevelopmentClient}

theorem addClients_other {clients : List DevelopmentClient}
    {artifacts result : OrdMap String ClientArtifacts}
    (h : addClients env cfg algorithm index artifacts clients = .ok result) {nodeID : String}
    (hnot : nodeID ∉ clients.map DevelopmentClient.nodeID) :
    result.get? nodeID = artifacts.get? nodeID := by
  induction clients generalizing index artifacts with
  | nil =>
    cases h
    rfl
  | cons client clients ih =>
    rw [List.map_cons, List.mem_cons, not_or] at hnot
    rcases hissued : clientArtifacts env cfg algorithm index client with e | issued <;>
      simp only [addClients, hissued, reduceCtorEq] at h
    rw [ih h hnot.2, OrdMap.get?_insert_of_ne _ _ hnot.1]

/-- Each client has what was issued to it. -/
theorem addClients_get? {clients : List DevelopmentClient}
    {artifacts result : OrdMap String ClientArtifacts}
    (h : addClients env cfg algorithm index artifacts clients = .ok result)
    (hnodup : (clients.map DevelopmentClient.nodeID).Nodup) {i : ℕ}
    (hclient : clients[i]? = some client) :
    ∃ issued, clientArtifacts env cfg algorithm (index + i) client = .ok issued ∧
      result.get? client.nodeID = some issued := by
  induction clients generalizing index artifacts i with
  | nil => cases hclient
  | cons first clients ih =>
    rw [List.map_cons, List.nodup_cons] at hnodup
    rcases hissued : clientArtifacts env cfg algorithm index first with e | issued <;>
      simp only [addClients, hissued, reduceCtorEq] at h
    rcases i with _ | i
    · obtain rfl : first = client := Option.some.inj hclient
      exact ⟨issued, hissued, by rw [addClients_other h hnodup.1, OrdMap.get?_insert_self]⟩
    · rw [Nat.add_comm i 1, ← Nat.add_assoc]
      exact ih h hnodup.2 hclient

/-- What a client has been issued. -/
structure Issued (env : PkiEnv) (cfg : DevelopmentPKIConfig) (algorithm : String)
    (client : DevelopmentClient) (uri : String) (index : ℕ) (issued : ClientArtifacts) : Prop where
  nodeID : validateIdentityPart client.nodeID "client node ID" = .ok ()
  parsed : env.parseURL (nodeURI cfg.trustDomain client.nodeID) = .ok uri
  certificate : issued.certificate =
    leafCertificate env algorithm index client.nodeID client.role uri []
  tokenFile : issued.tokenFile = env.jwt.signedString env.jwtPrivate
    (tokenClaims cfg.issuer cfg.audience client.nodeID client.role cfg.tokenTTL (env.now index)
      (env.tokenIDs index)) ++ "\n"

theorem clientArtifacts_ok {issued : ClientArtifacts}
    (h : clientArtifacts env cfg algorithm index client = .ok issued) :
    ∃ uri, Issued env cfg algorithm client uri index issued := by
  rcases hnode : validateIdentityPart client.nodeID "client node ID" with e | ⟨⟨⟩⟩
  · simp only [clientArtifacts, hnode, reduceCtorEq] at h
  rcases hrole : validateIdentityPart client.role "client role" with e | ⟨⟨⟩⟩
  · simp only [clientArtifacts, hnode, hrole, reduceCtorEq] at h
  rcases huri : env.parseURL (nodeURI cfg.trustDomain client.nodeID) with e | uri
  · simp only [clientArtifacts, hnode, hrole, huri, reduceCtorEq] at h
  rcases htoken : issueToken env.jwt env.jwtPrivate cfg.issuer cfg.audience client.nodeID
    client.role cfg.tokenTTL (env.now index) (env.tokenIDs index) with e | token
  · simp only [clientArtifacts, hnode, hrole, huri, htoken, reduceCtorEq] at h
  simp only [clientArtifacts, hnode, hrole, huri, htoken] at h
  cases h
  refine ⟨uri, hnode, huri, rfl, ?_⟩
  unfold issueToken at htoken
  split_ifs at htoken
  cases htoken
  rfl

/-- What has been generated. -/
structure Generated (env : PkiEnv) (cfg : DevelopmentPKIConfig) (uri : String)
    (pki : DevelopmentPKIArtifacts) : Prop where
  trustDomain : validateDNSLikeValue cfg.trustDomain "trust domain" = .ok ()
  serverName : validateDNSLikeValue cfg.serverName "server name" = .ok ()
  parsed : env.parseURL (coordinatorURI cfg.trustDomain cfg.serverName) = .ok uri
  serverCertificate : pki.serverCertificate =
    leafCertificate env pki.certificateAlgorithm 0 cfg.serverName "coordinator"
    uri (uniqueStrings [cfg.serverName, "localhost"])
  clients : addClients env cfg pki.certificateAlgorithm 1 ∅ cfg.clients = .ok pki.clients
  jwtPublicKey : pki.jwtPublicKey = env.jwt.publicKey env.jwtPrivate

theorem generateDevelopmentPKI_ok {pki : DevelopmentPKIArtifacts}
    (h : generateDevelopmentPKI env cfg = .ok pki) :
    ∃ uri, Generated env cfg.withDefaults uri pki := by
  unfold generateDevelopmentPKI at h
  split_ifs at h
  simp only at h
  rcases halgorithm : normalizeCertificateAlgorithm cfg.withDefaults.certificateAlgorithm with
    e | algorithm
  · simp only [halgorithm, reduceCtorEq] at h
  rcases hdomain : validateDNSLikeValue cfg.withDefaults.trustDomain "trust domain" with e | ⟨⟨⟩⟩
  · simp only [halgorithm, hdomain, reduceCtorEq] at h
  rcases hname : validateDNSLikeValue cfg.withDefaults.serverName "server name" with e | ⟨⟨⟩⟩
  · simp only [halgorithm, hdomain, hname, reduceCtorEq] at h
  rcases huri : env.parseURL
    (coordinatorURI cfg.withDefaults.trustDomain cfg.withDefaults.serverName) with e | uri
  · simp only [halgorithm, hdomain, hname, huri, reduceCtorEq] at h
  rcases hclients : addClients env cfg.withDefaults algorithm 1 ∅ cfg.withDefaults.clients with
    e | clients
  · simp only [halgorithm, hdomain, hname, huri, hclients, reduceCtorEq] at h
  simp only [halgorithm, hdomain, hname, huri, hclients] at h
  cases h
  exact ⟨uri, hdomain, hname, huri, rfl, hclients, rfl⟩

theorem certificateRole_leafCertificate {commonName role uri : String} {dnsNames : List String}
    (htrimmed : trimSpace role = role) (hne : role ≠ "") :
    certificateRole (leafCertificate env algorithm index commonName role uri dnsNames) =
      .ok role := by
  have hprefix : "role:".toList.isPrefixOf ("role:" ++ role).toList = true := by
    rw [String.toList_append, List.isPrefixOf_iff_prefix]
    exact List.prefix_append _ _
  have hdrop : String.ofList (("role:" ++ role).toList.drop "role:".toList.length) = role := by
    rw [String.toList_append, List.drop_left, String.ofList_toList]
  simp only [certificateRole, leafCertificate, findRole, hprefix, hdrop, htrimmed,
    not_true_eq_false, if_false, if_neg hne, ne_eq, false_and]

/-- The certificate of a client states its identity. -/
theorem clientIdentity_leafCertificate (h : client.Trimmed) {trustDomain : String} :
    clientIdentityFromCertificate (leafCertificate env algorithm index client.nodeID client.role
        (nodeURI (trustDomainOr trustDomain) client.nodeID) []) trustDomain =
      .ok (buildPeerIdentity (leafCertificate env algorithm index client.nodeID client.role
        (nodeURI (trustDomainOr trustDomain) client.nodeID) []) client.nodeID client.role) := by
  have hname : trimSpace (leafCertificate env algorithm index client.nodeID client.role
      (nodeURI (trustDomainOr trustDomain) client.nodeID) []).commonName = client.nodeID := h.nodeID
  have huri : certificateHasURI (leafCertificate env algorithm index client.nodeID client.role
      (nodeURI (trustDomainOr trustDomain) client.nodeID) [])
      (nodeURI (trustDomainOr trustDomain) client.nodeID) = true := by
    simp only [certificateHasURI, leafCertificate, List.any_cons, decide_true, Bool.true_or]
  simp only [clientIdentityFromCertificate, hname, if_neg h.nodeID_ne,
    certificateRole_leafCertificate h.role h.role_ne, huri, Bool.not_true, Bool.false_eq_true,
    if_false]

theorem numericDate_le {s t : ℤ} (h : s ≤ t) : numericDate s ≤ numericDate t := by
  unfold numericDate second
  omega

theorem trimSpace_append_newline {token : String} (hne : token ≠ "")
    (h : ∀ c ∈ token.toList, isSpace c = false) : trimSpace (token ++ "\n") = token := by
  have hnil : token.toList ≠ [] := fun hnil => hne (String.toList_injective hnil)
  obtain ⟨c, cs, hcs⟩ := List.exists_cons_of_ne_nil hnil
  have hdrop : (token.toList ++ ['\n']).dropWhile isSpace = token.toList ++ ['\n'] := by
    rw [hcs, List.cons_append,
      List.dropWhile_cons_of_neg (by rw [h c (by rw [hcs]; exact List.mem_cons_self)]; simp)]
  have hchars : (token ++ "\n").toList = token.toList ++ ['\n'] := by
    rw [String.toList_append]
    rfl
  have hlast : isSpace (token.toList.getLast hnil) = false := h _ (List.getLast_mem hnil)
  rw [trimSpace, hchars, hdrop, List.rdropWhile_concat_pos _ _ _ (by decide),
    List.rdropWhile_eq_self_iff.2 fun _ => by rw [hlast]; simp, String.ofList_toList]

end

/-! ## Certificates are not interchangeable -/

/-- The URI has the kind of its owner between its last two slashes, and at most two slashes before
them. -/
def HasKind (uri kind : String) : Prop :=
  ∃ head name, '/' ∉ name.toList ∧ head.toList.count '/' ≤ 2 ∧
    uri = head ++ "/" ++ kind ++ "/" ++ name

/-- A text with two last separators is not one with another word between them. -/
theorem kind_eq_of_uri_eq {α : Type} [DecidableEq α] {sep : α}
    {head kind name head' kind' name' : List α} (hhead : head.count sep ≤ head'.count sep)
    (hkind : sep ∉ kind) (hname : sep ∉ name) (hkind' : sep ∉ kind')
    (h : head ++ sep :: (kind ++ sep :: name) = head' ++ sep :: (kind' ++ sep :: name')) :
    kind = kind' := by
  have hcount := congrArg (List.count sep) h
  simp only [List.count_append, List.count_cons_self, List.count_eq_zero_of_not_mem hkind,
    List.count_eq_zero_of_not_mem hkind', List.count_eq_zero_of_not_mem hname] at hcount
  have hname' : sep ∉ name' := List.count_eq_zero.1 (by omega)
  rw [← List.cons_append, ← List.append_assoc, ← List.cons_append, ← List.append_assoc] at h
  exact (append_cons_inj_of_notMem hkind hkind' (append_cons_inj_of_notMem hname hname' h).1).2

/-- A URI of one kind is not the SPIFFE URI of another kind, whatever its trust domain and its
name. -/
theorem HasKind.kind_eq {uri kind trustDomain kind' name : String} (h : HasKind uri kind)
    (hkind : '/' ∉ kind.toList) (hkind' : '/' ∉ kind'.toList)
    (huri : uri = "spiffe://" ++ trustDomain ++ "/" ++ kind' ++ "/" ++ name) :
    kind.toList = kind'.toList := by
  obtain ⟨head, name', hname, hhead, rfl⟩ := h
  have hlist := congrArg String.toList huri
  simp only [String.toList_append, List.append_assoc] at hlist
  have hscheme : "spiffe://".toList.count '/' = 2 := by decide
  have hcount : head.toList.count '/' ≤ ("spiffe://".toList ++ trustDomain.toList).count '/' := by
    rw [List.count_append, hscheme]
    omega
  exact kind_eq_of_uri_eq hcount hkind hname hkind' (by simpa using hlist)

theorem nodeURI_eq (trustDomain nodeID : String) :
    nodeURI trustDomain nodeID = "spiffe://" ++ trustDomain ++ "/" ++ "node" ++ "/" ++ nodeID := by
  simp [nodeURI, String.append_assoc]

theorem coordinatorURI_eq (trustDomain serverName : String) :
    coordinatorURI trustDomain serverName = "spiffe://" ++ trustDomain ++ "/" ++ "coordinator" ++
      "/" ++ serverName := by
  simp [coordinatorURI, String.append_assoc]

theorem mem_dropWhile {α : Type} {p : α → Bool} {a : α} {l : List α} (ha : a ∈ l)
    (hp : p a = false) : a ∈ l.dropWhile p := by
  rw [← List.takeWhile_append_dropWhile (p := p) (l := l)] at ha
  rcases List.mem_append.1 ha with ha | ha
  · cases hp.symm.trans (List.mem_takeWhile_imp ha)
  · exact ha

theorem mem_trimSpace {s : String} {c : Char} (hc : c ∈ s.toList) (h : isSpace c = false) :
    c ∈ (trimSpace s).toList := by
  rw [trimSpace, String.toList_ofList, List.rdropWhile, List.mem_reverse]
  exact mem_dropWhile (List.mem_reverse.2 (mem_dropWhile hc h)) h

theorem notMem_of_not_containsAny {s chars : String} {c : Char} (hc : c ∈ chars.toList)
    (hspace : isSpace c = false) (h : ¬ containsAny (trimSpace s) chars = true) : c ∉ s.toList := by
  intro hmem
  refine h (List.any_eq_true.2 ⟨c, mem_trimSpace hmem hspace, ?_⟩)
  simpa using hc

/-- A name that passes the checks has no slash. -/
theorem noSlash_of_identityPart {value label : String}
    (h : validateIdentityPart value label = .ok ()) : '/' ∉ value.toList := by
  simp only [validateIdentityPart] at h
  split_ifs at h with hempty hchars
  exact notMem_of_not_containsAny (by decide) (by decide) hchars

@[inherit_doc noSlash_of_identityPart]
theorem noSlash_of_DNSLikeValue {value label : String}
    (h : validateDNSLikeValue value label = .ok ()) : '/' ∉ value.toList := by
  simp only [validateDNSLikeValue] at h
  split_ifs at h with hempty hchars
  exact notMem_of_not_containsAny (by decide) (by decide) hchars

theorem validateServerCertificate_ok {cert : Certificate}
    {trustDomain serverName expectedRole : String}
    (h : validateServerCertificate cert trustDomain serverName expectedRole = .ok ()) :
    some (coordinatorURI (trustDomainOr trustDomain) serverName) ∈ cert.uris := by
  simp only [validateServerCertificate] at h
  by_cases hname : trimSpace cert.commonName = "" ∨ trimSpace cert.commonName ≠ serverName
  · simp only [if_pos hname, reduceCtorEq] at h
  rcases hhost : cert.verifyHostname serverName with e | ⟨⟨⟩⟩
  · simp only [if_neg hname, hhost, reduceCtorEq] at h
  rcases hrole : certificateRole cert with e | role
  · simp only [if_neg hname, hhost, hrole, reduceCtorEq] at h
  simp only [if_neg hname, hhost, hrole] at h
  split_ifs at h with hexpected huri
  simp only [certificateHasURI, Bool.not_eq_true', Bool.not_eq_false, List.any_eq_true,
    decide_eq_true_eq] at huri
  obtain ⟨_, hmem, rfl⟩ := huri
  exact hmem

theorem ClientTLSOptions.verifyConnection_ok {opts : ClientTLSOptions} {mode : PQCMode}
    {state : ConnectionState} (h : opts.verifyConnection mode state = .ok ()) :
    ∃ cert, state.peerCertificates.head? = some cert ∧
      some (coordinatorURI (trustDomainOr opts.trustDomain) opts.serverName) ∈ cert.uris := by
  rcases hconnection : validatePQCConnection mode state with e | ⟨⟨⟩⟩
  · simp only [verifyConnection, hconnection, reduceCtorEq] at h
  rcases hchains : state.verifiedChains with _ | ⟨chain, chains⟩
  · simp only [verifyConnection, hconnection, hchains, reduceCtorEq] at h
  rcases hcerts : state.peerCertificates with _ | ⟨cert, certs⟩
  · simp only [verifyConnection, hconnection, hchains, hcerts, reduceCtorEq] at h
  rcases hsignature : validatePQCIdentity opts.requirePQCIdentity cert "server" with e | ⟨⟨⟩⟩
  · simp only [verifyConnection, hconnection, hchains, hcerts, hsignature, reduceCtorEq] at h
  rcases hserver : validateServerCertificate cert (trustDomainOr opts.trustDomain) opts.serverName
    (if opts.expectedServerRole = "" then "coordinator" else opts.expectedServerRole) with e | ⟨⟨⟩⟩
  · simp only [verifyConnection, hconnection, hchains, hcerts, hsignature, hserver,
      reduceCtorEq] at h
  have hmem := validateServerCertificate_ok hserver
  rw [trustDomainOr_trustDomainOr] at hmem
  exact ⟨cert, rfl, hmem⟩

section

variable {env : PkiEnv} {cfg : DevelopmentPKIConfig} {pki : DevelopmentPKIArtifacts}

theorem addClients_origin {algorithm : String} {clients : List DevelopmentClient} {index : ℕ}
    {artifacts result : OrdMap String ClientArtifacts}
    (h : addClients env cfg algorithm index artifacts clients = .ok result) {nodeID : String}
    {issued : ClientArtifacts} (hget : result.get? nodeID = some issued) :
    artifacts.get? nodeID = some issued ∨
      ∃ client ∈ clients, ∃ i, clientArtifacts env cfg algorithm i client = .ok issued := by
  induction clients generalizing index artifacts with
  | nil =>
    cases h
    exact .inl hget
  | cons first clients ih =>
    rcases hissued : clientArtifacts env cfg algorithm index first with e | issued' <;>
      simp only [addClients, hissued, reduceCtorEq] at h
    rcases ih h with hinserted | ⟨client, hmem, i, hartifacts⟩
    · by_cases hsame : nodeID = first.nodeID
      · subst hsame
        rw [OrdMap.get?_insert_self, Option.some.injEq] at hinserted
        exact .inr ⟨first, List.mem_cons_self, index, hinserted ▸ hissued⟩
      · exact .inl ((OrdMap.get?_insert_of_ne _ _ hsame).symm.trans hinserted)
    · exact .inr ⟨client, List.mem_cons_of_mem first hmem, i, hartifacts⟩

/-- No client accepts the certificate of another client as the coordinator's, and no server accepts
the coordinator's as a client's: whatever names and roles the certificates have, and whatever the
two ends are configured to expect. The URLs may be written otherwise than they were read, as long as
that leaves the slashes where they are. -/
theorem certificates_not_interchangeable (hpki : generateDevelopmentPKI env cfg = .ok pki)
    (hclient : ∀ client ∈ cfg.withDefaults.clients, '/' ∉ cfg.withDefaults.trustDomain.toList →
      '/' ∉ client.nodeID.toList → ∀ uri,
      env.parseURL (nodeURI cfg.withDefaults.trustDomain client.nodeID) = .ok uri →
        HasKind uri "node")
    (hserver : '/' ∉ cfg.withDefaults.trustDomain.toList →
      '/' ∉ cfg.withDefaults.serverName.toList → ∀ uri,
      env.parseURL (coordinatorURI cfg.withDefaults.trustDomain cfg.withDefaults.serverName) =
        .ok uri →
        HasKind uri "coordinator") :
    (∀ nodeID issued, pki.clients.get? nodeID = some issued →
      ∀ (opts : ClientTLSOptions) mode state,
      state.peerCertificates.head? = some issued.certificate →
        opts.verifyConnection mode state ≠ .ok ()) ∧
    ∀ (opts : ServerTLSOptions) mode state, state.peerCertificates.head? =
      some pki.serverCertificate →
      opts.verifyConnection mode state ≠ .ok () := by
  obtain ⟨uri, hgenerated⟩ := generateDevelopmentPKI_ok hpki
  have hdomain := noSlash_of_DNSLikeValue hgenerated.trustDomain
  constructor
  · intro nodeID issued hget opts mode state hleaf hok
    obtain ⟨cert, hcert, hexpected⟩ := ClientTLSOptions.verifyConnection_ok hok
    obtain rfl : issued.certificate = cert := Option.some.inj (hleaf.symm.trans hcert)
    obtain ⟨client, hmem, i, hartifacts⟩ :=
      (addClients_origin hgenerated.clients hget).resolve_left (by simp)
    obtain ⟨uri', hissued⟩ := clientArtifacts_ok hartifacts
    have hkind := hclient client hmem hdomain
      (noSlash_of_identityPart hissued.nodeID) uri' hissued.parsed
    rw [hissued.certificate, leafCertificate, List.mem_singleton, Option.some.injEq,
      coordinatorURI_eq] at hexpected
    exact absurd (hkind.kind_eq (by decide) (by decide) hexpected.symm) (by decide)
  · intro opts mode state hleaf hok
    obtain ⟨cert, haccepts⟩ := ServerTLSOptions.verifyConnection_ok hok
    obtain rfl : pki.serverCertificate = cert := Option.some.inj (hleaf.symm.trans haccepts.leaf)
    obtain ⟨identity, hstates, -⟩ := haccepts.stated
    have hkind := hserver hdomain
      (noSlash_of_DNSLikeValue hgenerated.serverName) uri hgenerated.parsed
    have hexpected := hstates.uri
    rw [hgenerated.serverCertificate, leafCertificate, List.mem_singleton, Option.some.injEq,
      nodeURI_eq] at hexpected
    exact absurd (hkind.kind_eq (by decide) (by decide) hexpected.symm) (by decide)

end

/-! A worker and an observer are enrolled. -/

def enrolmentClients : List DevelopmentClient :=
  [⟨"edge-01", "edge-worker"⟩, ⟨"monitor", "observer"⟩]

def enrolmentConfig : DevelopmentPKIConfig :=
  ⟨"certs/dev", "", "", "", "", 0, enrolmentClients, "mldsa65"⟩

def enrolmentClaims (client : DevelopmentClient) (index : ℕ) : SignedClaims :=
  tokenClaims "zerotrust-fl-sim" "zerotrust-fl-services" client.nodeID client.role
    (24 * 60 * minute) (unixTime 1700000000 + index * second) "0a"

def enrolmentEnv : PkiEnv where
  jwt :=
    { publicKey := fun _ => List.replicate 32 0
      signedString := fun _ claims => claims.nodeID
      decode := fun _ token => .ok
        (if token = "edge-01" then enrolmentClaims ⟨"edge-01", "edge-worker"⟩ 1
        else enrolmentClaims ⟨"monitor", "observer"⟩ 2) }
  parseURL := .ok
  verifyHostname _ _ := .ok ()
  now index := unixTime 1700000000 + index * second
  jwtPrivate := List.replicate 64 0
  leaf _ := ([1], [2])
  tokenIDs _ := "0a"

/-- The name of the worker is written with an escape. -/
def escapingEnv : PkiEnv :=
  { enrolmentEnv with
    parseURL := fun url =>
      .ok (String.ofList (url.toList.flatMap fun c => if c = 'é' then "%C3%A9".toList else [c])) }

def escapedConfig : DevelopmentPKIConfig :=
  { enrolmentConfig with clients := [⟨"é-01", "edge-worker"⟩, ⟨"monitor", "observer"⟩] }

theorem not_interchangeable_enrolment :
    ((generateDevelopmentPKI escapingEnv escapedConfig).toOption.map fun pki =>
        (pki.serverCertificate.uris, pki.clients.entries.map fun entry =>
          (entry.1, entry.2.certificate.uris))) =
      some ([some "spiffe://zerotrust-fl.local/coordinator/coordinator.local"],
        [("monitor", [some "spiffe://zerotrust-fl.local/node/monitor"]),
          ("é-01", [some "spiffe://zerotrust-fl.local/node/%C3%A9-01"])]) ∧
      ∀ pki, generateDevelopmentPKI escapingEnv escapedConfig = .ok pki →
        (∀ nodeID issued, pki.clients.get? nodeID = some issued →
          ∀ (opts : ClientTLSOptions) mode state,
          state.peerCertificates.head? = some issued.certificate →
            opts.verifyConnection mode state ≠ .ok ()) ∧
        ∀ (opts : ServerTLSOptions) mode state, state.peerCertificates.head? =
          some pki.serverCertificate →
          opts.verifyConnection mode state ≠ .ok () := by
  refine ⟨by decide +kernel, fun _ hpki => certificates_not_interchangeable hpki ?_ ?_⟩
  · intro client hmem _ _ uri huri
    have hcases : client = ⟨"é-01", "edge-worker"⟩ ∨ client = ⟨"monitor", "observer"⟩ := by
      simpa [escapedConfig, DevelopmentPKIConfig.withDefaults] using hmem
    rw [← Except.ok.inj huri]
    rcases hcases with rfl | rfl
    · exact ⟨"spiffe://zerotrust-fl.local", "%C3%A9-01", by decide +kernel⟩
    · exact ⟨"spiffe://zerotrust-fl.local", "monitor", by decide +kernel⟩
  · intro _ _ uri huri
    rw [← Except.ok.inj huri]
    exact ⟨"spiffe://zerotrust-fl.local", "coordinator.local", by decide +kernel⟩

end ZeroTrustFL
