import Mathlib
import ZeroTrustFL.Lib.Sha256
import ZeroTrustFL.Security.Registration

/-!
# Certificates and connections

`pkg/security/tls.go` and `pkg/security/pqc.go`: the identity that a certificate states, and the
checks that both ends make of a TLS connection.  What the TLS library has done before, the key
exchange and the verification of the chain, is in the `ConnectionState` that it hands over.
-/

namespace ZeroTrustFL

/-! ## Certificates -/

def defaultTrustDomain : String := "zerotrust-fl.local"

/-- A public key: the name of its type, and its encoding unless it has none. -/
structure PublicKey where
  typeName : String
  spki : Except String Bytes

/-- What is read of a certificate.  A URI can be missing; `verifyHostname` is the check of the DNS
names. -/
structure Certificate where
  commonName : String
  organizationalUnits : List String
  uris : List (Option String)
  raw : Bytes
  publicKey : PublicKey
  verifyHostname : String → Except String Unit

/-- The loop of `certificateRole`: the role so far, empty before the first one. -/
def findRole (role : String) : List String → Except String String
  | [] => if role = "" then .error "certificate role OU is required" else .ok role
  | unit :: units =>
    if ¬ "role:".toList.isPrefixOf unit.toList then findRole role units
    else
      let candidate := trimSpace (.ofList (unit.toList.drop "role:".toList.length))
      if candidate = "" then .error "certificate contains an empty role OU"
      else if role ≠ "" ∧ role ≠ candidate then .error "certificate contains multiple role OUs"
      else findRole candidate units

def certificateRole (cert : Certificate) : Except String String :=
  findRole "" cert.organizationalUnits

def certificateHasURI (cert : Certificate) (expected : String) : Bool :=
  cert.uris.any (· = some expected)

def trustDomainOr (trustDomain : String) : String :=
  if trustDomain = "" then defaultTrustDomain else trustDomain

/-- The URI of a node. -/
def nodeURI (trustDomain nodeID : String) : String :=
  "spiffe://" ++ trustDomain ++ "/node/" ++ nodeID

/-- The URI of a coordinator. -/
def coordinatorURI (trustDomain serverName : String) : String :=
  "spiffe://" ++ trustDomain ++ "/coordinator/" ++ serverName

def buildPeerIdentity (cert : Certificate) (nodeID role : String) : PeerIdentity where
  nodeID := nodeID
  commonName := cert.commonName
  role := role
  certificateFingerprint := hexEncode (sha256 cert.raw)

def clientIdentityFromCertificate (cert : Certificate) (trustDomain : String) :
    Except String PeerIdentity :=
  let commonName := trimSpace cert.commonName
  if commonName = "" then .error "client certificate common name is required"
  else
    match certificateRole cert with
    | .error e => .error e
    | .ok role =>
      let expectedURI := nodeURI (trustDomainOr trustDomain) commonName
      if !certificateHasURI cert expectedURI then
        .error ("client certificate URI SAN must contain " ++ quote expectedURI)
      else .ok (buildPeerIdentity cert commonName role)

def validateServerCertificate (cert : Certificate) (trustDomain serverName expectedRole : String) :
    Except String Unit :=
  let commonName := trimSpace cert.commonName
  if commonName = "" ∨ commonName ≠ serverName then
    .error ("server certificate common name " ++ quote commonName ++ " does not match expected " ++
      quote serverName)
  else
    match cert.verifyHostname serverName with
    | .error e => .error ("server certificate SAN validation failed: " ++ e)
    | .ok () =>
      match certificateRole cert with
      | .error e => .error e
      | .ok role =>
        if role ≠ expectedRole then
          .error ("server certificate role " ++ quote role ++ " does not match expected " ++
            quote expectedRole)
        else
          let expectedURI := coordinatorURI (trustDomainOr trustDomain) serverName
          if !certificateHasURI cert expectedURI then
            .error ("server certificate URI SAN must contain " ++ quote expectedURI)
          else .ok ()

/-! ## Pins -/

def base64Char (n : ℕ) : Char :=
  "ABCDEFGHIJKLMNOPQRSTUVWXYZabcdefghijklmnopqrstuvwxyz0123456789+/".toList.getD n 'A'

/-- `base64.StdEncoding`. -/
def base64Chars : Bytes → List Char
  | a :: b :: c :: rest =>
    let n := a.toNat * 65536 + b.toNat * 256 + c.toNat
    base64Char (n / 262144) :: base64Char (n / 4096 % 64) :: base64Char (n / 64 % 64) :: base64Char
      (n % 64) :: base64Chars rest
  | [a, b] =>
    let n := a.toNat * 1024 + b.toNat * 4
    [base64Char (n / 4096), base64Char (n / 64 % 64), base64Char (n % 64), '=']
  | [a] => [base64Char (a.toNat / 4), base64Char (a.toNat % 4 * 16), '=', '=']
  | [] => []

def spkiPin (cert : Certificate) : Except String String :=
  match cert.publicKey.spki with
  | .error e => .error ("marshal subject public key info: " ++ e)
  | .ok spki => .ok ("sha256/" ++ .ofList (base64Chars (sha256 spki)))

def verifySPKIPin (cert : Certificate) (allowedPins : List String) : Except String Unit :=
  if allowedPins.length = 0 then .ok ()
  else
    match spkiPin cert with
    | .error e => .error e
    | .ok actual =>
      if allowedPins.any (trimSpace · = actual) then .ok ()
      else .error ("certificate SPKI pin " ++ quote actual ++ " is not trusted")

/-! ## Post-quantum policy -/

/-- Which key-exchange groups are accepted. -/
inductive PQCMode where
  | off
  | preferred
  | required
deriving DecidableEq

def parsePQCMode (value : String) : Except String PQCMode :=
  let normalized := toLower (trimSpace value)
  if normalized = "" then .ok .preferred
  else if normalized = "off" then .ok .off
  else if normalized = "prefer" then .ok .preferred
  else if normalized = "require" then .ok .required
  else .error ("unsupported PQC mode " ++ quote value ++ "; expected off, prefer, or require")

/-- The key-exchange groups. -/
inductive CurveID where
  | curveP256
  | curveP384
  | curveP521
  | x25519
  | x25519MLKEM768
  | secP256r1MLKEM768
  | secP384r1MLKEM1024
  | mlkem1024
deriving DecidableEq

/-- `CurveID.String`. -/
def CurveID.name : CurveID → String
  | .curveP256 => "CurveP256"
  | .curveP384 => "CurveP384"
  | .curveP521 => "CurveP521"
  | .x25519 => "X25519"
  | .x25519MLKEM768 => "X25519MLKEM768"
  | .secP256r1MLKEM768 => "SecP256r1MLKEM768"
  | .secP384r1MLKEM1024 => "SecP384r1MLKEM1024"
  | .mlkem1024 => "MLKEM1024"

def pqcCurvePreferences : PQCMode → List CurveID
  | .off => [.x25519, .curveP256, .curveP384]
  | .preferred => [.x25519MLKEM768, .secP256r1MLKEM768, .secP384r1MLKEM1024, .x25519, .curveP256,
      .curveP384]
  | .required => [.x25519MLKEM768, .secP256r1MLKEM768, .secP384r1MLKEM1024]

def isPostQuantumKeyExchange : CurveID → Bool
  | .x25519MLKEM768 => true
  | .secP256r1MLKEM768 => true
  | .secP384r1MLKEM1024 => true
  | .mlkem1024 => true
  | _ => false

/-- What the TLS library hands over once a handshake is done. -/
structure ConnectionState where
  curveID : CurveID
  verifiedChains : List (List Certificate)
  peerCertificates : List Certificate

def validatePQCConnection (mode : PQCMode) (state : ConnectionState) : Except String Unit :=
  if mode ≠ .required then .ok ()
  else if !isPostQuantumKeyExchange state.curveID then
    .error ("post-quantum TLS is required but negotiated key exchange " ++ state.curveID.name ++
      " is classical-only")
  else .ok ()

def isMLDSACertificate (cert : Certificate) : Bool := cert.publicKey.typeName = "*mldsa.PublicKey"

def validatePQCIdentity (required : Bool) (cert : Certificate) (peerLabel : String) :
    Except String Unit :=
  if !required then .ok ()
  else if !isMLDSACertificate cert then
    .error ("post-quantum " ++ peerLabel ++
      " identity is required but certificate public key is " ++ cert.publicKey.typeName)
  else .ok ()

/-! ## Connections -/

def stringAllowed (value : String) (allowed : List String) : Bool := allowed.any (value = ·)

/-- The options of the server that its checks use. -/
structure ServerTLSOptions where
  trustDomain : String
  allowedClientRoles : List String
  clientSPKIPins : List String
  pqcMode : String
  requirePQCIdentity : Bool

/-- The options of a client that its checks use. -/
structure ClientTLSOptions where
  serverName : String
  trustDomain : String
  expectedServerRole : String
  serverSPKIPins : List String
  pqcMode : String
  requirePQCIdentity : Bool

/-- The part of a TLS configuration that is not constant. -/
structure TLSConfig where
  curvePreferences : List CurveID
  verifyConnection : ConnectionState → Except String Unit

def ServerTLSOptions.roles (opts : ServerTLSOptions) : List String :=
  if opts.allowedClientRoles.length = 0 then ["edge-worker", "observer", "admin"]
  else opts.allowedClientRoles

/-- The server's check of a connection. -/
def ServerTLSOptions.verifyConnection (opts : ServerTLSOptions) (pqcMode : PQCMode)
    (state : ConnectionState) : Except String Unit :=
  match validatePQCConnection pqcMode state with
  | .error e => .error e
  | .ok () =>
    match state.verifiedChains, state.peerCertificates with
    | _ :: _, cert :: _ =>
      match validatePQCIdentity opts.requirePQCIdentity cert "client" with
      | .error e => .error e
      | .ok () =>
        match clientIdentityFromCertificate cert (trustDomainOr opts.trustDomain) with
        | .error e => .error e
        | .ok identity =>
          if !stringAllowed identity.role opts.roles then
            .error ("client certificate role " ++ quote identity.role ++ " is not allowed")
          else
            match verifySPKIPin cert opts.clientSPKIPins with
            | .error e => .error ("verify client certificate pin: " ++ e)
            | .ok () => .ok ()
    | _, _ => .error "client certificate was not verified"

/-- The client's check of a connection. -/
def ClientTLSOptions.verifyConnection (opts : ClientTLSOptions) (pqcMode : PQCMode)
    (state : ConnectionState) : Except String Unit :=
  match validatePQCConnection pqcMode state with
  | .error e => .error e
  | .ok () =>
    match state.verifiedChains, state.peerCertificates with
    | _ :: _, cert :: _ =>
      match validatePQCIdentity opts.requirePQCIdentity cert "server" with
      | .error e => .error e
      | .ok () =>
        match validateServerCertificate cert (trustDomainOr opts.trustDomain) opts.serverName
          (if opts.expectedServerRole = "" then "coordinator" else opts.expectedServerRole) with
        | .error e => .error e
        | .ok () =>
          match verifySPKIPin cert opts.serverSPKIPins with
          | .error e => .error ("verify server certificate pin: " ++ e)
          | .ok () => .ok ()
    | _, _ => .error "server certificate was not verified"

/-- The configuration of a server whose own certificate is `leaf`. -/
def serverTLSConfig (opts : ServerTLSOptions) (leaf : Certificate) : Except String TLSConfig :=
  match parsePQCMode opts.pqcMode with
  | .error e => .error e
  | .ok pqcMode =>
    match validatePQCIdentity opts.requirePQCIdentity leaf "server" with
    | .error e => .error e
    | .ok () => .ok ⟨pqcCurvePreferences pqcMode, opts.verifyConnection pqcMode⟩

/-- The configuration of a client whose own certificate is `leaf`. -/
def clientTLSConfig (opts : ClientTLSOptions) (leaf : Certificate) : Except String TLSConfig :=
  if trimSpace opts.serverName = "" then .error "TLS server name is required"
  else
    match parsePQCMode opts.pqcMode with
    | .error e => .error e
    | .ok pqcMode =>
      match validatePQCIdentity opts.requirePQCIdentity leaf "client" with
      | .error e => .error e
      | .ok () => .ok ⟨pqcCurvePreferences pqcMode, opts.verifyConnection pqcMode⟩

end ZeroTrustFL
