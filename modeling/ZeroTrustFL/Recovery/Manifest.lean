import Mathlib
import ZeroTrustFL.Coordinator.StateStore

/-!
# Recovery bundles

The manifest of a recovery bundle and the files beside it: `manifest.go` of `pkg/recovery`.
Encodings are lossless, so a file holds the value that it encodes; its bytes matter only for sizes
and digests.
-/

namespace ZeroTrustFL

def bundleSchemaVersion : ℤ := 2
def manifestFileName : String := "manifest.json"
def manifestChecksum : String := "manifest.sha256"
def postgresDumpPath : String := "postgres.dump"
def auditExportPath : String := "audit.ndjson"
def maxManifestBytes : ℕ := 2 ^ 20

structure RecoveryMigration where
  version : ℤ
  name : String
deriving DecidableEq

structure FileManifest where
  path : String
  sha256 : String
  sizeBytes : ℤ
deriving DecidableEq

structure DatabaseManifest where
  postgreSQLVersion : String
  postgreSQLVersionNum : ℤ
  stateSchemaVersion : ℕ
  experiment : ExperimentMetadata
  modelVersion : String
  roundID : UInt64
  migrations : List RecoveryMigration
  dump : FileManifest
deriving DecidableEq

structure ArtifactManifest where
  bucket : String
  key : String
  sha256 : String
  sizeBytes : ℤ
  file : FileManifest
deriving DecidableEq

structure AuditManifest where
  headSequence : ℤ
  headHash : String
  file : FileManifest
deriving DecidableEq

structure Manifest where
  schemaVersion : ℤ
  createdAt : ℤ
  database : DatabaseManifest
  artifact : Option ArtifactManifest
  audit : AuditManifest
deriving DecidableEq

/-! ## Checks -/

def validateSHA256Hex (value : String) : Except String Unit :=
  if value = "" ∨ value ≠ toLower value then .error "SHA-256 digest must be lowercase hexadecimal"
  else if (hexDecode value.toList).map List.length ≠ some 32 then
    .error "SHA-256 digest must encode exactly 32 bytes"
  else .ok ()

/-- The parts of a path between its slashes. -/
def pathParts : List Char → List (List Char)
  | [] => [[]]
  | c :: chars =>
    if c = '/' then [] :: pathParts chars
    else
      match pathParts chars with
      | [] => [[c]]
      | part :: parts => (c :: part) :: parts

/-- A relative path is canonical for `filepath.Clean` and stays below its root when no part is
empty, a dot or two dots. -/
def validateRelativePath (value : String) : Except String Unit :=
  if value = "" ∨ value.toList.head? = some '/' ∨ '\\' ∈ value.toList then
    .error "recovery bundle path must be a canonical relative forward-slash path"
  else if (pathParts value.toList).any fun part => part ∈ [[], ['.'], ['.', '.']] then
    .error "recovery bundle path is not canonical"
  else .ok ()

def validateFileManifest (file : FileManifest) (expectedPath : String) (allowEmpty : Bool) :
    Except String Unit :=
  if file.path ≠ expectedPath then
    .error ("path " ++ quote file.path ++ " does not match required path " ++ quote expectedPath)
  else
    match validateRelativePath file.path with
    | .error e => .error e
    | .ok () =>
      match validateSHA256Hex file.sha256 with
      | .error e => .error e
      | .ok () =>
        if file.sizeBytes < 0 ∨ !allowEmpty ∧ file.sizeBytes = 0 then
          .error "recovery file has an invalid size"
        else .ok ()

def validateExperimentManifest (experiment : ExperimentMetadata) : Except String Unit :=
  if experiment.id = "" ∨ experiment.id ≠ trimSpace experiment.id ∨
      256 < experiment.id.utf8ByteSize ∨ hasControlCharacters experiment.id then
    .error "recovery experiment id is invalid"
  else
    match validateSHA256Hex experiment.configSHA256 with
    | .error e => .error ("config SHA-256: " ++ e)
    | .ok () =>
      if isZeroTime experiment.createdAt ∨
          experiment.createdAt ≠ truncateMicrosecond experiment.createdAt then
        .error "recovery experiment created_at must use UTC microsecond precision"
      else .ok ()

/-- The loop over the migrations, from the version of the one before. -/
def validateMigrations (previousVersion : ℤ) : List RecoveryMigration → Except String Unit
  | [] => .ok ()
  | migration :: migrations =>
    if migration.version ≤ previousVersion then
      .error "recovery bundle migrations must be strictly increasing"
    else if trimSpace migration.name = "" ∨ 256 < migration.name.utf8ByteSize ∨
        (migration.name.toList.any fun c => c = '/' ∨ c = '\\') ∨
        hasControlCharacters migration.name then
      .error s!"recovery bundle migration {migration.version} has an invalid name"
    else validateMigrations migration.version migrations

/-- Where the file of an artifact stands in a bundle. -/
def artifactFilePath (sha256Hex : String) : String := "artifacts/sha256/" ++ sha256Hex ++ ".npy"

def validateArtifactManifest (artifact : ArtifactManifest) : Except String Unit :=
  if trimSpace artifact.bucket = "" ∨ trimSpace artifact.key = "" then
    .error "recovery artifact bucket and key are required"
  else if hasControlCharacters (artifact.bucket ++ artifact.key) then
    .error "recovery artifact reference contains control characters"
  else
    match validateSHA256Hex artifact.sha256 with
    | .error e => .error ("validate recovery artifact digest: " ++ e)
    | .ok () =>
      if artifact.sizeBytes ≤ 0 then .error "recovery artifact size must be positive"
      else
        match validateFileManifest artifact.file (artifactFilePath artifact.sha256) false with
        | .error e => .error ("validate recovery artifact file: " ++ e)
        | .ok () =>
          if artifact.file.sha256 ≠ artifact.sha256 ∨
              artifact.file.sizeBytes ≠ artifact.sizeBytes then
            .error "recovery artifact file digest/size disagrees with artifact reference"
          else .ok ()

def Manifest.validate (m : Manifest) : Except String Unit :=
  if m.schemaVersion ≠ bundleSchemaVersion then
    .error s!"unsupported recovery bundle schema version {m.schemaVersion}"
  else if isZeroTime m.createdAt ∨ m.createdAt ≠ truncateMicrosecond m.createdAt then
    .error "recovery bundle created_at must use UTC microsecond precision"
  else if trimSpace m.database.postgreSQLVersion = "" ∨ m.database.postgreSQLVersionNum ≤ 0 then
    .error "recovery bundle PostgreSQL version metadata is incomplete"
  else if m.database.stateSchemaVersion ≤ 0 ∨ trimSpace m.database.modelVersion = "" then
    .error "recovery bundle coordinator state metadata is incomplete"
  else
    match validateExperimentManifest m.database.experiment with
    | .error e => .error ("validate recovery experiment metadata: " ++ e)
    | .ok () =>
      if m.database.migrations.length = 0 then .error "recovery bundle migration ledger is empty"
      else
        match validateMigrations 0 m.database.migrations with
        | .error e => .error e
        | .ok () =>
          match validateFileManifest m.database.dump postgresDumpPath false with
          | .error e => .error ("validate PostgreSQL dump manifest: " ++ e)
          | .ok () =>
            match validateFileManifest m.audit.file auditExportPath true with
            | .error e => .error ("validate audit export manifest: " ++ e)
            | .ok () =>
              if m.audit.headSequence < 0 then
                .error "recovery audit head sequence must not be negative"
              else if m.audit.headSequence = 0 ∧ m.audit.headHash ≠ "" then
                .error "empty recovery audit chain must not have a head hash"
              else
                match if m.audit.headSequence = 0 then .ok ()
                  else validateSHA256Hex m.audit.headHash with
                | .error e => .error ("validate recovery audit head hash: " ++ e)
                | .ok () =>
                  match m.artifact with
                  | none => .ok ()
                  | some artifact => validateArtifactManifest artifact

/-! ## Files -/

/-- The three tables of the coordinator. -/
structure DatabaseContent where
  state : Option StateRow
  audit : AuditTable
  migrations : List RecoveryMigration

/-- What a file of a bundle encodes. -/
inductive BundleContent where
  | manifest (manifest : Manifest)
  | dump (content : DatabaseContent)
  | audit (records : List AuditRecord)
  | raw (data : Bytes)

inductive BundleNode where
  | directory
  | symlink
  | irregular
  | regular (content : BundleContent)

/-- The directory of a bundle: whether its root is a real directory, and what stands under its
relative paths. -/
structure Bundle where
  realRoot : Bool
  nodes : OrdMap String BundleNode

/-- The bytes of a file, for an encoding of its content. -/
def BundleContent.bytes (encode : BundleContent → Bytes) : BundleContent → Bytes
  | .raw data => data
  | content => encode content

namespace Bundle

/-- The walk of `safeBundleFile` along the parts of a path. -/
def walk (bundle : Bundle) (relativePath : String) (current : List Char) :
    List (List Char) → Except String BundleContent
  | [] => .error "recovery bundle path is empty"
  | part :: rest =>
    let current := if current = [] then part else current ++ '/' :: part
    match bundle.nodes.get? (.ofList current) with
    | none => .error ("lstat " ++ .ofList current ++ ": no such file or directory")
    | some .symlink =>
      .error ("recovery bundle path " ++ quote relativePath ++ " contains a symbolic link")
    | some (.regular content) =>
      if rest = [] then .ok content
      else .error ("recovery bundle parent for " ++ quote relativePath ++ " is not a directory")
    | some .directory =>
      if rest = [] then
        .error ("recovery bundle path " ++ quote relativePath ++
          " must be a regular non-symlink file")
      else bundle.walk relativePath current rest
    | some .irregular =>
      if rest = [] then
        .error ("recovery bundle path " ++ quote relativePath ++
          " must be a regular non-symlink file")
      else .error ("recovery bundle parent for " ++ quote relativePath ++ " is not a directory")

/-- `safeBundleFile` and the content of the file it leads to. -/
def safeBundleFile (bundle : Bundle) (relativePath : String) : Except String BundleContent :=
  match validateRelativePath relativePath with
  | .error e => .error e
  | .ok () =>
    if !bundle.realRoot then .error "recovery bundle root must be a real directory"
    else bundle.walk relativePath [] (pathParts relativePath.toList)

variable (encode : BundleContent → Bytes)

def digestFile (bundle : Bundle) (relativePath : String) : Except String FileManifest :=
  match bundle.safeBundleFile relativePath with
  | .error e => .error e
  | .ok content =>
    .ok {
      path := relativePath
      sha256 := hexEncode (sha256 (content.bytes encode))
      sizeBytes := (content.bytes encode).length }

def verifyFile (bundle : Bundle) (expected : FileManifest) : Except String Unit :=
  match bundle.digestFile encode expected.path with
  | .error e => .error e
  | .ok actual =>
    if actual.sizeBytes ≠ expected.sizeBytes ∨ actual.sha256 ≠ expected.sha256 then
      .error ("recovery bundle file " ++ quote expected.path ++ " digest/size mismatch")
    else .ok ()

/-- The checksum file of a manifest with given bytes. -/
def checksumText (data : Bytes) : String :=
  hexEncode (sha256 data) ++ "  " ++ manifestFileName ++ "\n"

/-- The bundle with one more file. -/
def write (bundle : Bundle) (path : String) (content : BundleContent) : Bundle :=
  { bundle with nodes := bundle.nodes.insert path (.regular content) }

def makeDirectory (bundle : Bundle) (path : String) : Bundle :=
  { bundle with nodes := bundle.nodes.insert path .directory }

def writeManifest (bundle : Bundle) (manifest : Manifest) : Except String Bundle :=
  match manifest.validate with
  | .error e => .error e
  | .ok () =>
    let data := encode (.manifest manifest)
    if maxManifestBytes < data.length then .error "recovery bundle manifest exceeds size limit"
    else
      .ok ((bundle.write manifestFileName (.manifest manifest)).write manifestChecksum
        (.raw (stringBytes (checksumText data))))

def loadManifest (bundle : Bundle) : Except String Manifest :=
  match bundle.safeBundleFile manifestFileName with
  | .error e => .error e
  | .ok content =>
    match bundle.safeBundleFile manifestChecksum with
    | .error e => .error e
    | .ok checksum =>
      if maxManifestBytes < (content.bytes encode).length then
        .error "read recovery bundle manifest: file exceeds size limit"
      else if 256 < (checksum.bytes encode).length then
        .error "read recovery bundle manifest checksum: file exceeds size limit"
      else if checksum.bytes encode ≠ stringBytes (checksumText (content.bytes encode)) then
        .error "recovery bundle manifest checksum mismatch"
      else
        match content with
        | .manifest manifest =>
          match manifest.validate with
          | .error e => .error ("validate recovery bundle manifest: " ++ e)
          | .ok () => .ok manifest
        | _ => .error "decode recovery bundle manifest"

end Bundle

end ZeroTrustFL
