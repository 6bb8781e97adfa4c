import Mathlib
import ZeroTrustFL.Recovery.Manifest

/-!
# Backup and restore

`bundle.go` and `postgres_tools.go` of `pkg/recovery`, with the recovery snapshots of
`pkg/coordinator`: a backup writes the tables, the audit chain and the model artifact of one
database snapshot into a bundle, a restore checks a bundle and writes it to an empty database and an
empty artifact namespace.  `pg_dump` and `pg_restore` copy the three tables; what the tools, the
connections and the object store report otherwise is part of the environment.
-/

namespace ZeroTrustFL

/-! ## Databases -/

/-- A PostgreSQL database: the version of its server (a number or not), the relations and functions
of its public schema, and the coordinator's tables where they exist. -/
structure PostgresServer where
  version : String
  versionNum : Option ℤ
  relations : ℕ
  functions : ℕ
  content : Option DatabaseContent

structure RecoveryAuditHead where
  sequence : ℤ
  eventHash : String
deriving DecidableEq

structure RecoveryMetadata where
  postgreSQLVersion : String
  postgreSQLVersionNum : ℤ
  stateSchemaVersion : ℕ
  experiment : ExperimentMetadata
  modelVersion : String
  roundID : UInt64
  artifact : Option ModelArtifactRef
  migrations : List RecoveryMigration
  auditHead : RecoveryAuditHead
deriving DecidableEq

/-- The artifact reference of a row in a recovery snapshot. -/
def readArtifactReference (row : StateRow) : Except String (Option ModelArtifactRef) :=
  if row.artifactBucket.isNone ∧ row.artifactKey.isNone ∧ row.artifactSHA256.isNone ∧
      row.artifactSize.isNone then
    .ok none
  else
    match row.artifactBucket, row.artifactKey, row.artifactSHA256, row.artifactSize with
    | some bucket, some key, some sha256, some sizeBytes =>
      if sha256.length ≠ 32 ∨ sizeBytes ≤ 0 then
        .error "coordinator recovery metadata contains an incomplete model artifact reference"
      else if row.state.model.weightsPayload.length ≠ 0 then
        .error "artifact-backed recovery model unexpectedly contains inline weights"
      else if row.state.model.sha256 ≠ sha256 then
        .error "recovery model digest does not match the artifact reference"
      else .ok (some ⟨bucket, key, sha256, sizeBytes⟩)
    | _, _, _, _ =>
      .error "coordinator recovery metadata contains an incomplete model artifact reference"

/-- The head of the audit chain in a recovery snapshot. -/
def readAuditHead (audit : AuditTable) : Except String RecoveryAuditHead :=
  match audit.rows.getLast? with
  | none => .ok ⟨0, ""⟩
  | some row =>
    if row.eventHash.length ≠ 32 then .error "recovery audit head has an invalid hash length"
    else .ok ⟨row.sequence, hexEncode row.eventHash⟩

def readRecoveryMetadata (server : PostgresServer) : Except String RecoveryMetadata :=
  match server.versionNum with
  | none => .error "parse PostgreSQL server_version_num"
  | some versionNum =>
    if versionNum ≤ 0 then .error "parse PostgreSQL server_version_num"
    else
      match server.content with
      | none => .error "read coordinator recovery metadata: relation does not exist"
      | some content =>
        match content.state with
        | none => .error "coordinator state not found"
        | some row =>
          if row.schemaVersion ≠ coordinatorStateSchemaVersion then
            .error s!"unsupported coordinator state schema version {row.schemaVersion}"
          else if row.state.model = emptyGlobalModel then
            .error "coordinator recovery metadata is missing the global model envelope"
          else
            match validateExperimentMetadata row.state.policy.experiment with
            | .error e => .error ("validate recovery experiment metadata: " ++ e)
            | .ok () =>
              if row.state.model.modelVersion = "" then
                .error "coordinator recovery model version is empty"
              else
                match readArtifactReference row with
                | .error e => .error e
                | .ok artifact =>
                  if content.migrations.length = 0 then .error "recovery migration ledger is empty"
                  else
                    match readAuditHead content.audit with
                    | .error e => .error e
                    | .ok auditHead =>
                      .ok {
                        postgreSQLVersion := server.version
                        postgreSQLVersionNum := versionNum
                        stateSchemaVersion := row.schemaVersion
                        experiment := row.state.policy.experiment
                        modelVersion := row.state.model.modelVersion
                        roundID := row.state.model.roundID
                        artifact := artifact
                        migrations := content.migrations
                        auditHead := auditHead }

/-- `ReadAuditEvents` of a recovery snapshot. -/
def readSnapshotAuditEvents (json : AuditHashEnvelope → Bytes) (head : RecoveryAuditHead)
    (audit : AuditTable) : Except String (List AuditRecord) :=
  if head.sequence = 0 then .ok []
  else if maxAuditExportRows < head.sequence then
    .error
      (s!"recovery audit chain contains {head.sequence} rows; " ++
        s!"maximum supported bundle export is {maxAuditExportRows}")
  else
    match (audit.rows.filter fun row => row.sequence ≤ head.sequence).mapM scanAuditRecord with
    | .error e => .error ("scan recovery audit chain: " ++ e)
    | .ok records =>
      if (records.length : ℤ) ≠ head.sequence then
        .error s!"recovery audit chain contains {records.length} records, want {head.sequence}"
      else
        match verifyAuditRecords json records [] 0 with
        | .error e => .error ("verify recovery audit chain: " ++ e)
        | .ok () =>
          if records.getLast?.map AuditRecord.eventHash ≠ some head.eventHash then
            .error "recovery audit chain head does not match snapshot metadata"
          else .ok records

/-- The migrations of this version of the coordinator. -/
def embeddedMigrations : List RecoveryMigration :=
  [⟨1, "001_coordinator_state.sql"⟩, ⟨2, "002_model_artifact_reference.sql"⟩,
    ⟨3, "003_audit_events.sql"⟩]

/-- The loop over two ledgers of the same length, from the index of their first migrations. -/
def compareLedgers (mismatch : ℕ → RecoveryMigration → RecoveryMigration → String) (index : ℕ) :
    List RecoveryMigration → List RecoveryMigration → Except String Unit
  | actual :: actuals, expected :: expecteds =>
    if actual.version ≠ expected.version ∨ actual.name ≠ expected.name then
      .error (mismatch index actual expected)
    else compareLedgers mismatch (index + 1) actuals expecteds
  | _, _ => .ok ()

def validateRecoveryMigrationLedger (migrations : List RecoveryMigration) : Except String Unit :=
  if migrations.length ≠ embeddedMigrations.length then
    .error (s!"recovery migration count {migrations.length} does not match binary count " ++
      s!"{embeddedMigrations.length}")
  else
    compareLedgers (fun index actual expected =>
      s!"recovery migration {index} mismatch: database={actual.version}/" ++ quote actual.name ++
        s!" binary={expected.version}/" ++ quote expected.name) 0 migrations embeddedMigrations

/-! ## Tools -/

/-- A URL as it was parsed. -/
structure PostgresURL where
  scheme : String
  host : String
  path : String
deriving DecidableEq

/-- A data source name, and what `url.Parse` makes of it. -/
structure PostgresDSN where
  text : String
  url : Option PostgresURL
deriving DecidableEq

def commandPostgresDSN (dsn : PostgresDSN) : Except String Unit :=
  match dsn.url with
  | none => .error "parse PostgreSQL DSN for recovery command"
  | some url =>
    if url.scheme ≠ "postgres" ∧ url.scheme ≠ "postgresql" then
      .error "recovery tooling requires a postgres:// or postgresql:// DSN"
    else if url.host = "" ∨ url.path = "" then
      .error "recovery PostgreSQL DSN requires host and database"
    else .ok ()

/-- The value of a list of decimal digits. -/
def parseDigits (chars : List Char) : Option ℕ :=
  if chars ≠ [] ∧ chars.all Char.isDigit then some (Nat.ofDigitChars 10 chars 0) else none

/-- `strconv.Atoi` of any text. -/
def atoiText (chars : List Char) : Option ℤ :=
  let value : Option ℤ :=
    match chars with
    | '-' :: digits => (parseDigits digits).map fun n => -(n : ℤ)
    | '+' :: digits => (parseDigits digits).map fun n => (n : ℤ)
    | digits => (parseDigits digits).map fun n => (n : ℤ)
  value.filter fun n => -2 ^ 63 ≤ n ∧ n < 2 ^ 63

/-- The last of the fields of a text, between white space. -/
def lastField (text : String) : List Char :=
  ((text.toList.reverse.dropWhile isSpace).takeWhile fun c => !isSpace c).reverse

/-- The major version in the output of `--version`, which is `none` when the tool does not run. -/
def postgresToolVersion (label : String) (output : Option String) : Except String ℤ :=
  match output with
  | none => .error ("read " ++ label ++ " version")
  | some version =>
    if lastField version = [] then .error (label ++ " returned an empty version")
    else
      match atoiText ((lastField version).takeWhile fun c => c ≠ '.') with
      | none => .error ("parse " ++ label ++ " version " ++ quote (trimSpace version))
      | some major =>
        if major ≤ 0 then .error ("parse " ++ label ++ " version " ++ quote (trimSpace version))
        else .ok major

def postgresMajorFromVersionNum (versionNum : ℤ) : Except String ℤ :=
  if versionNum ≤ 0 then .error "PostgreSQL server version number is invalid"
  else if versionNum / 10000 ≤ 0 then .error s!"parse PostgreSQL server version number {versionNum}"
  else .ok (versionNum / 10000)

def requireCompatiblePostgresTool (toolMajor serverVersionNum : ℤ) (label : String) :
    Except String Unit :=
  match postgresMajorFromVersionNum serverVersionNum with
  | .error e => .error e
  | .ok serverMajor =>
    if toolMajor < serverMajor then
      .error
        (label ++ s!" major version {toolMajor} is older than PostgreSQL server major version " ++
        s!"{serverMajor}")
    else .ok ()

/-- The checks of both tool wrappers before the tool itself runs. -/
def prepareTool (label : String) (output : Option String) (serverVersionNum : ℤ)
    (dsn : PostgresDSN) : Except String Unit :=
  match postgresToolVersion label output with
  | .error e => .error e
  | .ok major =>
    match requireCompatiblePostgresTool major serverVersionNum label with
    | .error e => .error e
    | .ok () => commandPostgresDSN dsn

def runPgDump (output : Option String) (dsn : PostgresDSN) (snapshotID : String)
    (failure : Option String) (serverVersionNum : ℤ) : Except String Unit :=
  if trimSpace snapshotID = "" ∨
      (snapshotID.toList.any fun c => c.toNat ∈ [0x20, 0x09, 0x0d, 0x0a, 0x00]) then
    .error "PostgreSQL recovery snapshot identifier is invalid"
  else
    match prepareTool "pg_dump" output serverVersionNum dsn with
    | .error e => .error e
    | .ok () =>
      match failure with
      | some e => .error ("pg_dump recovery snapshot failed: " ++ e)
      | none => .ok ()

/-! ## Backup -/

structure BackupConfig where
  dsn : PostgresDSN
  artifacts : Option ArtifactStore
  /-- The output directory after `filepath.Clean`. -/
  output : String
  now : ℤ

/-- What a backup meets: whether the output exists, failures of the connection, of reads from the
object store, of `pg_dump` and of writing the bundle, the snapshot identifier and the version of
`pg_dump`. -/
structure BackupEnv where
  outputExists : Bool
  connection : Option String
  read : Option String
  snapshotID : String
  pgDumpVersion : Option String
  pgDump : Option String
  files : Option String

section

variable (json : AuditHashEnvelope → Bytes) (encode : BundleContent → Bytes)

/-- The temporary directory of a backup. -/
def emptyBundle : Bundle := ⟨true, ∅⟩

/-- The artifact part of a backup: the bundle with the payload, and its entry in the manifest. -/
def backupArtifact (cfg : BackupConfig) (env : BackupEnv) (bundle : Bundle) :
    Option ModelArtifactRef → Except String (Bundle × Option ArtifactManifest)
  | none => .ok (bundle, none)
  | some ref =>
    match cfg.artifacts with
    | none => .error "recovery backup requires the configured model artifact store"
    | some artifacts =>
      match (artifacts.get env.read ref).1 with
      | .error e => .error ("read recovery model artifact: " ++ e)
      | .ok payload =>
        let digestHex := hexEncode ref.sha256
        let bundle := ((bundle.makeDirectory "artifacts").makeDirectory "artifacts/sha256").write
          (artifactFilePath digestHex) (.raw payload)
        match bundle.digestFile encode (artifactFilePath digestHex) with
        | .error e => .error e
        | .ok file =>
          if file.sha256 ≠ digestHex ∨ file.sizeBytes ≠ ref.sizeBytes then
            .error "recovery model artifact digest/size changed while building bundle"
          else
            .ok (bundle, some {
              bucket := ref.bucket
              key := ref.key
              sha256 := digestHex
              sizeBytes := ref.sizeBytes
              file := file })

/-- The manifest of a backup. -/
def backupManifest (now : ℤ) (metadata : RecoveryMetadata) (artifact : Option ArtifactManifest)
    (dump audit : FileManifest) : Manifest where
  schemaVersion := bundleSchemaVersion
  createdAt := truncateMicrosecond now
  database := {
    postgreSQLVersion := metadata.postgreSQLVersion
    postgreSQLVersionNum := metadata.postgreSQLVersionNum
    stateSchemaVersion := metadata.stateSchemaVersion
    experiment := metadata.experiment
    modelVersion := metadata.modelVersion
    roundID := metadata.roundID
    migrations := metadata.migrations
    dump := dump }
  artifact := artifact
  audit := ⟨metadata.auditHead.sequence, metadata.auditHead.eventHash, audit⟩

/-- The files of a backup once the database snapshot has been read. -/
def writeBackup (cfg : BackupConfig) (env : BackupEnv) (content : DatabaseContent)
    (metadata : RecoveryMetadata) (auditRecords : List AuditRecord) : Except String Bundle :=
  let bundle := emptyBundle.write auditExportPath (.audit auditRecords)
  match backupArtifact encode cfg env bundle metadata.artifact with
  | .error e => .error e
  | .ok (bundle, artifact) =>
    match runPgDump env.pgDumpVersion cfg.dsn env.snapshotID env.pgDump
        metadata.postgreSQLVersionNum with
    | .error e => .error e
    | .ok () =>
      let bundle := bundle.write postgresDumpPath (.dump content)
      match bundle.digestFile encode postgresDumpPath with
      | .error e => .error e
      | .ok dump =>
        match bundle.digestFile encode auditExportPath with
        | .error e => .error e
        | .ok audit =>
          match bundle.writeManifest encode
              (backupManifest cfg.now metadata artifact dump audit) with
          | .error e => .error e
          | .ok bundle =>
            match env.files with
            | some e => .error e
            | none => .ok bundle

/-- The bundle that a backup publishes. -/
def backup (cfg : BackupConfig) (env : BackupEnv) (server : PostgresServer) :
    Except String Bundle :=
  if trimSpace cfg.dsn.text = "" then .error "PostgreSQL DSN is required for recovery backup"
  else if cfg.output = "." then .error "recovery backup output directory is required"
  else if env.outputExists then .error ("recovery backup output already exists: " ++ cfg.output)
  else
    match env.connection with
    | some e => .error ("open PostgreSQL state for recovery backup: " ++ e)
    | none =>
      match readRecoveryMetadata server, server.content with
      | .error e, _ => .error e
      | .ok _, none => .error "read coordinator recovery metadata: relation does not exist"
      | .ok metadata, some content =>
        match validateRecoveryMigrationLedger metadata.migrations with
        | .error e => .error ("validate recovery source migration ledger: " ++ e)
        | .ok () =>
          match readSnapshotAuditEvents json metadata.auditHead content.audit with
          | .error e => .error e
          | .ok auditRecords => writeBackup encode cfg env content metadata auditRecords

end

/-! ## Restore -/

structure RestoreConfig where
  dsn : PostgresDSN
  artifacts : Option ArtifactStore
  /-- The input directory after `filepath.Clean`. -/
  input : String
  allowDestructive : Bool

/-- What becomes of the `pg_restore` process: it may not start, and it may fail and leave the
database in any state. -/
inductive PgRestoreOutcome where
  | success
  | notStarted (message : String)
  | failure (message : String) (left : PostgresServer)

/-- What a restore meets: failures of the connection, of the listing of the namespace, of the
requests of `Put` and of the final reads, the version of `pg_restore` and what becomes of it. -/
structure RestoreEnv where
  connection : Option String
  listing : Option String
  put : S3Faults
  pgRestoreVersion : Option String
  pgRestore : PgRestoreOutcome
  reopen : Option String
  read : Option String

structure RestoreResult where
  modelVersion : String
  roundID : UInt64
  auditHead : RecoveryAuditHead
deriving DecidableEq

/-- The two targets of a restore, and whether `pg_restore` was started on the first. -/
structure RestoreState where
  server : PostgresServer
  artifacts : Option ArtifactStore
  started : Bool

section

variable (json : AuditHashEnvelope → Bytes) (encode : BundleContent → Bytes)

/-- The records of the audit export. -/
def decodeAuditFile (content : BundleContent) : Except String (List AuditRecord) :=
  match content with
  | .audit records => decodeAuditNDJSON json records
  | _ => .error "decode audit NDJSON record 1"

/-- The checks of a restore on the bundle alone. -/
def verifyBundle (bundle : Bundle) : Except String Manifest :=
  match bundle.loadManifest encode with
  | .error e => .error e
  | .ok manifest =>
    match validateRecoveryMigrationLedger manifest.database.migrations with
    | .error e => .error ("validate recovery manifest migration ledger: " ++ e)
    | .ok () =>
      match bundle.verifyFile encode manifest.database.dump with
      | .error e => .error e
      | .ok () =>
        match bundle.verifyFile encode manifest.audit.file with
        | .error e => .error e
        | .ok () =>
          match bundle.safeBundleFile manifest.audit.file.path with
          | .error e => .error e
          | .ok content =>
            match decodeAuditFile json content with
            | .error e => .error e
            | .ok records =>
              if (records.length : ℤ) ≠ manifest.audit.headSequence then
                .error
                  (s!"recovery audit export contains {records.length} records, " ++
                    s!"manifest declares {manifest.audit.headSequence}")
              else if 0 < records.length ∧
                  records.getLast?.map AuditRecord.eventHash ≠ some manifest.audit.headHash then
                .error "recovery audit export head hash disagrees with manifest"
              else .ok manifest

def ensureCleanPostgresTarget (connection : Option String) (server : PostgresServer)
    (sourceVersionNum : ℤ) : Except String Unit :=
  match connection with
  | some e => .error ("connect clean recovery target: " ++ e)
  | none =>
    match server.versionNum with
    | none => .error "parse recovery target PostgreSQL version"
    | some targetVersionNum =>
      match postgresMajorFromVersionNum targetVersionNum,
          postgresMajorFromVersionNum sourceVersionNum with
      | .error e, _ => .error e
      | .ok _, .error e => .error e
      | .ok targetMajor, .ok sourceMajor =>
        if targetMajor < sourceMajor then
          .error
            (s!"recovery target PostgreSQL major version {targetMajor} is older than " ++
              s!"backup source major version {sourceMajor}")
        else if server.relations ≠ 0 ∨ server.functions ≠ 0 then
          .error
            (s!"recovery target database is not clean: public schema contains " ++
              s!"{server.relations} relations and {server.functions} functions")
        else .ok ()

/-- `RecoveryNamespaceEmpty`: no object stands below the prefix. -/
def ArtifactStore.namespaceEmpty (store : ArtifactStore) : Bool :=
  store.objects.entries.all fun entry =>
    !(store.keyPrefix ++ "/").toList.isPrefixOf entry.1.toList

def ensureCleanArtifactTarget (listing : Option String) (store : ArtifactStore) :
    Except String Unit :=
  match listing with
  | some e => .error ("list recovery S3 namespace: " ++ e)
  | none =>
    if store.namespaceEmpty then .ok () else .error "recovery S3 target namespace is not clean"

def artifactRefMatchesManifest (ref : ModelArtifactRef) (manifest : ArtifactManifest) : Bool :=
  match hexDecode manifest.sha256.toList with
  | none => false
  | some digest =>
    ref.bucket = manifest.bucket ∧ ref.key = manifest.key ∧ ref.sizeBytes = manifest.sizeBytes ∧
      ref.sha256 = digest

/-- The payload of the artifact, read from the bundle after the checks on the artifact target. -/
def readArtifactPayload (listing : Option String) (store : ArtifactStore) (bundle : Bundle)
    (artifact : ArtifactManifest) : Except String Bytes :=
  match ensureCleanArtifactTarget listing store with
  | .error e => .error e
  | .ok () =>
    match bundle.verifyFile encode artifact.file with
    | .error e => .error e
    | .ok () =>
      match bundle.safeBundleFile artifact.file.path with
      | .error e => .error e
      | .ok content =>
        if artifact.sizeBytes < (content.bytes encode).length then
          .error "read recovery model artifact: file exceeds size limit"
        else .ok (content.bytes encode)

/-- The artifact part of a restore, with the artifact store it leaves. -/
def restoreArtifact (cfg : RestoreConfig) (env : RestoreEnv) (bundle : Bundle) :
    Option ArtifactManifest → Except String Unit × Option ArtifactStore
  | none => (.ok (), cfg.artifacts)
  | some artifact =>
    match cfg.artifacts with
    | none => (.error "recovery restore requires the configured model artifact store", none)
    | some store =>
      match readArtifactPayload encode env.listing store bundle artifact with
      | .error e => (.error e, some store)
      | .ok payload =>
        match store.put env.put payload with
        | (.error e, store) => (.error ("restore model artifact: " ++ e), some store)
        | (.ok ref, store) =>
          if !artifactRefMatchesManifest ref artifact then
            (.error ("restored model artifact reference does not match recovery manifest; " ++
              "bucket/prefix configuration differs"), some store)
          else (.ok (), some store)

/-- `pg_restore` of a dump, with the database it leaves and whether the process was started. -/
def runPgRestore (cfg : RestoreConfig) (env : RestoreEnv) (server : PostgresServer)
    (content : BundleContent) (sourceVersionNum : ℤ) : Except String Unit × PostgresServer × Bool :=
  match prepareTool "pg_restore" env.pgRestoreVersion sourceVersionNum cfg.dsn with
  | .error e => (.error e, server, false)
  | .ok () =>
    match env.pgRestore, content with
    | .notStarted e, _ => (.error ("pg_restore recovery bundle failed: " ++ e), server, false)
    | .failure e left, _ => (.error ("pg_restore recovery bundle failed: " ++ e), left, true)
    | .success, .dump content =>
      (.ok (), { server with relations := 3, content := some content }, true)
    | .success, _ =>
      (.error "pg_restore recovery bundle failed: input file does not appear to be a valid archive",
        server, true)

def compareRecoveryMetadata (manifest : Manifest) (metadata : RecoveryMetadata) :
    Except String Unit :=
  if metadata.stateSchemaVersion ≠ manifest.database.stateSchemaVersion ∨
      metadata.modelVersion ≠ manifest.database.modelVersion ∨
      metadata.roundID ≠ manifest.database.roundID then
    .error "restored coordinator recovery metadata disagrees with manifest"
  else if metadata.experiment ≠ manifest.database.experiment then
    .error "restored coordinator experiment recovery metadata disagrees with manifest"
  else if metadata.migrations.length ≠ manifest.database.migrations.length then
    .error "restored PostgreSQL migration ledger length disagrees with manifest"
  else
    match compareLedgers (fun index _ _ =>
        s!"restored PostgreSQL migration {index} disagrees with manifest")
        0 metadata.migrations manifest.database.migrations with
    | .error e => .error e
    | .ok () =>
      if metadata.auditHead.sequence ≠ manifest.audit.headSequence ∨
          metadata.auditHead.eventHash ≠ manifest.audit.headHash then
        .error "restored PostgreSQL audit head disagrees with manifest"
      else
        match manifest.artifact, metadata.artifact with
        | none, none => .ok ()
        | none, some _ => .error "restored coordinator unexpectedly references a model artifact"
        | some _, none => .error "restored coordinator artifact reference disagrees with manifest"
        | some artifact, some ref =>
          if artifactRefMatchesManifest ref artifact then .ok ()
          else .error "restored coordinator artifact reference disagrees with manifest"

/-- The state store over a database. -/
def PostgresServer.store (server : PostgresServer) (artifacts : Option ArtifactStore) :
    PostgresStateStore :=
  match server.content with
  | none => ⟨none, .empty, artifacts⟩
  | some content => ⟨content.state, content.audit, artifacts⟩

/-- The comparisons of a restore with what it has restored. -/
def verifyRestored (env : RestoreEnv) (manifest : Manifest) (server : PostgresServer)
    (artifacts : Option ArtifactStore) : Except String RestoreResult :=
  match env.reopen with
  | some e => .error ("open restored coordinator state: " ++ e)
  | none =>
    match ((server.store artifacts).load env.read).1 with
    | .error (.error e) => .error ("validate restored coordinator state: " ++ e)
    | .error (.crash e) => .error e
    | .ok none => .error "validate restored coordinator state: coordinator state not found"
    | .ok (some state) =>
      if state.policy.experiment ≠ manifest.database.experiment then
        .error "restored coordinator experiment metadata disagrees with recovery manifest"
      else if state.model.modelVersion ≠ manifest.database.modelVersion ∨
          state.model.roundID ≠ manifest.database.roundID then
        .error "restored coordinator model version/round disagrees with recovery manifest"
      else
        match readRecoveryMetadata server with
        | .error e => .error ("verify restored recovery metadata: " ++ e)
        | .ok metadata =>
          match validateRecoveryMigrationLedger metadata.migrations with
          | .error e => .error ("validate restored migration ledger: " ++ e)
          | .ok () =>
            match readSnapshotAuditEvents json metadata.auditHead
                (server.store artifacts).audit with
            | .error e => .error e
            | .ok restoredAudit =>
              match compareRecoveryMetadata manifest metadata with
              | .error e => .error e
              | .ok () =>
                if (restoredAudit.length : ℤ) ≠ manifest.audit.headSequence then
                  .error "restored PostgreSQL audit chain length disagrees with recovery manifest"
                else if 0 < restoredAudit.length ∧
                    restoredAudit.getLast?.map AuditRecord.eventHash ≠
                    some manifest.audit.headHash then
                  .error "restored PostgreSQL audit chain head disagrees with recovery manifest"
                else
                  .ok {
                    modelVersion := state.model.modelVersion
                    roundID := state.model.roundID
                    auditHead := metadata.auditHead }

def restore (cfg : RestoreConfig) (env : RestoreEnv) (bundle : Bundle) (server : PostgresServer) :
    Except String RestoreResult × RestoreState :=
  let untouched : RestoreState := ⟨server, cfg.artifacts, false⟩
  if !cfg.allowDestructive then
    (.error "recovery restore requires explicit destructive-operation approval", untouched)
  else if trimSpace cfg.dsn.text = "" then
    (.error "PostgreSQL DSN is required for recovery restore", untouched)
  else if cfg.input = "." then (.error "recovery restore input directory is required", untouched)
  else
    match verifyBundle json encode bundle with
    | .error e => (.error e, untouched)
    | .ok manifest =>
      match ensureCleanPostgresTarget env.connection server
          manifest.database.postgreSQLVersionNum with
      | .error e => (.error e, untouched)
      | .ok () =>
        match restoreArtifact encode cfg env bundle manifest.artifact with
        | (.error e, artifacts) => (.error e, ⟨server, artifacts, false⟩)
        | (.ok (), artifacts) =>
          match bundle.safeBundleFile manifest.database.dump.path with
          | .error e => (.error e, ⟨server, artifacts, false⟩)
          | .ok content =>
            match runPgRestore cfg env server content manifest.database.postgreSQLVersionNum with
            | (.error e, server, started) => (.error e, ⟨server, artifacts, started⟩)
            | (.ok (), server, started) =>
              (verifyRestored json env manifest server artifacts, ⟨server, artifacts, started⟩)

end

end ZeroTrustFL
