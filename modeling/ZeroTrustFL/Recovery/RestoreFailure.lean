import Mathlib
import ZeroTrustFL.Recovery.RoundTrip

/-!
# What a failed restore leaves behind

A restore writes the model artifact first and only then compares its reference with the manifest,
looks at the version of `pg_restore` and at the DSN, and starts the process.  A failure in between
leaves the object in the namespace.  `ReachesPut` lists the checks before the first write,
`StartsProcess` those after it.
-/

namespace ZeroTrustFL

section

variable {json : AuditHashEnvelope → Bytes} {encode : BundleContent → Bytes} {cfg : RestoreConfig}
  {env : RestoreEnv} {bundle : Bundle} {server : PostgresServer} {manifest : Manifest}
  {artifact : ArtifactManifest} {store : ArtifactStore} {payload : Bytes}

/-- The checks before the first write pass, with the payload that is then written. -/
structure ReachesPut (json : AuditHashEnvelope → Bytes) (encode : BundleContent → Bytes)
    (cfg : RestoreConfig) (env : RestoreEnv) (bundle : Bundle) (server : PostgresServer)
    (manifest : Manifest) (artifact : ArtifactManifest) (store : ArtifactStore) (payload : Bytes) :
    Prop where
  approved : cfg.allowDestructive = true
  dsn : trimSpace cfg.dsn.text ≠ ""
  input : cfg.input ≠ "."
  verified : verifyBundle json encode bundle = .ok manifest
  target : ensureCleanPostgresTarget env.connection server manifest.database.postgreSQLVersionNum =
    .ok ()
  described : manifest.artifact = some artifact
  configured : cfg.artifacts = some store
  payload : readArtifactPayload encode env.listing store bundle artifact = .ok payload

/-- What has to hold for `pg_restore` to be started once the upload was sent: the object store
answers, its bucket and prefix are those of the backup, and the tool, the DSN and the system let the
process start. -/
structure StartsProcess (cfg : RestoreConfig) (env : RestoreEnv) (manifest : Manifest)
    (artifact : ArtifactManifest) (store : ArtifactStore) : Prop where
  uploaded : env.put.upload = .stored
  read : env.put.read = none
  bucket : store.bucket = artifact.bucket
  key : store.keyPrefix ++ "/sha256/" ++ artifact.sha256 ++ ".npy" = artifact.key
  tool : prepareTool "pg_restore" env.pgRestoreVersion manifest.database.postgreSQLVersionNum
    cfg.dsn = .ok ()
  process : ∀ message, env.pgRestore ≠ .notStarted message

/-! ## The checks on the bundle -/

theorem verifyFile_ok {file : FileManifest} (h : bundle.verifyFile encode file = .ok ()) :
    ∃ content, bundle.HasFile encode file content := by
  unfold Bundle.verifyFile Bundle.digestFile at h
  split at h
  · cases h
  rename_i actual hactual
  split at hactual
  · cases hactual
  rename_i content hread
  cases hactual
  split at h
  · cases h
  rename_i hsame
  rw [not_or, not_not, not_not] at hsame
  exact ⟨content, hread, hsame.2.symm, hsame.1.symm⟩

theorem readArtifactPayload_ok {listing : Option String}
    (h : readArtifactPayload encode listing store bundle artifact = .ok payload) :
    store.namespaceEmpty = true ∧ artifact.file.sha256 = hexEncode (sha256 payload) ∧
      artifact.file.sizeBytes = payload.length := by
  unfold readArtifactPayload ensureCleanArtifactTarget at h
  split at h
  · cases h
  rename_i hclean
  split at h
  · cases h
  rename_i hfile
  obtain ⟨content, hread, hdigest, hsize⟩ := verifyFile_ok hfile
  rw [hread] at h
  simp only at h
  split at h
  · cases h
  cases h
  refine ⟨?_, hdigest, hsize⟩
  split at hclean
  · cases hclean
  · split at hclean
    · rename_i hempty
      exact hempty
    · cases hclean

theorem validateArtifactManifest_ok (h : validateArtifactManifest artifact = .ok ()) :
    0 < artifact.sizeBytes ∧ artifact.file.sha256 = artifact.sha256 ∧
      artifact.file.sizeBytes = artifact.sizeBytes := by
  unfold validateArtifactManifest at h
  split at h
  · cases h
  split at h
  · cases h
  split at h
  · cases h
  split at h
  · cases h
  rename_i hpos
  split at h
  · cases h
  split at h
  · cases h
  rename_i hsame
  rw [not_or, not_not, not_not] at hsame
  exact ⟨not_le.1 hpos, hsame⟩

theorem validate_artifact (h : manifest.validate = .ok ())
    (hartifact : manifest.artifact = some artifact) :
    validateArtifactManifest artifact = .ok () := by
  rcases hchecked : validateArtifactManifest artifact with e | ⟨⟨⟩⟩
  · -- Whichever checks pass before that of the artifact, the manifest is rejected.
    simp only [Manifest.validate, hartifact, hchecked] at h
    repeat' split at h
    all_goals cases h
  · rfl

theorem loadManifest_validate (h : bundle.loadManifest encode = .ok manifest) :
    manifest.validate = .ok () := by
  unfold Bundle.loadManifest at h
  split at h
  · cases h
  split at h
  · cases h
  split at h
  · cases h
  split at h
  · cases h
  split at h
  · cases h
  split at h
  · split at h
    · cases h
    · rename_i hvalid
      cases h
      exact hvalid
  · cases h

theorem verifyBundle_inv (h : verifyBundle json encode bundle = .ok manifest) :
    manifest.validate = .ok () ∧ ∃ content, bundle.safeBundleFile manifest.database.dump.path =
      .ok content := by
  unfold verifyBundle at h
  split at h
  · cases h
  rename_i loaded hload
  split at h
  · cases h
  split at h
  · cases h
  rename_i hdump
  obtain ⟨content, hfile⟩ := verifyFile_ok hdump
  split at h
  · cases h
  split at h
  · cases h
  split at h
  · cases h
  split at h
  · cases h
  split at h
  · cases h
  cases h
  exact ⟨loadManifest_validate hload, content, hfile.read⟩

/-! ## The two outcomes -/

/-- A restore that does not get to the write leaves the artifact store alone. -/
theorem artifacts_restore (h : ∀ manifest artifact store payload,
      ¬ ReachesPut json encode cfg env bundle server manifest artifact store payload) :
    (restore json encode cfg env bundle server).2.artifacts = cfg.artifacts := by
  unfold restore
  simp only
  by_cases happroved : cfg.allowDestructive = true
  swap
  · rw [if_pos (by simpa using happroved)]
  rw [if_neg (by simpa using happroved)]
  by_cases hdsn : trimSpace cfg.dsn.text = ""
  · rw [if_pos hdsn]
  rw [if_neg hdsn]
  by_cases hinput : cfg.input = "."
  · rw [if_pos hinput]
  rw [if_neg hinput]
  rcases hverified : verifyBundle json encode bundle with e | manifest
  · rfl
  simp only
  rcases htarget : ensureCleanPostgresTarget env.connection server
    manifest.database.postgreSQLVersionNum with e | ⟨⟨⟩⟩
  · rfl
  simp only
  have hkept : (restoreArtifact encode cfg env bundle manifest.artifact).2 = cfg.artifacts := by
    rcases hartifact : manifest.artifact with _ | artifact
    · rfl
    rw [restoreArtifact]
    rcases hconfigured : cfg.artifacts with _ | store
    · rfl
    simp only
    rcases hpayload : readArtifactPayload encode env.listing store bundle artifact with e | payload
    · rfl
    · exact absurd ⟨happroved, hdsn, hinput, hverified, htarget, hartifact, hconfigured, hpayload⟩
        (h manifest artifact store payload)
  rcases hrestored : restoreArtifact encode cfg env bundle manifest.artifact with ⟨e | ⟨⟨⟩⟩, after⟩
  · rw [hrestored] at hkept
    exact hkept
  · rw [hrestored] at hkept
    simp only
    split
    · exact hkept
    · split
      · exact hkept
      · exact hkept

/-- Once the payload is in hand, `Put` decides with the checks after it. -/
theorem restore_of_reachesPut
    (h : ReachesPut json encode cfg env bundle server manifest artifact store payload) :
    ∃ content, restore json encode cfg env bundle server =
      match store.put env.put payload with
      | (.error e, store') =>
        (.error ("restore model artifact: " ++ e), ⟨server, some store', false⟩)
      | (.ok ref, store') =>
        if !artifactRefMatchesManifest ref artifact then
          (.error ("restored model artifact reference does not match recovery manifest; " ++
            "bucket/prefix configuration differs"), ⟨server, some store', false⟩)
        else
          match runPgRestore cfg env server content manifest.database.postgreSQLVersionNum with
          | (.error e, server', started) => (.error e, ⟨server', some store', started⟩)
          | (.ok (), server', started) =>
            (verifyRestored json env manifest server' (some store'),
              ⟨server', some store', started⟩) := by
  obtain ⟨-, content, hdump⟩ := verifyBundle_inv h.verified
  refine ⟨content, ?_⟩
  unfold restore
  simp only [h.approved, Bool.not_true, Bool.false_eq_true, if_false, if_neg h.dsn, if_neg h.input,
    h.verified, h.target, h.described, restoreArtifact, h.configured, h.payload]
  rcases store.put env.put payload with ⟨e | ref, store'⟩
  · rfl
  · simp only
    by_cases hmatch : artifactRefMatchesManifest ref artifact = true
    · rcases hrun : runPgRestore cfg env server content manifest.database.postgreSQLVersionNum with
        ⟨e | ⟨⟨⟩⟩, server', started⟩ <;>
        simp only [hmatch, Bool.not_true, Bool.false_eq_true, if_false, hdump, hrun]
    · simp only [hmatch, Bool.not_false, if_true]

/-- The size and the digest of the reference agree with the manifest anyway. -/
theorem artifactRefMatchesManifest_iff
    (h : ReachesPut json encode cfg env bundle server manifest artifact store payload) :
    artifactRefMatchesManifest (store.referenceForDigest (sha256 payload) payload.length) artifact =
      true ↔
      store.bucket = artifact.bucket ∧
        store.keyPrefix ++ "/sha256/" ++ artifact.sha256 ++ ".npy" = artifact.key := by
  obtain ⟨hvalid, -⟩ := verifyBundle_inv h.verified
  obtain ⟨-, hdigest, hsize⟩ := validateArtifactManifest_ok (validate_artifact hvalid h.described)
  obtain ⟨-, hdigest', hsize'⟩ := readArtifactPayload_ok h.payload
  have hsha : artifact.sha256 = hexEncode (sha256 payload) := hdigest.symm.trans hdigest'
  have hlength : (payload.length : ℤ) = artifact.sizeBytes := hsize'.symm.trans hsize
  unfold artifactRefMatchesManifest ArtifactStore.referenceForDigest artifactKey
  rw [hsha,
    show (hexEncode (sha256 payload)).toList = hexChars (sha256 payload) from String.toList_ofList,
    hexDecode_hexChars]
  simp [hlength]

theorem started_runPgRestore (content : BundleContent) (sourceVersionNum : ℤ) :
    (runPgRestore cfg env server content sourceVersionNum).2.2 = true ↔
      prepareTool "pg_restore" env.pgRestoreVersion sourceVersionNum cfg.dsn = .ok () ∧
        ∀ message, env.pgRestore ≠ .notStarted message := by
  unfold runPgRestore
  rcases prepareTool "pg_restore" env.pgRestoreVersion sourceVersionNum cfg.dsn with e | ⟨⟨⟩⟩
  · simp
  · rcases env.pgRestore with _ | message | ⟨message, left⟩
    · rcases content with _ | _ | _ | _ <;> simp
    · simp
    · simp

theorem runPgRestore_error {content : BundleContent} {sourceVersionNum : ℤ}
    (h : (runPgRestore cfg env server content sourceVersionNum).2.2 = false) :
    ∃ e, (runPgRestore cfg env server content sourceVersionNum).1 = .error e := by
  unfold runPgRestore at h ⊢
  rcases hprepared : prepareTool "pg_restore" env.pgRestoreVersion sourceVersionNum cfg.dsn with
    e | ⟨⟨⟩⟩
  · exact ⟨e, rfl⟩
  · rw [hprepared] at h
    rcases hprocess : env.pgRestore with _ | message | ⟨message, left⟩
    · rw [hprocess] at h
      rcases content with _ | _ | _ | _ <;> cases h
    · exact ⟨_, rfl⟩
    · rw [hprocess] at h
      cases h

/-- The reference matches and the process is started exactly when the checks after the write
pass. -/
theorem startsProcess_iff
    (h : ReachesPut json encode cfg env bundle server manifest artifact store payload)
    (content : BundleContent) :
    StartsProcess cfg env manifest artifact store ↔
      (env.put.upload = .stored ∧ env.put.read = none) ∧
        artifactRefMatchesManifest (store.referenceForDigest (sha256 payload) payload.length)
        artifact = true ∧
        (runPgRestore cfg env server content manifest.database.postgreSQLVersionNum).2.2 =
          true := by
  rw [artifactRefMatchesManifest_iff h, started_runPgRestore]
  constructor
  · rintro ⟨hupload, hread, hbucket, hkey, htool, hprocess⟩
    exact ⟨⟨hupload, hread⟩, ⟨hbucket, hkey⟩, htool, hprocess⟩
  · rintro ⟨⟨hupload, hread⟩, ⟨hbucket, hkey⟩, htool, hprocess⟩
    exact ⟨hupload, hread, hbucket, hkey, htool, hprocess⟩

theorem pos_length_payload
    (h : ReachesPut json encode cfg env bundle server manifest artifact store payload) :
    0 < payload.length := by
  obtain ⟨hvalid, -⟩ := verifyBundle_inv h.verified
  obtain ⟨hpositive, -, hsize⟩ := validateArtifactManifest_ok (validate_artifact hvalid h.described)
  obtain ⟨-, -, hsize'⟩ := readArtifactPayload_ok h.payload
  omega

theorem artifacts_of_not_writes
    (h : ReachesPut json encode cfg env bundle server manifest artifact store payload)
    (hwrites : ¬ ArtifactStore.Writes env.put payload) :
    (restore json encode cfg env bundle server).2.artifacts = some store := by
  obtain ⟨content, hrestore⟩ := restore_of_reachesPut h
  rcases ArtifactStore.put_cases (readArtifactPayload_ok h.payload).1
    (pos_length_payload h) env.put with
    ⟨-, e, hput⟩ | ⟨hnot, -⟩
  · rw [hrestore, hput]
  · exact absurd hnot hwrites

/-- A restore that writes the payload fails without having started the process exactly when one of
the checks after the write fails. -/
theorem restore_of_writes
    (h : ReachesPut json encode cfg env bundle server manifest artifact store payload)
    (hwrites : ArtifactStore.Writes env.put payload) :
    ∃ store', store'.objects = (store.upload payload).objects ∧
      (restore json encode cfg env bundle server).2.artifacts = some store' ∧
      ((restore json encode cfg env bundle server).2.started = true ↔
        StartsProcess cfg env manifest artifact store) ∧
      ((restore json encode cfg env bundle server).2.started = false →
        ∃ e, (restore json encode cfg env bundle server).1 = .error e) := by
  obtain ⟨content, hrestore⟩ := restore_of_reachesPut h
  rw [hrestore, startsProcess_iff h content]
  rcases ArtifactStore.put_cases (readArtifactPayload_ok h.payload).1
    (pos_length_payload h) env.put with
    ⟨hnot, -⟩ | ⟨-, store', hobjects, hcases⟩
  · exact absurd hwrites hnot
  refine ⟨store', hobjects, ?_⟩
  rcases hcases with ⟨hupload, hread, hput⟩ | ⟨hfailed, e, hput⟩
  · simp only [hput]
    by_cases hmatch :
        artifactRefMatchesManifest (store.referenceForDigest (sha256 payload) payload.length)
          artifact = true
    · have herror := @runPgRestore_error cfg env server content
        manifest.database.postgreSQLVersionNum
      simp only [hmatch, Bool.not_true, Bool.false_eq_true, if_false, hupload, hread, true_and]
      rcases hprocess : runPgRestore cfg env server content
        manifest.database.postgreSQLVersionNum with
        ⟨e | ⟨⟨⟩⟩, server', started⟩
      · exact ⟨rfl, Iff.rfl, fun _ => ⟨e, rfl⟩⟩
      · rw [hprocess] at herror
        refine ⟨rfl, Iff.rfl, fun hstarted => ?_⟩
        obtain ⟨e, he⟩ := herror hstarted
        cases he
    · simp [hmatch]
  · simp [hput, hfailed]

end

/-- A restore that fails before it has started `pg_restore` leaves the objects of the artifact store
as they were exactly when, whenever it gets to write the payload, every later check up to the start
passes. -/
theorem restore_keeps_objects_iff (json : AuditHashEnvelope → Bytes)
    (encode : BundleContent → Bytes) (cfg : RestoreConfig) (env : RestoreEnv) (bundle : Bundle)
    (server : PostgresServer) :
    (∀ e st, restore json encode cfg env bundle server = (.error e, st) → st.started = false →
      st.artifacts.map ArtifactStore.objects = cfg.artifacts.map ArtifactStore.objects) ↔
    ∀ manifest artifact store payload,
      ReachesPut json encode cfg env bundle server manifest artifact store payload →
      ArtifactStore.Writes env.put payload → StartsProcess cfg env manifest artifact store := by
  constructor
  · intro hkept manifest artifact store payload h hwrites
    obtain ⟨store', hobjects, hartifacts, hstarted, herror⟩ := restore_of_writes h hwrites
    by_contra hnot
    have hidle : (restore json encode cfg env bundle server).2.started = false := by
      rw [← Bool.not_eq_true, hstarted]
      exact hnot
    obtain ⟨e, he⟩ := herror hidle
    have hsame := hkept e _ (Prod.ext he rfl) hidle
    rw [hartifacts, h.configured, Option.map_some, Option.map_some, Option.some.injEq,
      hobjects] at hsame
    have hget := store.get?_upload payload
    rw [hsame, ArtifactStore.get?_of_namespaceEmpty (readArtifactPayload_ok h.payload).1] at hget
    cases hget
  · intro hstarts e st hrestore hidle
    by_cases hreaches : ∀ manifest artifact store payload,
        ¬ ReachesPut json encode cfg env bundle server manifest artifact store payload
    · have hartifacts := artifacts_restore hreaches
      rw [hrestore] at hartifacts
      rw [show st.artifacts = cfg.artifacts from hartifacts]
    · push Not at hreaches
      obtain ⟨manifest, artifact, store, payload, h⟩ := hreaches
      by_cases hwrites : ArtifactStore.Writes env.put payload
      · obtain ⟨-, -, -, hstarted, -⟩ := restore_of_writes h hwrites
        have hprocess := hstarted.2 (hstarts manifest artifact store payload h hwrites)
        rw [hrestore, hidle] at hprocess
        cases hprocess
      · have hartifacts := artifacts_of_not_writes h hwrites
        rw [hrestore] at hartifacts
        rw [show st.artifacts = some store from hartifacts, h.configured]

/-! ## An old version of the tool -/

def sampleArtifact : ArtifactManifest where
  bucket := "models"
  key := artifactKey "experiment" (sha256 [1])
  sha256 := hexEncode (sha256 [1])
  sizeBytes := 1
  file := ⟨artifactFilePath (hexEncode (sha256 [1])), hexEncode (sha256 [1]), 1⟩

def sampleManifest : Manifest where
  schemaVersion := bundleSchemaVersion
  createdAt := unixTime 1700000010
  database := {
    postgreSQLVersion := "16.1"
    postgreSQLVersionNum := 160001
    stateSchemaVersion := coordinatorStateSchemaVersion
    experiment := sampleCoordinator.experiment
    modelVersion := "round-1"
    roundID := 1
    migrations := embeddedMigrations
    dump := ⟨postgresDumpPath, hexEncode (sha256 [2]), 1⟩ }
  artifact := some sampleArtifact
  audit := ⟨0, "", ⟨auditExportPath, hexEncode (sha256 [3]), 1⟩⟩

/-- A bundle with an artifact of one byte and an empty audit chain. -/
def sampleBundle : Bundle :=
  let files :=
    (((((emptyBundle.write auditExportPath (.audit [])).makeDirectory "artifacts").makeDirectory
    "artifacts/sha256").write sampleArtifact.file.path (.raw [1])).write postgresDumpPath
      (.dump ⟨none, .empty, embeddedMigrations⟩))
  (files.writeManifest sampleEncode sampleManifest).toOption.getD files

/-- `pg_restore` is older than the server of the backup: the restore is refused, the process is not
started, but the artifact has been written, and a second restore with a recent `pg_restore` is
refused for it. -/
theorem restore_leaves_artifact :
    let refused := restore auditJSON sampleEncode sampleRestoreConfig
      { sampleRestoreEnv with pgRestoreVersion := some "pg_restore (PostgreSQL) 15.4" } sampleBundle
      sampleTarget
    refused.1 = .error
        "pg_restore major version 15 is older than PostgreSQL server major version 16" ∧
      refused.2.started = false ∧
      sampleRestoreConfig.artifacts.map (fun store => store.objects.entries) = some [] ∧
      refused.2.artifacts.map (fun store => store.objects.entries) =
        some [(sampleArtifact.key, [1])] ∧
      (restore auditJSON sampleEncode { sampleRestoreConfig with artifacts := refused.2.artifacts }
        sampleRestoreEnv sampleBundle sampleTarget).1 =
          .error "recovery S3 target namespace is not clean" := by
  decide +kernel

end ZeroTrustFL
