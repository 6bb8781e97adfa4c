import Mathlib
import ZeroTrustFL.Recovery.BundleProof
import ZeroTrustFL.Coordinator.Construction

/-!
# Restoring a complete bundle

Each check of a restore passes on a complete bundle, in the order in which they are made.  The
restored database holds the snapshot that the source holds, so it loads the same state.
-/

namespace ZeroTrustFL

/-! ## The artifact namespace -/

namespace ArtifactStore

theorem get?_of_namespaceEmpty {store : ArtifactStore} (h : store.namespaceEmpty = true)
    (digest : Bytes) : store.objects.get? (artifactKey store.keyPrefix digest) = none := by
  rcases hget : store.objects.get? (artifactKey store.keyPrefix digest) with _ | data
  · rfl
  have hentry := List.all_eq_true.1 h _ ((store.objects.get?_eq_some_iff).1 hget)
  have hpath (a b c d : String) (hb : "/".toList <+: b.toList) :
      (a ++ "/").toList <+: (a ++ b ++ c ++ d).toList := by
    rw [String.toList_append, String.toList_append, toList_append_append, List.append_assoc,
      List.append_assoc, List.prefix_append_right_inj]
    exact hb.trans (List.prefix_append _ _)
  have hbelow : (store.keyPrefix ++ "/").toList <+: (artifactKey store.keyPrefix digest).toList :=
    hpath _ _ _ _ (by decide)
  rw [List.isPrefixOf_iff_prefix.2 hbelow] at hentry
  cases hentry

/-- The requests of a `Put` into an empty namespace write the payload. -/
def Writes (faults : S3Faults) (payload : Bytes) : Prop :=
  payload.length ≤ maxCoordinatorStateBytes ∧ faults.inspect = none ∧
    ∀ message, faults.upload ≠ .failed false message

theorem get_fault (store : ArtifactStore) (message : String) (ref : ModelArtifactRef) :
    ∃ e, (store.get (some message) ref).1 = .error e := by
  unfold get
  split
  · exact ⟨_, rfl⟩
  · exact ⟨_, rfl⟩

theorem get?_upload (store : ArtifactStore) (payload : Bytes) :
    (store.upload payload).objects.get? (artifactKey store.keyPrefix (sha256 payload)) =
      some payload :=
  (OrdMap.get?_insert _ _ _ _).trans (if_pos rfl)

/-- What `Put` does to an empty namespace. -/
theorem put_cases {store : ArtifactStore} (h : store.namespaceEmpty = true) {payload : Bytes}
    (hpos : 0 < payload.length) (faults : S3Faults) :
    (¬ Writes faults payload ∧ ∃ e, store.put faults payload = (.error e, store)) ∨
    (Writes faults payload ∧ ∃ store', store'.objects = (store.upload payload).objects ∧
      ((faults.upload = .stored ∧ faults.read = none ∧ store.put faults payload =
          (.ok (store.referenceForDigest (sha256 payload) payload.length), store')) ∨
        (¬ (faults.upload = .stored ∧ faults.read = none) ∧
          ∃ e, store.put faults payload = (.error e, store')))) := by
  have hfresh := get?_of_namespaceEmpty h (sha256 payload)
  have hfresh' : store.objects.get? (store.referenceForDigest (sha256 payload) payload.length).key =
      none :=
    hfresh
  have hunknown : (store.referenceForDigest (sha256 payload) payload.length).sha256 ∉
      store.verified := by
    intro hmem
    obtain ⟨data, hdata, -⟩ := store.sound _ hmem
    rw [show (store.referenceForDigest (sha256 payload) payload.length).sha256 =
      sha256 payload from rfl,
      hfresh] at hdata
    cases hdata
  unfold put
  rw [if_neg (by omega)]
  by_cases hlarge : maxCoordinatorStateBytes < payload.length
  · rw [if_pos hlarge]
    exact .inl ⟨fun hwrites => absurd hwrites.1 (not_le.2 hlarge), _, rfl⟩
  rw [if_neg hlarge]
  simp only
  rw [if_neg hunknown]
  rcases hinspect : faults.inspect with _ | e
  swap
  · refine .inl ⟨fun hwrites => ?_, _, rfl⟩
    rw [hwrites.2.1] at hinspect
    cases hinspect
  simp only [hfresh']
  rcases hupload : faults.upload with _ | ⟨applied | applied, message⟩
  · have hwrites : Writes faults payload :=
      ⟨not_lt.1 hlarge, hinspect, fun m hm => by rw [hupload] at hm; cases hm⟩
    have hstored := store.get?_upload payload
    have href : (store.upload payload).validateReference
        (store.referenceForDigest (sha256 payload) payload.length) = .ok () := by
      rw [validateReference_ok_iff]
      exact ⟨rfl, length_sha256 _, ⟨Int.natCast_pos.2 hpos, Int.ofNat_le.2 (not_lt.1 hlarge)⟩, rfl⟩
    obtain ⟨-, -, hobjects⟩ := (store.upload payload).get_frame faults.read
      (store.referenceForDigest (sha256 payload) payload.length)
    refine .inr ⟨hwrites, _, hobjects, ?_⟩
    rcases hfault : faults.read with _ | message
    · have hread := get_succeeds href hstored rfl rfl
      rcases hget : (store.upload payload).get none
        (store.referenceForDigest (sha256 payload) payload.length) with ⟨e | persisted, after⟩
      · rw [hget] at hread
        cases hread
      · rw [hget] at hread
        cases hread
        exact .inl ⟨rfl, rfl, by simp⟩
    · obtain ⟨e, he⟩ := (store.upload payload).get_fault message
        (store.referenceForDigest (sha256 payload) payload.length)
      rcases hget : (store.upload payload).get (some message)
        (store.referenceForDigest (sha256 payload) payload.length) with ⟨e' | persisted, after⟩
      · exact .inr ⟨by simp, _, rfl⟩
      · rw [hget] at he
        cases he
  · exact .inl ⟨fun hwrites => hwrites.2.2 message hupload, _, rfl⟩
  · exact .inr ⟨⟨not_lt.1 hlarge, hinspect, fun m hm => by rw [hupload] at hm; cases hm⟩, _, rfl,
      .inr ⟨by simp, _, rfl⟩⟩

/-- Into an empty namespace every payload of an admissible size is put. -/
theorem put_of_namespaceEmpty {store : ArtifactStore} (h : store.namespaceEmpty = true)
    {payload : Bytes} (hsize : 0 < payload.length ∧ payload.length ≤ maxCoordinatorStateBytes) :
    ∃ store', store.put .none payload =
        (.ok (store.referenceForDigest (sha256 payload) payload.length), store') ∧
      store'.bucket = store.bucket ∧ store'.keyPrefix = store.keyPrefix ∧
      store'.objects.get? (artifactKey store.keyPrefix (sha256 payload)) = some payload := by
  have hwrites : Writes .none payload := ⟨hsize.2, rfl, by rintro message ⟨⟩⟩
  obtain ⟨hbucket, hkeyPrefix, -⟩ := store.put_frame .none payload
  rcases put_cases h hsize.1 .none with ⟨hnot, -⟩ | ⟨-, store', hobjects, hcases⟩
  · exact absurd hwrites hnot
  rcases hcases with ⟨-, -, hput⟩ | ⟨hnot, -⟩
  · rw [hput] at hbucket hkeyPrefix
    exact ⟨store', hput, hbucket, hkeyPrefix, by rw [hobjects]; exact store.get?_upload payload⟩
  · exact absurd ⟨rfl, rfl⟩ hnot

end ArtifactStore

/-! ## The checks of a restore -/

section

variable {json : AuditHashEnvelope → Bytes} {encode : BundleContent → Bytes} {bundle : Bundle}
  {server target : PostgresServer} {artifacts : Option ArtifactStore} {run : BackupRun}

theorem readSnapshotAuditEvents_ok {head : RecoveryAuditHead} {audit : AuditTable}
    {records : List AuditRecord} (h : readSnapshotAuditEvents json head audit = .ok records) :
    (records.length : ℤ) = head.sequence ∧ (records.length : ℤ) ≤ maxAuditExportRows ∧
      verifyCompleteAuditRecords json records = .ok () ∧
      (0 < records.length → records.getLast?.map AuditRecord.eventHash = some head.eventHash) := by
  unfold readSnapshotAuditEvents at h
  split at h
  · rename_i hempty
    cases h
    exact ⟨hempty.symm, by decide, rfl, by simp⟩
  split at h
  · cases h
  rename_i hlarge
  split at h
  · cases h
  split at h
  · cases h
  rename_i hcount
  split at h
  · cases h
  rename_i hverified
  split at h
  · cases h
  rename_i hlast
  cases h
  have hlength := not_not.1 hcount
  exact ⟨hlength, by rw [hlength]; exact not_lt.1 hlarge, hverified, fun _ => not_not.1 hlast⟩

theorem verifyBundle_ok (h : bundle.Complete json encode server artifacts run) :
    verifyBundle json encode bundle = .ok run.manifest := by
  obtain ⟨hlength, hlimit, hverified, hlast⟩ := readSnapshotAuditEvents_ok h.records
  have hdecoded : decodeAuditFile json (.audit run.records) = .ok run.records := by
    simp only [decodeAuditFile, decodeAuditNDJSON, if_neg (not_lt.2 hlimit), hverified]
  have hledger : validateRecoveryMigrationLedger run.manifest.database.migrations =
    .ok () := h.ledger
  have hdump : bundle.verifyFile encode run.manifest.database.dump = .ok () := h.dump.verifyFile
  have haudit : bundle.verifyFile encode run.manifest.audit.file = .ok () := h.audit.verifyFile
  have hread : bundle.safeBundleFile run.manifest.audit.file.path = .ok (.audit run.records) :=
    h.audit.read
  have hcount : (run.records.length : ℤ) = run.manifest.audit.headSequence := hlength
  have hhead : ¬ (0 < run.records.length ∧
      run.records.getLast?.map AuditRecord.eventHash ≠ some run.manifest.audit.headHash) :=
    fun hbad => hbad.2 (hlast hbad.1)
  unfold verifyBundle
  rw [h.manifest]
  simp only [hledger, hdump, haudit, hread, hdecoded, if_neg (not_not.2 hcount), if_neg hhead]

/-- The part of the metadata that the tables determine. -/
structure RecoveryMetadata.Describes (metadata : RecoveryMetadata) (content : DatabaseContent)
    (row : StateRow) : Prop where
  state : content.state = some row
  schema : row.schemaVersion = coordinatorStateSchemaVersion
  model : row.state.model ≠ emptyGlobalModel
  experiment : validateExperimentMetadata row.state.policy.experiment = .ok ()
  modelVersion : row.state.model.modelVersion ≠ ""
  artifact : readArtifactReference row = .ok metadata.artifact
  migrations : content.migrations.length ≠ 0
  auditHead : readAuditHead content.audit = .ok metadata.auditHead
  fields : metadata.stateSchemaVersion = row.schemaVersion ∧
    metadata.experiment = row.state.policy.experiment ∧
    metadata.modelVersion = row.state.model.modelVersion ∧
      metadata.roundID = row.state.model.roundID ∧ metadata.migrations = content.migrations

theorem readRecoveryMetadata_ok_iff {metadata : RecoveryMetadata} :
    readRecoveryMetadata server = .ok metadata ↔
      server.versionNum = some metadata.postgreSQLVersionNum ∧ 0 < metadata.postgreSQLVersionNum ∧
        metadata.postgreSQLVersion = server.version ∧
        ∃ content row, server.content = some content ∧ metadata.Describes content row := by
  constructor
  · intro h
    unfold readRecoveryMetadata at h
    split at h
    · cases h
    rename_i versionNum hversion
    split at h
    · cases h
    rename_i hpos
    split at h
    · cases h
    rename_i content hcontent
    split at h
    · cases h
    rename_i row hrow
    split at h
    · cases h
    rename_i hschema
    split at h
    · cases h
    rename_i hmodel
    split at h
    · cases h
    rename_i hexperiment
    split at h
    · cases h
    rename_i hmodelVersion
    split at h
    · cases h
    rename_i artifact hartifact
    split at h
    · cases h
    rename_i hmigrations
    split at h
    · cases h
    rename_i auditHead hhead
    cases h
    exact ⟨hversion, not_le.1 hpos, rfl, content, row, hcontent, hrow, not_not.1 hschema, hmodel,
      hexperiment, hmodelVersion, hartifact, hmigrations, hhead, rfl, rfl, rfl, rfl, rfl⟩
  · rintro ⟨hversion, hpos, htext, content, row, hcontent, hdescribes⟩
    obtain ⟨hschema, hexperiment, hmodelVersion, hround, hmigrations⟩ := hdescribes.fields
    unfold readRecoveryMetadata
    simp only [hversion, if_neg (not_le.2 hpos), hcontent, hdescribes.state,
      if_neg (not_not.2 hdescribes.schema), if_neg hdescribes.model, hdescribes.experiment,
      if_neg hdescribes.modelVersion, hdescribes.artifact, if_neg hdescribes.migrations,
      hdescribes.auditHead]
    rw [← htext, ← hschema, ← hexperiment, ← hmodelVersion, ← hround, ← hmigrations]

/-- The version of the server is the only part of the metadata that the tables do not determine. -/
theorem readRecoveryMetadata_of_content {metadata : RecoveryMetadata} {versionNum : ℤ}
    (h : readRecoveryMetadata server = .ok metadata) (hcontent : target.content = server.content)
    (hversion : target.versionNum = some versionNum) (hpos : 0 < versionNum) :
    readRecoveryMetadata target = .ok { metadata with
      postgreSQLVersion := target.version
      postgreSQLVersionNum := versionNum } := by
  obtain ⟨-, -, -, content, row, hsource, hdescribes⟩ := readRecoveryMetadata_ok_iff.1 h
  exact readRecoveryMetadata_ok_iff.2 ⟨hversion, hpos, rfl, content, row, hcontent.trans hsource,
    { hdescribes with }⟩

theorem compareLedgers_self (mismatch : ℕ → RecoveryMigration → RecoveryMigration → String)
    (index : ℕ) (migrations : List RecoveryMigration) :
    compareLedgers mismatch index migrations migrations = .ok () := by
  induction migrations generalizing index with
  | nil => rfl
  | cons migration migrations ih =>
    rw [compareLedgers, if_neg (by simp)]
    exact ih (index + 1)

theorem artifactRefMatchesManifest_self (ref : ModelArtifactRef) (file : FileManifest) :
    artifactRefMatchesManifest ref ⟨ref.bucket, ref.key, hexEncode ref.sha256,
      ref.sizeBytes, file⟩ = true := by
  unfold artifactRefMatchesManifest
  rw [show (hexEncode ref.sha256).toList = hexChars ref.sha256 from String.toList_ofList,
    hexDecode_hexChars]
  simp

/-- The metadata of the restored database agrees with the manifest. -/
theorem compareRecoveryMetadata_ok (h : bundle.Complete json encode server artifacts run)
    (version : String) (versionNum : ℤ) :
    compareRecoveryMetadata run.manifest { run.metadata with
      postgreSQLVersion := version
      postgreSQLVersionNum := versionNum } = .ok () := by
  unfold compareRecoveryMetadata BackupRun.manifest backupManifest
  simp only [ne_eq, not_true_eq_false, or_self, if_false, compareLedgers_self]
  have hartifact := h.artifact
  generalize run.metadata.artifact = ref, run.artifact = artifact at hartifact ⊢
  cases hartifact with
  | none => rfl
  | some => simp only [artifactRefMatchesManifest_self, if_true]

/-- Empty targets for the restore of a database, in an environment where nothing fails and the tools
are recent enough. -/
structure RestoreReady (server : PostgresServer) (artifacts : Option ArtifactStore)
    (cfg : RestoreConfig) (env : RestoreEnv) (target : PostgresServer) : Prop where
  approved : cfg.allowDestructive = true
  dsn : trimSpace cfg.dsn.text ≠ "" ∧ commandPostgresDSN cfg.dsn = .ok ()
  input : cfg.input ≠ "."
  clean : target.relations = 0 ∧ target.functions = 0
  artifacts : ∀ store ∈ artifacts, ∃ store' ∈ cfg.artifacts, store'.bucket = store.bucket ∧
    store'.keyPrefix = store.keyPrefix ∧ store'.namespaceEmpty = true
  version : ∀ source ∈ server.versionNum, ∃ version ∈ target.versionNum,
    10000 ≤ version ∧ source / 10000 ≤ version / 10000
  tool : ∀ source ∈ server.versionNum, ∃ major,
    postgresToolVersion "pg_restore" env.pgRestoreVersion = .ok major ∧
      requireCompatiblePostgresTool major source "pg_restore" = .ok ()
  working : env.connection = none ∧ env.listing = none ∧ env.put = .none ∧
    env.pgRestore = .success ∧ env.reopen = none ∧ env.read = none

variable {cfg : RestoreConfig} {env : RestoreEnv}

theorem ensureCleanPostgresTarget_ok (hready : RestoreReady server artifacts cfg env target)
    (h : bundle.Complete json encode server artifacts run) :
    ∃ version, target.versionNum = some version ∧ 0 < version ∧
      ensureCleanPostgresTarget env.connection target run.manifest.database.postgreSQLVersionNum =
      .ok () := by
  obtain ⟨hversion, hpos, -⟩ := readRecoveryMetadata_ok_iff.1 h.metadata
  obtain ⟨version, htarget, hlarge, hmajor⟩ := hready.version _ hversion
  obtain ⟨major, -, htool⟩ := hready.tool _ hversion
  have hsource : postgresMajorFromVersionNum run.metadata.postgreSQLVersionNum =
      .ok (run.metadata.postgreSQLVersionNum / 10000) := by
    unfold requireCompatiblePostgresTool at htool
    unfold postgresMajorFromVersionNum at htool ⊢
    split_ifs at htool ⊢
    rfl
  have hnumber : postgresMajorFromVersionNum version = .ok (version / 10000) := by
    rw [postgresMajorFromVersionNum, if_neg (by omega), if_neg (by omega)]
  refine ⟨version, htarget, by omega, ?_⟩
  rw [show run.manifest.database.postgreSQLVersionNum = run.metadata.postgreSQLVersionNum from rfl]
  unfold ensureCleanPostgresTarget
  simp only [hready.working.1, Option.mem_def.1 htarget, hnumber, hsource, if_neg (not_lt.2 hmajor),
    hready.clean.1, hready.clean.2, ne_eq, not_true_eq_false, or_self, if_false]

/-- The payload of a complete bundle is put under the reference that it had, so the target keeps
every model that the source keeps there. -/
theorem restoreArtifact_ok (hready : RestoreReady server artifacts cfg env target)
    {ref : Option ModelArtifactRef} {artifact : Option ArtifactManifest}
    (h : bundle.HasArtifact encode artifacts ref artifact) :
    ∃ after, restoreArtifact encode cfg env bundle artifact = (.ok (), after) ∧
      ∀ store ∈ artifacts, ∀ r ∈ ref, ∀ model, store.Keeps model r →
        ∃ store' ∈ after, store'.Keeps model r := by
  cases h with
  | none => exact ⟨cfg.artifacts, rfl, by simp⟩
  | @some store ref payload file configured valid object size digest stored =>
    obtain ⟨store', hconfigured, hbucket, hpath, hempty⟩ := hready.artifacts store configured
    obtain ⟨hrefBucket, hlength, hbounds, hkey⟩ := ArtifactStore.validateReference_ok_iff.1 valid
    obtain ⟨after, hput, hafterBucket, hafterPrefix, hobject⟩ :=
      ArtifactStore.put_of_namespaceEmpty hempty
        (show 0 < payload.length ∧ payload.length ≤ maxCoordinatorStateBytes by omega)
    have href : store'.referenceForDigest (sha256 payload) payload.length = ref := by
      rcases ref with ⟨refBucket, refKey, refDigest, refSize⟩
      simp only at hrefBucket hkey size digest
      rw [ArtifactStore.referenceForDigest, hbucket, hpath, digest, size, ← hkey, ← hrefBucket]
    have hpayload : readArtifactPayload encode env.listing store' bundle
        ⟨ref.bucket, ref.key, hexEncode ref.sha256, ref.sizeBytes, file⟩ = .ok payload := by
      unfold readArtifactPayload ensureCleanArtifactTarget
      simp only [hready.working.2.1, hempty, if_true, stored.verifyFile, stored.read,
        BundleContent.bytes, size, lt_irrefl, if_false]
    refine ⟨some after, ?_, ?_⟩
    · unfold restoreArtifact
      simp only [Option.mem_def.1 hconfigured, hpayload, hready.working.2.2.1, hput, href,
        artifactRefMatchesManifest_self, Bool.not_true, Bool.false_eq_true, if_false]
    · rintro source hsource r ⟨⟩ model hkeeps
      rw [Option.mem_def.1 configured] at hsource
      cases hsource
      refine ⟨after, rfl, ?_, ?_, hkeeps.size, hkeeps.digest, hkeeps.model_digest⟩
      · rw [ArtifactStore.validateReference_ok_iff, hafterBucket, hafterPrefix, hbucket, hpath]
        exact ArtifactStore.validateReference_ok_iff.1 valid
      · have hsame : payload = model.weightsPayload :=
          Option.some.inj (object.symm.trans hkeeps.object)
        rw [← hsame, ← hobject, hpath, digest, ← hkey]

theorem readArtifactReference_stateRow {s : StateSnapshot} {ref : ModelArtifactRef}
    {artifact : Option ModelArtifactRef}
    (h : readArtifactReference (PostgresStateStore.stateRow s (some ref)) = .ok artifact) :
    artifact = some ref := by
  unfold readArtifactReference PostgresStateStore.stateRow at h
  simp only [Option.isNone_some, Bool.false_eq_true, false_and, if_false] at h
  split_ifs at h
  cases h
  rfl

theorem runPgRestore_ok (hready : RestoreReady server artifacts cfg env target)
    (h : bundle.Complete json encode server artifacts run) :
    runPgRestore cfg env target (.dump run.content) run.manifest.database.postgreSQLVersionNum =
      (.ok (), { target with relations := 3, content := some run.content }, true) := by
  obtain ⟨major, htool, hcompatible⟩ := hready.tool _ (readRecoveryMetadata_ok_iff.1 h.metadata).1
  have hprepared : prepareTool "pg_restore" env.pgRestoreVersion
      run.manifest.database.postgreSQLVersionNum cfg.dsn = .ok () := by
    unfold prepareTool
    rw [htool]
    simp only
    rw [show run.manifest.database.postgreSQLVersionNum = run.metadata.postgreSQLVersionNum from
      rfl, hcompatible]
    exact hready.dsn.2
  unfold runPgRestore
  simp only [hprepared, hready.working.2.2.2.1]

/-- The comparisons after a restore pass when the database holds the snapshot of the source. -/
theorem verifyRestored_ok (hready : RestoreReady server artifacts cfg env target)
    (h : bundle.Complete json encode server artifacts run) {restored : PostgresServer}
    {after : Option ArtifactStore} {s : StateSnapshot} {ref : Option ModelArtifactRef} {version : ℤ}
    (hversion : restored.versionNum = some version) (hpos : 0 < version)
    (hcontent : restored.content = server.content)
    (hrow : run.content.state = some (PostgresStateStore.stateRow s ref))
    (hload : ((restored.store after).load none).1 = .ok (some s)) :
    ∃ result, verifyRestored json env run.manifest restored after = .ok result := by
  obtain ⟨-, -, -, content, row, hsource, hdescribes⟩ := readRecoveryMetadata_ok_iff.1 h.metadata
  obtain rfl : content = run.content := Option.some.inj (hsource.symm.trans h.content)
  obtain rfl : row = PostgresStateStore.stateRow s ref :=
    Option.some.inj (hdescribes.state.symm.trans hrow)
  have hstored : (PostgresStateStore.stateRow s ref).state.policy = s.policy ∧
      (PostgresStateStore.stateRow s ref).state.model.modelVersion = s.model.modelVersion ∧
      (PostgresStateStore.stateRow s ref).state.model.roundID = s.model.roundID := by
    rcases ref with _ | ref
    · exact ⟨rfl, rfl, rfl⟩
    · exact ⟨rfl, rfl, rfl⟩
  obtain ⟨hpolicy, hmodelVersion, hround⟩ := hstored
  obtain ⟨-, hexperiment, hmodelVersion', hround', -⟩ := hdescribes.fields
  have hexperiments : s.policy.experiment = run.manifest.database.experiment := by
    rw [← hpolicy, ← hexperiment]
    rfl
  have hmodels : s.model.modelVersion = run.manifest.database.modelVersion ∧
      s.model.roundID = run.manifest.database.roundID := by
    rw [← hmodelVersion, ← hround, ← hmodelVersion', ← hround']
    exact ⟨rfl, rfl⟩
  have haudit : (restored.store after).audit = run.content.audit := by
    rw [PostgresServer.store, hcontent, h.content]
  have hmetadata := readRecoveryMetadata_of_content h.metadata hcontent hversion hpos
  have hcompare := compareRecoveryMetadata_ok h restored.version version
  obtain ⟨hlength, -, -, hlast⟩ := readSnapshotAuditEvents_ok h.records
  have hcount : (run.records.length : ℤ) = run.manifest.audit.headSequence := hlength
  have hhead : ¬ (0 < run.records.length ∧
      run.records.getLast?.map AuditRecord.eventHash ≠ some run.manifest.audit.headHash) :=
    fun hbad => hbad.2 (hlast hbad.1)
  unfold verifyRestored
  simp only [hready.working.2.2.2.2.1, hready.working.2.2.2.2.2, hload,
    if_neg (not_not.2 hexperiments), hmodels.1, hmodels.2, ne_eq, not_true_eq_false, or_self,
    if_false, hmetadata, h.ledger, haudit, h.records, hcompare, if_neg (not_not.2 hcount),
    if_neg hhead]
  exact ⟨_, rfl⟩

end

/-- A database that coordinators have written is reproduced by the restore of its backup: the
restore succeeds, and the target then loads the same state and reads the same audit records. -/
theorem restore_backup {json : AuditHashEnvelope → Bytes} {encode : BundleContent → Bytes}
    {source : PostgresStateStore} {server target : PostgresServer}
    {migrations : List RecoveryMigration} {cfg : BackupConfig} {env : BackupEnv} {bundle : Bundle}
    {cfg' : RestoreConfig} {env' : RestoreEnv} (hwritten : PostgresStateStore.Written json source)
    (hserver : server.content = some ⟨source.state, source.audit, migrations⟩)
    (hartifacts : cfg.artifacts = source.artifacts)
    (hbackup : backup json encode cfg env server = .ok bundle)
    (hready : RestoreReady server source.artifacts cfg' env' target) :
    ∃ result st snapshot, restore json encode cfg' env' bundle target = (.ok result, st) ∧
      (source.load none).1 = .ok (some snapshot) ∧
      ((st.server.store st.artifacts).load none).1 = .ok (some snapshot) ∧
      ∀ afterSequence limit, readAuditEvents json
        (st.server.store st.artifacts).audit afterSequence limit =
        readAuditEvents json source.audit afterSequence limit := by
  obtain ⟨run, hcomplete⟩ := backup_complete hbackup
  rw [hartifacts] at hcomplete
  obtain ⟨-, -, -, content, row, hcontent, hdescribes⟩ :=
    readRecoveryMetadata_ok_iff.1 hcomplete.metadata
  obtain rfl : content = run.content := Option.some.inj (hcontent.symm.trans hcomplete.content)
  have hsame : run.content = ⟨source.state, source.audit, migrations⟩ :=
    Option.some.inj (hcomplete.content.symm.trans hserver)
  have hstate : source.state = some row := by
    rw [← hdescribes.state, hsame]
  -- The source holds a snapshot that it loads unchanged.
  obtain ⟨st, hrefines⟩ := hwritten.refines
  rcases hrefines.state with ⟨hnone, -⟩ | ⟨s, hs, hholds, -⟩
  · rw [hnone] at hstate
    cases hstate
  have hsource : (source.load none).1 = .ok (some s) := by
    rw [(PostgresStateStore.load_iff_of_holds hs.valid hholds).2 hs.persistable, hs.sorted]
  obtain ⟨version, hversion, hpos, hclean⟩ := ensureCleanPostgresTarget_ok hready hcomplete
  obtain ⟨after, hartifact, hkeeps⟩ := restoreArtifact_ok hready hcomplete.artifact
  have hprocess := runPgRestore_ok hready hcomplete
  -- So does the target, once the payload is in its artifact store.
  generalize hrestored :
    ({ target with relations := 3, content := some run.content } : PostgresServer) =
    restored at hprocess
  have hstore : restored.store after = ⟨source.state, source.audit, after⟩ := by
    rw [← hrestored, PostgresServer.store, hsame]
  have hrow : ∃ ref, run.content.state = some (PostgresStateStore.stateRow s ref) := by
    rw [hsame]
    rcases hholds with hrow | ⟨_, ref, hrow, _, _⟩
    · exact ⟨none, by rw [hs.sorted] at hrow; exact hrow⟩
    · exact ⟨some ref, by rw [hs.sorted] at hrow; exact hrow⟩
  have htarget : (restored.store after).Holds s := by
    rw [hstore]
    rcases hholds with hrow | ⟨store, ref, hrow, hstored, hkept⟩
    · exact .inline hrow
    · have href : run.metadata.artifact = some ref := by
        have hartifact := hdescribes.artifact
        rw [Option.some.inj (hstate.symm.trans hrow)] at hartifact
        exact readArtifactReference_stateRow hartifact
      obtain ⟨store', hafter, hkept'⟩ := hkeeps store hstored ref href s.model hkept
      exact .artifact store' ref hrow hafter hkept'
  have hload : ((restored.store after).load none).1 = .ok (some s) := by
    rw [(PostgresStateStore.load_iff_of_holds hs.valid htarget).2 hs.persistable, hs.sorted]
  obtain ⟨ref, href⟩ := hrow
  obtain ⟨result, hresult⟩ := verifyRestored_ok hready hcomplete
    (by rw [← hrestored]; exact hversion) hpos
    (by rw [← hrestored]; exact hcomplete.content.symm) href hload
  refine ⟨result, ⟨restored, after, true⟩, s, ?_, hsource, hload, ?_⟩
  · have hdump : bundle.safeBundleFile run.manifest.database.dump.path = .ok (.dump run.content) :=
      hcomplete.dump.read
    have hbundle : restoreArtifact encode cfg' env' bundle run.manifest.artifact =
      (.ok (), after) := hartifact
    unfold restore
    simp only [hready.approved, Bool.not_true, Bool.false_eq_true, if_false, if_neg hready.dsn.1,
      if_neg hready.input, verifyBundle_ok hcomplete, hclean, hbundle, hdump, hprocess, hresult]
  · intro afterSequence limit
    simp only [hstore]

/-! ## A coordinator with a model of one weight -/

def sampleCoordinator : DurableService :=
  ⟨{ Service.sampleService with model := (sampleSnapshot 0).model },
    ⟨"exp-1", String.ofList (List.replicate 64 '0'), unixTime 1700000000⟩, "global-model"⟩

/-- The database with its state, the payload of the model in the artifact store. -/
def sampleSource : PostgresStateStore :=
  ((samplePostgres (some sampleArtifacts)).commitWithAudit auditJSON
    (sampleCoordinator.captureSnapshot (Service.sampleEnv 0 0).clock)
    [sampleAuditEvent 1000] .none .success).2

def sampleServer : PostgresServer where
  version := "16.1"
  versionNum := some 160001
  relations := 3
  functions := 0
  content := some ⟨sampleSource.state, sampleSource.audit, embeddedMigrations⟩

def sampleDSN : PostgresDSN :=
  ⟨"postgres://database/coordinator", some ⟨"postgres", "database", "/coordinator"⟩⟩

def sampleBackupConfig : BackupConfig :=
  ⟨sampleDSN, sampleSource.artifacts, "backup", unixTime 1700000010⟩

def sampleBackupEnv : BackupEnv where
  outputExists := false
  connection := none
  read := none
  snapshotID := "00000003-0000001B-1"
  pgDumpVersion := some "pg_dump (PostgreSQL) 16.1"
  pgDump := none
  files := none

def sampleEncode (content : BundleContent) : Bytes :=
  match content with
  | .manifest _ => [1]
  | .dump _ => [2]
  | .audit _ => [3]
  | .raw data => data

def sampleRestoreConfig : RestoreConfig := ⟨sampleDSN, some sampleArtifacts, "backup", true⟩

def sampleRestoreEnv : RestoreEnv where
  connection := none
  listing := none
  put := .none
  pgRestoreVersion := some "pg_restore (PostgreSQL) 16.1"
  pgRestore := .success
  reopen := none
  read := none

def sampleTarget : PostgresServer := ⟨"16.2", some 160002, 0, 0, none⟩

theorem written_sampleSource : PostgresStateStore.Written auditJSON sampleSource := by
  have hvalid : (sampleCoordinator.captureSnapshot (Service.sampleEnv 0 0).clock).Valid :=
    (validateStateSnapshot_ok_iff _).1 (by decide +kernel)
  have hrecoverable := DurableService.recoverable_of_valid hvalid (fun k u hu => by cases hu)
    (fun n e he => by cases he) (fun k seenAt h => by cases h) (fun n w h => by cases h)
  refine (PostgresStateStore.Written.start (some sampleArtifacts)).commit hrecoverable
    le_rfl ?_ _ _ _
  rintro artifacts ⟨⟩ key data ⟨⟩

theorem ready_sampleTarget : RestoreReady sampleServer sampleSource.artifacts sampleRestoreConfig
    sampleRestoreEnv sampleTarget where
  approved := rfl
  dsn := by decide +kernel
  input := by decide
  clean := ⟨rfl, rfl⟩
  artifacts := by decide +kernel
  version := by decide
  tool := by
    rintro source ⟨⟩
    exact ⟨16, by decide +kernel, by decide +kernel⟩
  working := ⟨rfl, rfl, rfl, rfl, rfl, rfl⟩

theorem restore_backup_sampleServer : ∃ bundle result st snapshot,
    backup auditJSON sampleEncode sampleBackupConfig sampleBackupEnv sampleServer = .ok bundle ∧
      restore auditJSON sampleEncode sampleRestoreConfig sampleRestoreEnv bundle sampleTarget =
        (.ok result, st) ∧
      (sampleSource.load none).1 = .ok (some snapshot) ∧
      ((st.server.store st.artifacts).load none).1 = .ok (some snapshot) := by
  have hpublished :
    (backup auditJSON sampleEncode sampleBackupConfig sampleBackupEnv sampleServer).toBool =
      true := by
    decide +kernel
  rcases hbackup : backup auditJSON sampleEncode sampleBackupConfig sampleBackupEnv
    sampleServer with
    e | bundle
  · rw [hbackup] at hpublished
    cases hpublished
  · have hserver : sampleServer.content =
        some ⟨sampleSource.state, sampleSource.audit, embeddedMigrations⟩ := rfl
    have hartifacts : sampleBackupConfig.artifacts = sampleSource.artifacts := by
      rw [sampleBackupConfig]
    obtain ⟨result, st, snapshot, hrestore, hsource, htarget, -⟩ :=
      restore_backup written_sampleSource hserver hartifacts hbackup ready_sampleTarget
    exact ⟨bundle, result, st, snapshot, rfl, hrestore, hsource, htarget⟩

end ZeroTrustFL
