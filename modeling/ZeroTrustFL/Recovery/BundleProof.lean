import Mathlib
import ZeroTrustFL.Recovery.Bundle
import ZeroTrustFL.Coordinator.StoreRefinement

/-!
# A backup can be restored

The two halves meet at `Bundle.Complete`, what a bundle has to contain for a database: every bundle
that a backup publishes is complete for the database it was taken from, and a complete bundle is
restored into empty targets with the same artifact namespace.
-/

namespace ZeroTrustFL

/-! ## Paths -/

theorem pathParts_of_notMem {chars : List Char} (h : '/' ∉ chars) : pathParts chars = [chars] := by
  induction chars with
  | nil => rfl
  | cons c chars ih =>
    rw [List.mem_cons, not_or] at h
    rw [pathParts, if_neg (Ne.symm h.1), ih h.2]

theorem pathParts_append {part : List Char} (h : '/' ∉ part) (rest : List Char) :
    pathParts (part ++ '/' :: rest) = part :: pathParts rest := by
  induction part with
  | nil => rw [List.nil_append, pathParts, if_pos rfl]
  | cons c part ih =>
    rw [List.mem_cons, not_or] at h
    rw [List.cons_append, pathParts, if_neg (Ne.symm h.1), ih h.2]

theorem toList_append_append (a b c : String) :
    (a ++ b ++ c).toList = a.toList ++ (b.toList ++ c.toList) := by
  rw [String.toList_append, String.toList_append, List.append_assoc]

theorem toList_artifactFilePath (digest : Bytes) :
    (artifactFilePath (hexEncode digest)).toList =
      "artifacts".toList ++ '/' ::
      ("sha256".toList ++ '/' :: (hexChars digest ++ ".npy".toList)) := by
  have hparts : "artifacts/sha256/".toList = "artifacts".toList ++ '/' ::
      ("sha256".toList ++ ['/']) := by
    decide
  have hdigits : (hexEncode digest).toList = hexChars digest := String.toList_ofList
  calc (artifactFilePath (hexEncode digest)).toList
      = "artifacts/sha256/".toList ++ ((hexEncode digest).toList ++ ".npy".toList) :=
        toList_append_append "artifacts/sha256/" (hexEncode digest) ".npy"
    _ = ("artifacts".toList ++ '/' :: ("sha256".toList ++ ['/'])) ++
        (hexChars digest ++ ".npy".toList) :=
        congrArg₂ (fun front digits => front ++ (digits ++ ".npy".toList)) hparts hdigits
    _ = _ := by simp only [List.append_assoc, List.cons_append, List.nil_append]

theorem slash_notMem_hexChars (digest : Bytes) : '/' ∉ hexChars digest ++ ".npy".toList := by
  rw [List.mem_append, not_or]
  exact ⟨fun h => absurd (mem_hexChars h) (by decide), by decide⟩

theorem pathParts_artifactFilePath (digest : Bytes) :
    pathParts (artifactFilePath (hexEncode digest)).toList =
      ["artifacts".toList, "sha256".toList, hexChars digest ++ ".npy".toList] := by
  rw [toList_artifactFilePath, pathParts_append (by decide), pathParts_append (by decide),
    pathParts_of_notMem (slash_notMem_hexChars digest)]

theorem validateRelativePath_artifactFilePath (digest : Bytes) :
    validateRelativePath (artifactFilePath (hexEncode digest)) = .ok () := by
  have hlast (c : Char) (hc : c ∈ hexChars digest) : c ≠ '\\' := by
    intro heq
    exact absurd (mem_hexChars (heq ▸ hc)) (by decide)
  have hlong : (hexChars digest ++ ".npy".toList) ∉ [[], ['.'], ['.', '.']] := by
    intro hmem
    have hlength : 4 ≤ (hexChars digest ++ ".npy".toList).length := by
      rw [List.length_append]
      exact Nat.le_add_left 4 _
    simp only [List.mem_cons, List.not_mem_nil, or_false] at hmem
    rcases hmem with heq | heq | heq <;> rw [heq] at hlength <;> simp at hlength
  unfold validateRelativePath
  rw [if_neg, if_neg]
  · rw [pathParts_artifactFilePath]
    simp only [List.any_cons, List.any_nil, Bool.or_false, Bool.or_eq_true, decide_eq_true_eq,
      not_or]
    exact ⟨by decide, by decide, hlong⟩
  · rw [toList_artifactFilePath]
    simp only [not_or]
    refine ⟨?_, by simp, ?_⟩
    · intro hempty
      have hnil := congrArg String.toList hempty
      rw [toList_artifactFilePath] at hnil
      simp at hnil
    · simp only [List.mem_append, List.mem_cons, not_or]
      exact ⟨by decide, by decide, by decide, by decide, fun hc => hlast _ hc rfl, by decide⟩

/-- The file of an artifact stands beside none of the other files. -/
theorem artifactFilePath_ne {path : String} (h : ¬ "artifacts/sha256/".toList <+: path.toList)
    (digestHex : String) : path ≠ artifactFilePath digestHex := by
  rintro rfl
  exact h ⟨digestHex.toList ++ ".npy".toList,
    (toList_append_append "artifacts/sha256/" digestHex ".npy").symm⟩

theorem makeDirectory_ne_artifactFilePath (digest : Bytes) :
    "artifacts" ≠ artifactFilePath (hexEncode digest) ∧
      "artifacts/sha256" ≠ artifactFilePath (hexEncode digest) :=
  ⟨artifactFilePath_ne (by decide) _, artifactFilePath_ne (by decide) _⟩

/-! ## Files -/

namespace Bundle

variable {bundle : Bundle} {path : String} {content : BundleContent}

/-- A file directly below the root. -/
theorem safeBundleFile_of_get? (hpath : validateRelativePath path = .ok ())
    (hparts : '/' ∉ path.toList) (hroot : bundle.realRoot = true)
    (hnode : bundle.nodes.get? path = some (.regular content)) :
    bundle.safeBundleFile path = .ok content := by
  unfold safeBundleFile
  rw [hpath, pathParts_of_notMem hparts]
  simp only [hroot, Bool.not_true, Bool.false_eq_true, if_false, walk, if_true,
    String.ofList_toList, hnode]

/-- The file of an artifact. -/
theorem safeBundleFile_artifact {digest : Bytes} (hroot : bundle.realRoot = true)
    (houter : bundle.nodes.get? "artifacts" = some .directory)
    (hinner : bundle.nodes.get? "artifacts/sha256" = some .directory)
    (hnode : bundle.nodes.get? (artifactFilePath (hexEncode digest)) = some (.regular content)) :
    bundle.safeBundleFile (artifactFilePath (hexEncode digest)) = .ok content := by
  have hmiddle : String.ofList ("artifacts".toList ++ '/' :: "sha256".toList) =
      "artifacts/sha256" := by
    decide
  have hfull : String.ofList (("artifacts".toList ++ '/' :: "sha256".toList) ++
      '/' :: (hexChars digest ++ ".npy".toList)) = artifactFilePath (hexEncode digest) := by
    rw [← String.ofList_toList (s := artifactFilePath (hexEncode digest)), toList_artifactFilePath,
      List.append_assoc, List.cons_append]
  unfold safeBundleFile
  rw [validateRelativePath_artifactFilePath, pathParts_artifactFilePath]
  simp only [hroot, Bool.not_true, Bool.false_eq_true, if_false]
  rw [walk, if_pos rfl]
  simp only [String.ofList_toList, houter, if_false, reduceCtorEq]
  rw [walk, if_neg (by decide)]
  simp only [hmiddle, hinner, if_false, reduceCtorEq]
  rw [walk, if_neg (by decide)]
  simp only [hfull, hnode, if_true]

/-- Whatever stands in the first bundle stands in the second. -/
structure Extends (bundle bundle' : Bundle) : Prop where
  realRoot : bundle'.realRoot = bundle.realRoot
  nodes : ∀ path node, bundle.nodes.get? path = some node → bundle'.nodes.get? path = some node

theorem Extends.refl (bundle : Bundle) : bundle.Extends bundle := ⟨rfl, fun _ _ h => h⟩

theorem Extends.trans {a b c : Bundle} (h : a.Extends b) (h' : b.Extends c) : a.Extends c :=
  ⟨h'.realRoot.trans h.realRoot, fun path node hnode =>
    h'.nodes path node (h.nodes path node hnode)⟩

theorem get?_write (bundle : Bundle) (path x : String) (content : BundleContent) :
    (bundle.write path content).nodes.get? x =
      if x = path then some (.regular content) else bundle.nodes.get? x :=
  OrdMap.get?_insert _ _ _ _

theorem get?_makeDirectory (bundle : Bundle) (path x : String) :
    (bundle.makeDirectory path).nodes.get? x =
      if x = path then some .directory else bundle.nodes.get? x :=
  OrdMap.get?_insert _ _ _ _

theorem extends_write (h : bundle.nodes.get? path = none) (content : BundleContent) :
    bundle.Extends (bundle.write path content) := by
  refine ⟨rfl, fun x node hnode => ?_⟩
  rw [get?_write, if_neg]
  · exact hnode
  · rintro rfl
    rw [h] at hnode
    cases hnode

theorem extends_makeDirectory (h : bundle.nodes.get? path = none) :
    bundle.Extends (bundle.makeDirectory path) := by
  refine ⟨rfl, fun x node hnode => ?_⟩
  rw [get?_makeDirectory, if_neg]
  · exact hnode
  · rintro rfl
    rw [h] at hnode
    cases hnode

/-- What could be read can still be read. -/
theorem Extends.walk {bundle' : Bundle} (h : bundle.Extends bundle') {parts : List (List Char)}
    {current : List Char} (hread : bundle.walk path current parts = .ok content) :
    bundle'.walk path current parts = .ok content := by
  induction parts generalizing current with
  | nil => cases hread
  | cons part rest ih =>
    rw [Bundle.walk] at hread ⊢
    generalize (if current = [] then part else current ++ '/' :: part) = current at hread ⊢
    rcases hnode : bundle.nodes.get? (.ofList current) with _ | node
    · rw [hnode] at hread
      cases hread
    · rw [h.nodes _ _ hnode]
      rw [hnode] at hread
      rcases node with _ | _ | _ | stored
      · simp only at hread ⊢
        split_ifs at hread ⊢ with hlast
        exact ih hread
      · cases hread
      · simp only at hread
        split_ifs at hread
      · exact hread

theorem Extends.safeBundleFile {bundle' : Bundle} (h : bundle.Extends bundle')
    (hread : bundle.safeBundleFile path = .ok content) :
    bundle'.safeBundleFile path = .ok content := by
  unfold Bundle.safeBundleFile at hread ⊢
  rw [h.realRoot]
  split at hread
  · cases hread
  · split_ifs at hread ⊢
    exact h.walk hread

variable {encode : BundleContent → Bytes}

/-- A file of the bundle with the digest and the size that a manifest declares. -/
structure HasFile (encode : BundleContent → Bytes) (bundle : Bundle) (file : FileManifest)
    (content : BundleContent) : Prop where
  read : bundle.safeBundleFile file.path = .ok content
  digest : file.sha256 = hexEncode (sha256 (content.bytes encode))
  size : file.sizeBytes = (content.bytes encode).length

variable {bundle bundle' : Bundle} {file : FileManifest} {content : BundleContent}

theorem HasFile.mono (h : bundle.HasFile encode file content) (hext : bundle.Extends bundle') :
    bundle'.HasFile encode file content :=
  ⟨hext.safeBundleFile h.read, h.digest, h.size⟩

theorem hasFile_of_digestFile {path : String} (hfile : bundle.digestFile encode path = .ok file)
    (hread : bundle.safeBundleFile path = .ok content) : bundle.HasFile encode file content := by
  unfold digestFile at hfile
  rw [hread] at hfile
  cases hfile
  exact ⟨hread, rfl, rfl⟩

theorem HasFile.verifyFile (h : bundle.HasFile encode file content) :
    bundle.verifyFile encode file = .ok () := by
  unfold Bundle.verifyFile digestFile
  rw [h.read]
  simp [h.digest, h.size]

theorem utf8ByteSize_hexEncode (b : Bytes) : (hexEncode b).utf8ByteSize = 2 * b.length := by
  have hdigit (n : ℕ) (hn : n < 16) : (Nat.digitChar n).utf8Size = 1 := by
    interval_cases n <;> rfl
  rw [hexEncode, String.utf8ByteSize_ofList]
  induction b with
  | nil => rfl
  | cons x b ih =>
    have hx : x.toNat < 256 := x.toNat_lt
    rw [show hexChars (x :: b) = Nat.digitChar (x.toNat / 16) :: Nat.digitChar (x.toNat % 16) ::
      hexChars b from rfl, String.utf8Len_cons, String.utf8Len_cons, ih, hdigit _ (by omega),
      hdigit _ (by omega), List.length_cons]
    omega

theorem length_checksumText (data : Bytes) : (stringBytes (checksumText data)).length ≤ 256 := by
  have hsplit (a b c d : String) : (stringBytes (a ++ b ++ c ++ d)).length =
      a.utf8ByteSize + b.utf8ByteSize + c.utf8ByteSize + d.utf8ByteSize := by
    change (a ++ b ++ c ++ d).utf8ByteSize = _
    rw [String.utf8ByteSize_append, String.utf8ByteSize_append, String.utf8ByteSize_append]
  calc (stringBytes (checksumText data)).length
      = (hexEncode (sha256 data)).utf8ByteSize + "  ".utf8ByteSize + manifestFileName.utf8ByteSize +
          "\n".utf8ByteSize := hsplit _ _ _ _
    _ = 2 * 32 + 2 + 13 + 1 := by
        rw [utf8ByteSize_hexEncode, length_sha256]
        rfl
    _ ≤ 256 := by decide

/-- A written manifest is read back. -/
theorem writeManifest_ok {manifest : Manifest} (hroot : bundle.realRoot = true)
    (hfresh : bundle.nodes.get? manifestFileName = none ∧ bundle.nodes.get? manifestChecksum = none)
    (h : bundle.writeManifest encode manifest = .ok bundle') :
    bundle.Extends bundle' ∧ bundle'.loadManifest encode = .ok manifest := by
  have hne : manifestFileName ≠ manifestChecksum := by decide
  unfold writeManifest at h
  split at h
  · cases h
  rename_i hvalid
  simp only at h
  split_ifs at h with hsize
  cases h
  have hfirst := extends_write hfresh.1 (.manifest manifest)
  have hsecond := extends_write
    (show (bundle.write manifestFileName (.manifest manifest)).nodes.get? manifestChecksum = none by
      rw [get?_write, if_neg hne.symm]; exact hfresh.2)
    (.raw (stringBytes (checksumText (encode (.manifest manifest)))))
  generalize hfinal : (bundle.write manifestFileName (.manifest manifest)).write manifestChecksum
    (.raw (stringBytes (checksumText (encode (.manifest manifest))))) = final at hsecond ⊢
  have hmanifest : final.safeBundleFile manifestFileName = .ok (.manifest manifest) := by
    refine safeBundleFile_of_get? (by decide) (by decide) (hsecond.realRoot.trans hroot) ?_
    rw [← hfinal, get?_write, if_neg hne, get?_write, if_pos rfl]
  have hchecksum : final.safeBundleFile manifestChecksum =
      .ok (.raw (stringBytes (checksumText (encode (.manifest manifest))))) := by
    refine safeBundleFile_of_get? (by decide) (by decide) (hsecond.realRoot.trans hroot) ?_
    rw [← hfinal, get?_write, if_pos rfl]
  refine ⟨hfirst.trans hsecond, ?_⟩
  unfold loadManifest
  rw [hmanifest]
  simp only [hchecksum, BundleContent.bytes, if_neg hsize,
    if_neg (not_lt.2 (length_checksumText _)), ne_eq, not_true_eq_false, if_false, hvalid]

/-- What a bundle holds of the artifact that a database refers to. -/
inductive HasArtifact (encode : BundleContent → Bytes) (bundle : Bundle)
    (artifacts : Option ArtifactStore) : Option ModelArtifactRef → Option ArtifactManifest → Prop
  | none : HasArtifact encode bundle artifacts none none
  | some {store : ArtifactStore} {ref : ModelArtifactRef} {payload : Bytes} {file : FileManifest}
      (configured : artifacts = some store) (valid : store.validateReference ref = .ok ())
      (object : store.objects.get? ref.key = some payload)
      (size : (payload.length : ℤ) = ref.sizeBytes)
      (digest : sha256 payload = ref.sha256) (stored : bundle.HasFile encode file (.raw payload)) :
      HasArtifact encode bundle artifacts (some ref)
        (some ⟨ref.bucket, ref.key, hexEncode ref.sha256, ref.sizeBytes, file⟩)

theorem HasArtifact.mono {artifacts : Option ArtifactStore} {ref : Option ModelArtifactRef}
    {artifact : Option ArtifactManifest} (h : bundle.HasArtifact encode artifacts ref artifact)
    (hext : bundle.Extends bundle') : bundle'.HasArtifact encode artifacts ref artifact := by
  cases h with
  | none => exact .none
  | some configured valid object size digest stored =>
    exact .some configured valid object size digest (stored.mono hext)

end Bundle

/-! ## Backup -/

section

variable {json : AuditHashEnvelope → Bytes} {encode : BundleContent → Bytes}

theorem isPrefix_artifactFilePath (digestHex : String) :
    "artifacts".toList <+: (artifactFilePath digestHex).toList := by
  have hfront : "artifacts".toList <+: "artifacts/sha256/".toList := by decide
  exact hfront.trans ⟨_, (toList_append_append "artifacts/sha256/" digestHex ".npy").symm⟩

variable {cfg : BackupConfig} {env : BackupEnv} {bundle : Bundle}

/-- The artifact part adds to the bundle below one directory only. -/
theorem backupArtifact_ok {bundle' : Bundle} {ref : Option ModelArtifactRef}
    {artifact : Option ArtifactManifest} (hroot : bundle.realRoot = true)
    (hfresh : ∀ path, "artifacts".toList <+: path.toList → bundle.nodes.get? path = none)
    (h : backupArtifact encode cfg env bundle ref = .ok (bundle', artifact)) :
    bundle.Extends bundle' ∧ bundle'.HasArtifact encode cfg.artifacts ref artifact ∧
      ∀ path, ¬ "artifacts".toList <+: path.toList →
      bundle'.nodes.get? path = bundle.nodes.get? path := by
  rcases ref with _ | ref
  · cases h
    exact ⟨.refl _, .none, fun _ _ => rfl⟩
  rw [backupArtifact] at h
  rcases hstore : cfg.artifacts with _ | store
  · rw [hstore] at h
    cases h
  rw [hstore] at h
  simp only at h
  rcases hget : (store.get env.read ref).1 with e | payload
  · rw [hget] at h
    cases h
  rw [hget] at h
  obtain ⟨hvalid, hobject, hsize, hdigest⟩ := ArtifactStore.get_ok hget
  have hfile := isPrefix_artifactFilePath (hexEncode ref.sha256)
  obtain ⟨hne, hne'⟩ := makeDirectory_ne_artifactFilePath ref.sha256
  have h₁ := Bundle.extends_makeDirectory (hfresh "artifacts" (by decide))
  have h₂ : (bundle.makeDirectory "artifacts").Extends
      ((bundle.makeDirectory "artifacts").makeDirectory "artifacts/sha256") := by
    refine Bundle.extends_makeDirectory ?_
    rw [Bundle.get?_makeDirectory, if_neg (by decide)]
    exact hfresh _ (by decide)
  have h₃ : ((bundle.makeDirectory "artifacts").makeDirectory "artifacts/sha256").Extends
      (((bundle.makeDirectory "artifacts").makeDirectory "artifacts/sha256").write
        (artifactFilePath (hexEncode ref.sha256)) (.raw payload)) := by
    refine Bundle.extends_write ?_ _
    rw [Bundle.get?_makeDirectory, if_neg hne'.symm, Bundle.get?_makeDirectory, if_neg hne.symm]
    exact hfresh _ hfile
  have hall := (h₁.trans h₂).trans h₃
  simp only at h
  split at h
  · cases h
  rename_i file hdigestFile
  split_ifs at h with hchanged
  cases h
  refine ⟨hall, ?_, ?_⟩
  · refine .some rfl hvalid hobject hsize hdigest (Bundle.hasFile_of_digestFile hdigestFile ?_)
    refine Bundle.safeBundleFile_artifact (hall.realRoot.trans hroot)
      (h₃.nodes _ _ (h₂.nodes _ _ ?_)) (h₃.nodes _ _ ?_) ?_
    · rw [Bundle.get?_makeDirectory, if_pos rfl]
    · rw [Bundle.get?_makeDirectory, if_pos rfl]
    · rw [Bundle.get?_write, if_pos rfl]
  · intro path hpath
    rw [Bundle.get?_write, if_neg, Bundle.get?_makeDirectory, if_neg, Bundle.get?_makeDirectory,
      if_neg]
    · rintro rfl
      exact hpath (by decide)
    · rintro rfl
      exact hpath (by decide)
    · rintro rfl
      exact hpath hfile

/-- What a backup has read, and the descriptions of the files that it has written. -/
structure BackupRun where
  content : DatabaseContent
  metadata : RecoveryMetadata
  records : List AuditRecord
  now : ℤ
  artifact : Option ArtifactManifest
  dump : FileManifest
  audit : FileManifest

def BackupRun.manifest (run : BackupRun) : Manifest :=
  backupManifest run.now run.metadata run.artifact run.dump run.audit

/-- A bundle with everything that a restore of a database needs. -/
structure Bundle.Complete (json : AuditHashEnvelope → Bytes) (encode : BundleContent → Bytes)
    (bundle : Bundle) (server : PostgresServer) (artifacts : Option ArtifactStore)
    (run : BackupRun) : Prop where
  content : server.content = some run.content
  metadata : readRecoveryMetadata server = .ok run.metadata
  ledger : validateRecoveryMigrationLedger run.metadata.migrations = .ok ()
  records : readSnapshotAuditEvents json run.metadata.auditHead run.content.audit = .ok run.records
  manifest : bundle.loadManifest encode = .ok run.manifest
  dump : bundle.HasFile encode run.dump (.dump run.content)
  audit : bundle.HasFile encode run.audit (.audit run.records)
  artifact : bundle.HasArtifact encode artifacts run.metadata.artifact run.artifact

theorem writeBackup_ok {content : DatabaseContent} {metadata : RecoveryMetadata}
    {records : List AuditRecord}
    (h : writeBackup encode cfg env content metadata records = .ok bundle) :
    ∃ artifact dump audit,
      bundle.loadManifest encode = .ok (backupManifest cfg.now metadata artifact dump audit) ∧
      bundle.HasFile encode dump (.dump content) ∧ bundle.HasFile encode audit (.audit records) ∧
      bundle.HasArtifact encode cfg.artifacts metadata.artifact artifact := by
  unfold writeBackup at h
  simp only at h
  -- The files are named differently, so each write keeps what was written before.
  have hstart (path : String) :
    (emptyBundle.write auditExportPath (.audit records)).nodes.get? path =
      if path = auditExportPath then some (.regular (.audit records)) else none :=
    Bundle.get?_write _ _ _ _
  have haudit : (emptyBundle.write auditExportPath (.audit records)).safeBundleFile
      auditExportPath = .ok (.audit records) := by
    refine Bundle.safeBundleFile_of_get? (by decide) (by decide) rfl ?_
    rw [hstart, if_pos rfl]
  have hfresh (path : String) (hpath : "artifacts".toList <+: path.toList) :
      (emptyBundle.write auditExportPath (.audit records)).nodes.get? path = none := by
    rw [hstart, if_neg]
    rintro rfl
    exact absurd hpath (by decide)
  have hroot : (emptyBundle.write auditExportPath (.audit records)).realRoot = true := rfl
  generalize emptyBundle.write auditExportPath (.audit records) = first at *
  split at h
  · cases h
  rename_i second artifact hartifact
  obtain ⟨hsecond, hhas, hsame⟩ := backupArtifact_ok hroot hfresh hartifact
  have hother (path : String) (hpath : ¬ "artifacts".toList <+: path.toList)
      (hne : path ≠ auditExportPath) : second.nodes.get? path = none := by
    rw [hsame path hpath, hstart, if_neg hne]
  split at h
  · cases h
  have hthird := Bundle.extends_write (hother postgresDumpPath (by decide) (by decide))
    (.dump content)
  have hdump : (second.write postgresDumpPath (.dump content)).safeBundleFile postgresDumpPath =
      .ok (.dump content) := by
    refine Bundle.safeBundleFile_of_get? (by decide) (by decide)
      ((hsecond.trans hthird).realRoot.trans hroot) ?_
    rw [Bundle.get?_write, if_pos rfl]
  have hrest (path : String) (hpath : ¬ "artifacts".toList <+: path.toList)
      (hne : path ≠ auditExportPath) (hne' : path ≠ postgresDumpPath) :
      (second.write postgresDumpPath (.dump content)).nodes.get? path = none := by
    rw [Bundle.get?_write, if_neg hne', hother path hpath hne]
  generalize second.write postgresDumpPath (.dump content) = third at *
  split at h
  · cases h
  rename_i dump hdumpFile
  split at h
  · cases h
  rename_i audit hauditFile
  split at h
  · cases h
  rename_i final hfinal
  split at h
  · cases h
  cases h
  obtain ⟨hlast, hload⟩ := Bundle.writeManifest_ok ((hsecond.trans hthird).realRoot.trans hroot)
    ⟨hrest _ (by decide) (by decide) (by decide), hrest _ (by decide) (by decide)
      (by decide)⟩ hfinal
  exact ⟨artifact, dump, audit, hload, (Bundle.hasFile_of_digestFile hdumpFile hdump).mono hlast,
    (Bundle.hasFile_of_digestFile hauditFile ((hsecond.trans hthird).safeBundleFile haudit)).mono
    hlast, hhas.mono (hthird.trans hlast)⟩

/-- Every published bundle is complete for the database it was taken from. -/
theorem backup_complete {server : PostgresServer}
    (h : backup json encode cfg env server = .ok bundle) :
    ∃ run, bundle.Complete json encode server cfg.artifacts run := by
  unfold backup at h
  split_ifs at h
  split at h
  · cases h
  split at h
  · cases h
  · cases h
  rename_i metadata content hmetadata hcontent
  split at h
  · cases h
  rename_i hledger
  split at h
  · cases h
  rename_i records hrecords
  obtain ⟨artifact, dump, audit, hload, hdump, haudit, hhas⟩ := writeBackup_ok h
  exact ⟨⟨content, metadata, records, cfg.now, artifact, dump, audit⟩, hcontent, hmetadata, hledger,
    hrecords, hload, hdump, haudit, hhas⟩

end

end ZeroTrustFL
