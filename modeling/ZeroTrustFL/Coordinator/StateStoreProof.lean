import Mathlib
import ZeroTrustFL.Lib.CheckedFold
import ZeroTrustFL.Coordinator.StateStore
import ZeroTrustFL.Coordinator.SnapshotProof

/-!
# What a store commits and what it loads

Sorting keeps a snapshot valid, the artifact store returns what was put into it, and the decoder of
registrations reads back exactly the persistable ones.  `Commit` does not check the last property,
so a committed state loads unchanged exactly when all of its registrations have it.
-/

namespace ZeroTrustFL

/-! ## Registrations -/

/-- What the decoder asks of a registration beyond the checks before a commit, and that it leaves it
unchanged. -/
structure Registration.Persistable (r : Registration) : Prop where
  generation : r.generation ≠ 0
  reason_size : r.revocationReason.utf8ByteSize ≤ maxRegistrationRevocationReasonBytes
  no_reason : r.revokedAt = 0 → r.revocationReason = ""
  reason : r.revokedAt ≠ 0 → trimSpace r.revocationReason ≠ ""
  revoked_le : r.revokedAt ≠ 0 → r.revokedAt ≤ r.expiresAt

theorem unmarshalRegistration_ok {r entry : Registration}
    (h : unmarshalRegistration r = .ok entry) : entry = normalizeLegacyRegistration r := by
  unfold unmarshalRegistration at h
  simp only at h
  split_ifs at h
  cases h
  rfl

theorem unmarshalRegistration_eq_self_iff {r : Registration}
    (hcheck : checkPersistedRegistration r = .ok ()) :
    unmarshalRegistration r = .ok r ↔ r.Persistable := by
  obtain ⟨hnode, hrole, hfingerprint, hid, hexpires⟩ :=
    (checkPersistedRegistration_ok_iff r).1 hcheck
  by_cases hgeneration : r.generation = 0
  · -- The decoder reads generation zero as one.
    constructor
    · intro h
      have hsame := congrArg Registration.generation (unmarshalRegistration_ok h)
      rw [normalizeLegacyRegistration, if_pos hgeneration, hgeneration] at hsame
      cases hsame
    · intro h
      exact absurd hgeneration h.generation
  · have hnormal : normalizeLegacyRegistration r = r := by
      rw [normalizeLegacyRegistration, if_neg hgeneration]
    unfold unmarshalRegistration
    simp only [hnormal, hnode, hrole, hfingerprint, hid, isZeroTime, hexpires, or_self,
      decide_false, Bool.false_eq_true, if_false, decide_eq_true_eq, Bool.not_eq_true',
      decide_eq_false_iff_not]
    split_ifs with h₁ h₂ h₃ h₄
    · simp only [false_iff]
      exact fun h => absurd h.reason_size (not_le.2 h₁)
    · simp only [false_iff]
      exact fun h => h₂.2 (h.no_reason h₂.1)
    · simp only [false_iff]
      exact fun h => h.reason h₃.1 h₃.2
    · simp only [false_iff]
      exact fun h => absurd (h.revoked_le h₄.1) (not_le.2 h₄.2)
    · refine iff_of_true rfl ⟨hgeneration, not_lt.1 h₁, ?_, ?_, ?_⟩
      · exact fun h => by_contra fun hne => h₂ ⟨h, hne⟩
      · exact fun h hblank => h₃ ⟨h, hblank⟩
      · exact fun h => not_lt.1 fun hlt => h₄ ⟨h, hlt⟩

/-! ## Sorted snapshots -/

theorem validateDistinct_perm {α : Type} {check : α → Except String Unit} {key : α → String}
    {duplicate : String → String} {xs ys : List α} (h : xs.Perm ys)
    (hok : validateDistinct check key duplicate [] ys = .ok ()) :
    validateDistinct check key duplicate [] xs = .ok () := by
  rw [validateDistinct_ok_iff] at hok ⊢
  obtain ⟨hcheck, hnodup, -⟩ := hok
  exact ⟨fun x hx => hcheck x (h.subset hx), (h.map key).nodup_iff.2 hnodup, by simp⟩

variable {s : StateSnapshot}

/-- The checks do not depend on the order of the lists. -/
theorem StateSnapshot.Valid.canonical (h : s.Valid) : s.canonical.Valid := by
  have hpending := s.pending.perm_insertionSort fun a b => a.nodeID ≤ b.nodeID
  obtain ⟨n, hmodel, hlength⟩ := h.model
  exact {
    policy := h.policy
    model := ⟨n, hmodel, hlength.subset hpending.subset⟩
    quorum := by
      rw [show s.canonical.pending.length = s.pending.length from hpending.length_eq]
      exact h.quorum
    updates := fun u hu => h.updates u (hpending.subset hu)
    updates_nodup := (hpending.map _).nodup_iff.2 h.updates_nodup
    registrations := validateDistinct_perm (List.perm_insertionSort _ _) h.registrations
    nonces := validateDistinct_perm (List.perm_insertionSort _ _) h.nonces
    rateWindows := validateDistinct_perm (List.perm_insertionSort _ _) h.rateWindows }

theorem StateSnapshot.Valid.modelID_ne_empty (h : s.Valid) :
    s.policy.modelID ≠ "" := by
  intro hempty
  have hpolicy := h.policy
  unfold validateStatePolicy at hpolicy
  rw [hempty] at hpolicy
  have hblank : validatePersistedModelID "" = .error "model id is required" := by decide +kernel
  split_ifs at hpolicy
  split at hpolicy
  · cases hpolicy
  · split_ifs at hpolicy
    rw [hblank] at hpolicy
    cases hpolicy

theorem StateSnapshot.Valid.modelVersion_ne_empty (h : s.Valid) :
    s.model.modelVersion ≠ "" := by
  intro hempty
  obtain ⟨n, hmodel, -⟩ := h.model
  unfold validateSnapshotModel at hmodel
  rw [hempty, if_pos (by decide)] at hmodel
  cases hmodel

theorem StateSnapshot.Valid.checkPersistedRegistration (h : s.Valid) :
    ∀ r ∈ s.registrations, checkPersistedRegistration r = .ok () := by
  have hregistrations := h.registrations
  unfold validateRegistrations at hregistrations
  exact ((validateDistinct_ok_iff _ _ _ _ _).1 hregistrations).1

/-- The registrations of a valid snapshot are read back unchanged when all of them are
persistable. -/
theorem StateSnapshot.Valid.unmarshal_iff (h : s.Valid) :
    s.canonical.registrations.mapM unmarshalRegistration = .ok s.canonical.registrations ↔
      ∀ r ∈ s.registrations, r.Persistable := by
  have hperm := s.registrations.perm_insertionSort fun a b => a.nodeID ≤ b.nodeID
  rw [mapM_ok_iff, List.forall₂_same]
  constructor
  · intro hall r hr
    exact (unmarshalRegistration_eq_self_iff (h.checkPersistedRegistration r hr)).1
      (hall r (hperm.symm.subset hr))
  · intro hall r hr
    have hmem := hperm.subset hr
    exact (unmarshalRegistration_eq_self_iff (h.checkPersistedRegistration r hmem)).2 (hall r hmem)

/-- A loaded state is a valid one of the current schema with the registrations that were decoded. -/
theorem checkLoaded_ok_iff (h : s.Valid) (context : String) (registrations : List Registration) :
    checkLoaded context { s.canonical with registrations } coordinatorStateSchemaVersion =
        .ok (some s.canonical) ↔ registrations = s.canonical.registrations := by
  constructor
  · intro hok
    unfold checkLoaded at hok
    split at hok
    · cases hok
    · have hsame := Option.some.inj (Except.ok.inj hok)
      exact congrArg StateSnapshot.registrations hsame
  · rintro rfl
    have hvalid : validateStateSnapshotForSchema s.canonical coordinatorStateSchemaVersion =
        .ok () := by
      rw [validateStateSnapshotForSchema, if_pos (by decide), if_neg h.canonical.modelID_ne_empty]
      exact (validateStateSnapshot_ok_iff _).2 h.canonical
    unfold checkLoaded
    rw [show ({ s.canonical with registrations := s.canonical.registrations } : StateSnapshot) =
      s.canonical from rfl, hvalid]

/-! ## The file store -/

theorem FileStateStore.commit_ok {encodedSize : DiskState → ℕ} {file file' : FileStateStore}
    {snapshot : StateSnapshot} {outcome : CommitOutcome}
    (h : file.commit encodedSize snapshot outcome = (.ok (), file')) :
    snapshot.Valid ∧ encodedSize ⟨coordinatorStateSchemaVersion, snapshot.canonical⟩ ≤
      maxCoordinatorStateBytes ∧ file' = write encodedSize snapshot := by
  unfold commit at h
  split at h
  · cases h
  · rename_i hvalid
    split_ifs at h with hsize
    · cases h
    refine ⟨(validateStateSnapshot_ok_iff snapshot).1 hvalid, not_lt.1 hsize, ?_⟩
    rcases outcome with _ | ⟨applied, message⟩
    · rcases file with _ | _ | _ | ⟨size, content⟩ <;> cases h <;> rfl
    · rcases file with _ | _ | _ | ⟨size, content⟩ <;> cases h

theorem FileStateStore.load_write_iff {encodedSize : DiskState → ℕ} {snapshot : StateSnapshot}
    (hvalid : snapshot.Valid)
    (hsize : encodedSize ⟨coordinatorStateSchemaVersion, snapshot.canonical⟩ ≤
      maxCoordinatorStateBytes) :
    (write encodedSize snapshot).load = .ok (some snapshot.canonical) ↔
      ∀ r ∈ snapshot.registrations, r.Persistable := by
  have hmodel : snapshot.canonical.model ≠ emptyGlobalModel := by
    intro heq
    exact hvalid.modelVersion_ne_empty (congrArg GlobalModel.modelVersion heq)
  rw [← hvalid.unmarshal_iff, write, load, if_neg (not_lt.2 hsize)]
  simp only
  split
  · rename_i e he
    simp [he]
  · rename_i registrations hok
    rw [if_neg (by decide), if_neg hmodel, checkLoaded_ok_iff hvalid, hok, Except.ok.injEq]

/-! ## The artifact store -/

namespace ArtifactStore

/-- Reading changes nothing but what counts as verified. -/
theorem get_frame (store : ArtifactStore) (fault : Option String) (ref : ModelArtifactRef) :
    (store.get fault ref).2.bucket = store.bucket ∧
      (store.get fault ref).2.keyPrefix = store.keyPrefix ∧
      (store.get fault ref).2.objects = store.objects := by
  unfold get
  split
  · exact ⟨rfl, rfl, rfl⟩
  · split
    · exact ⟨rfl, rfl, rfl⟩
    · split
      · exact ⟨rfl, rfl, rfl⟩
      · split_ifs
        · exact ⟨rfl, rfl, rfl⟩
        · exact ⟨rfl, rfl, rfl⟩
        · exact ⟨rfl, rfl, rfl⟩

variable {ref : ModelArtifactRef}

/-- A read that succeeds returns the object under the key, with the digest of the reference. -/
theorem get_ok {store : ArtifactStore} {fault : Option String} {data : Bytes}
    (h : (store.get fault ref).1 = .ok data) :
    store.validateReference ref = .ok () ∧ store.objects.get? ref.key = some data ∧
      (data.length : ℤ) = ref.sizeBytes ∧ sha256 data = ref.sha256 := by
  unfold get at h
  split at h
  · cases h
  rename_i href
  split at h
  · cases h
  split at h
  · cases h
  rename_i stored hobject
  split_ifs at h with hsize hdigest
  cases h
  exact ⟨href, hobject, not_not.1 hsize, hdigest⟩

theorem get_succeeds {store : ArtifactStore} {data : Bytes}
    (href : store.validateReference ref = .ok ()) (hobject : store.objects.get? ref.key = some data)
    (hsize : (data.length : ℤ) = ref.sizeBytes) (hdigest : sha256 data = ref.sha256) :
    (store.get none ref).1 = .ok data := by
  unfold get
  split
  · rename_i e he
    rw [href] at he
    cases he
  · simp only
    split
    · rename_i hnone
      rw [hobject] at hnone
      cases hnone
    · rename_i stored hstored
      rw [hobject] at hstored
      cases hstored
      rw [if_neg (not_not.2 hsize), dif_pos hdigest]

/-- A call to `Put` leaves the objects alone or adds the payload under its key. -/
theorem put_frame (store : ArtifactStore) (faults : S3Faults) (payload : Bytes) :
    (store.put faults payload).2.bucket = store.bucket ∧
      (store.put faults payload).2.keyPrefix = store.keyPrefix ∧
      ((store.put faults payload).2.objects = store.objects ∨
        store.objects.get? (artifactKey store.keyPrefix (sha256 payload)) = none ∧
          (store.put faults payload).2.objects = (store.upload payload).objects) := by
  unfold put
  simp only
  split_ifs with hempty hlarge hcached
  · exact ⟨rfl, rfl, .inl rfl⟩
  · exact ⟨rfl, rfl, .inl rfl⟩
  · exact ⟨rfl, rfl, .inl rfl⟩
  · split
    · exact ⟨rfl, rfl, .inl rfl⟩
    split
    · split_ifs
      · exact ⟨rfl, rfl, .inl rfl⟩
      obtain ⟨hbucket, hpath, hobjects⟩ := store.get_frame faults.read
        (store.referenceForDigest (sha256 payload) payload.length)
      rcases hget : store.get faults.read (store.referenceForDigest (sha256 payload) payload.length)
        with ⟨e | existing, after⟩
      · rw [hget] at hbucket hpath hobjects
        exact ⟨hbucket, hpath, .inl hobjects⟩
      · rw [hget] at hbucket hpath hobjects
        simp only
        split_ifs
        · exact ⟨hbucket, hpath, .inl hobjects⟩
        · exact ⟨hbucket, hpath, .inl hobjects⟩
    · rename_i hnone
      split
      · rename_i applied message _
        cases applied
        · exact ⟨rfl, rfl, .inl rfl⟩
        · exact ⟨rfl, rfl, .inr ⟨hnone, rfl⟩⟩
      · obtain ⟨hbucket, hpath, hobjects⟩ := (store.upload payload).get_frame faults.read
          (store.referenceForDigest (sha256 payload) payload.length)
        rcases hget : (store.upload payload).get faults.read
          (store.referenceForDigest (sha256 payload) payload.length) with ⟨e | persisted, after⟩
        · rw [hget] at hbucket hpath hobjects
          exact ⟨hbucket, hpath, .inr ⟨hnone, hobjects⟩⟩
        · rw [hget] at hbucket hpath hobjects
          simp only
          split_ifs
          · exact ⟨hbucket, hpath, .inr ⟨hnone, hobjects⟩⟩
          · exact ⟨hbucket, hpath, .inr ⟨hnone, hobjects⟩⟩

/-- No stored object other than the payload has its digest. -/
def CollisionFree (store : ArtifactStore) (payload : Bytes) : Prop :=
  ∀ key data, store.objects.get? key = some data → sha256 data = sha256 payload → data = payload

/-- A payload that was put is stored under its reference. -/
theorem put_ok {store store' : ArtifactStore} {faults : S3Faults} {payload : Bytes}
    (hfree : store.CollisionFree payload) (h : store.put faults payload = (.ok ref, store')) :
    ref = store.referenceForDigest (sha256 payload) payload.length ∧
      (0 < payload.length ∧ payload.length ≤ maxCoordinatorStateBytes) ∧
      store'.bucket = store.bucket ∧ store'.keyPrefix = store.keyPrefix ∧
      store'.objects.get? ref.key = some payload := by
  unfold put at h
  simp only at h
  split_ifs at h with hempty hlarge hcached
  · cases h
  · cases h
  · -- The digest was verified before, so an object with this digest is stored.
    cases h
    obtain ⟨data, hdata, hdigest⟩ := store.sound _ hcached
    rw [hfree _ data hdata hdigest] at hdata
    exact ⟨rfl, ⟨by omega, by omega⟩, rfl, rfl, hdata⟩
  · split at h
    · cases h
    split at h
    · rename_i stored hstored
      split_ifs at h with hsize
      · cases h
      obtain ⟨hbucket, hpath, hobjects⟩ := store.get_frame faults.read
        (store.referenceForDigest (sha256 payload) payload.length)
      have hread := @get_ok (store.referenceForDigest (sha256 payload) payload.length) store
        faults.read
      rcases hget : store.get faults.read (store.referenceForDigest (sha256 payload) payload.length)
        with ⟨e | existing, after⟩
      · rw [hget] at h
        cases h
      · rw [hget] at h hbucket hpath hobjects hread
        simp only at h
        split_ifs at h with hsame
        · cases h
        cases h
        obtain ⟨-, hobject, -⟩ := hread rfl
        rw [← hobjects, not_not.1 hsame] at hobject
        exact ⟨rfl, ⟨by omega, by omega⟩, hbucket, hpath, hobject⟩
    · split at h
      · cases h
      · obtain ⟨hbucket, hpath, hobjects⟩ := (store.upload payload).get_frame faults.read
          (store.referenceForDigest (sha256 payload) payload.length)
        rcases hget : (store.upload payload).get faults.read
          (store.referenceForDigest (sha256 payload) payload.length) with ⟨e | persisted, after⟩
        · rw [hget] at h
          cases h
        · rw [hget] at h hbucket hpath hobjects
          simp only at h
          split_ifs at h with hsame
          · cases h
          cases h
          refine ⟨rfl, ⟨by omega, by omega⟩, hbucket, hpath, ?_⟩
          rw [hobjects]
          exact (OrdMap.get?_insert _ _ _ _).trans (if_pos rfl)

/-- The payload of a model is the object of a reference. -/
structure Keeps (store : ArtifactStore) (model : GlobalModel) (ref : ModelArtifactRef) : Prop where
  valid : store.validateReference ref = .ok ()
  object : store.objects.get? ref.key = some model.weightsPayload
  size : (model.weightsPayload.length : ℤ) = ref.sizeBytes
  digest : sha256 model.weightsPayload = ref.sha256
  model_digest : model.sha256 = ref.sha256

theorem keeps_of_put {store store' : ArtifactStore} {faults : S3Faults} {model : GlobalModel}
    (hfree : store.CollisionFree model.weightsPayload)
    (h : store.put faults model.weightsPayload = (.ok ref, store'))
    (hdigest : model.sha256 = ref.sha256) : store'.Keeps model ref := by
  obtain ⟨rfl, ⟨hpos, hmax⟩, hbucket, hpath, hobject⟩ := put_ok hfree h
  refine ⟨validateReference_ok_iff.2 ⟨hbucket.symm, length_sha256 _, ⟨?_, ?_⟩, ?_⟩,
    hobject, rfl, rfl, hdigest⟩
  · exact Int.natCast_pos.2 hpos
  · exact Int.ofNat_le.2 hmax
  · rw [hpath]
    rfl

/-- What is kept stays when another payload is put. -/
theorem Keeps.put {store : ArtifactStore} {model : GlobalModel} (h : store.Keeps model ref)
    (faults : S3Faults) (payload : Bytes) : (store.put faults payload).2.Keeps model ref := by
  obtain ⟨hbucket, hpath, hobjects⟩ := store.put_frame faults payload
  refine ⟨?_, ?_, h.size, h.digest, h.model_digest⟩
  · rw [validateReference_ok_iff, hbucket, hpath, ← validateReference_ok_iff]
    exact h.valid
  · rcases hobjects with hsame | ⟨hnone, hadded⟩
    · rw [hsame]
      exact h.object
    · have hne : ref.key ≠ artifactKey store.keyPrefix (sha256 payload) := by
        intro heq
        rw [← heq, h.object] at hnone
        cases hnone
      rw [hadded]
      exact (OrdMap.get?_insert_of_ne _ _ hne).trans h.object

end ArtifactStore

/-! ## The PostgreSQL store -/

namespace PostgresStateStore

/-- The store holds a snapshot, with the payload of the model in the row or in the artifact
store. -/
inductive Holds (store : PostgresStateStore) (snapshot : StateSnapshot) : Prop
  | inline (hstate : store.state = some (stateRow snapshot.canonical none))
  | artifact (artifacts : ArtifactStore) (ref : ModelArtifactRef)
      (hstate : store.state = some (stateRow snapshot.canonical (some ref)))
      (hartifacts : store.artifacts = some artifacts) (hkeeps : artifacts.Keeps snapshot.model ref)

/-- No object of the artifact store other than the payload of the model has its digest. -/
def CollisionFree (store : PostgresStateStore) (snapshot : StateSnapshot) : Prop :=
  ∀ artifacts ∈ store.artifacts, artifacts.CollisionFree snapshot.model.weightsPayload

/-- Once the row of a persisted model is written, the store holds the snapshot. -/
theorem holds_of_persistModel {store middle after : PostgresStateStore} {context : String}
    {snapshot : StateSnapshot} {faults : S3Faults} {row : StateRow}
    (hfree : store.CollisionFree snapshot)
    (h : store.persistModel context snapshot.canonical faults = (.ok row, middle))
    (hstate : after.state = some row) (hartifacts : after.artifacts = middle.artifacts) :
    after.Holds snapshot := by
  unfold persistModel at h
  split at h
  · cases h
    exact .inline hstate
  · rename_i artifacts hstore
    split_ifs at h with hpayload
    · rcases hput : artifacts.put faults snapshot.canonical.model.weightsPayload with
        ⟨e | ref, artifacts'⟩
      · rw [hput] at h
        cases h
      · rw [hput] at h
        simp only at h
        split_ifs at h with hdigest
        · cases h
        · cases h
          exact .artifact artifacts' ref hstate hartifacts
            (ArtifactStore.keeps_of_put (hfree artifacts hstore) hput (not_not.1 hdigest))
    · cases h
      exact .inline hstate

theorem finish_ok {store after : PostgresStateStore} {row : StateRow} {audit : AuditTable}
    {outcome : CommitOutcome} (h : store.finish row audit outcome = (.ok (), after)) :
    after = { store with state := some row, audit } := by
  rcases outcome with _ | ⟨applied, message⟩
  · cases h
    rfl
  · cases h

theorem holds_of_commit {store after : PostgresStateStore} {snapshot : StateSnapshot}
    {faults : S3Faults} {outcome : CommitOutcome} (hfree : store.CollisionFree snapshot)
    (h : store.commit snapshot faults outcome = (.ok (), after)) :
    snapshot.Valid ∧ after.Holds snapshot := by
  unfold commit at h
  split at h
  · cases h
  rename_i hvalid
  rcases hrow : store.persistModel "persist global model artifact: " snapshot.canonical faults with
    ⟨e | row, middle⟩
  · rw [hrow] at h
    cases h
  · rw [hrow] at h
    have hafter := finish_ok h
    exact ⟨(validateStateSnapshot_ok_iff snapshot).1 hvalid,
      holds_of_persistModel hfree hrow (by rw [hafter]) (by rw [hafter])⟩

/-- The model of a held snapshot is put together again. -/
theorem attachArtifact_of_keeps {store : PostgresStateStore} {artifacts : ArtifactStore}
    {snapshot : StateSnapshot} {ref : ModelArtifactRef}
    (hartifacts : store.artifacts = some artifacts) (hkeeps : artifacts.Keeps snapshot.model ref) :
    (store.attachArtifact none (stateRow snapshot (some ref))).1 = .ok snapshot.model := by
  have hlength : ref.sha256.length ≠ 0 := by
    rw [← hkeeps.digest, length_sha256]
    decide
  have hget := ArtifactStore.get_succeeds hkeeps.valid hkeeps.object hkeeps.size hkeeps.digest
  unfold attachArtifact stateRow
  simp only [Option.isNone_some, Bool.false_eq_true, false_and, if_false, if_neg hlength,
    hartifacts, List.length_nil, ne_eq, not_true_eq_false, hkeeps.model_digest]
  rcases hread : artifacts.get none ⟨ref.bucket, ref.key, ref.sha256, ref.sizeBytes⟩ with
    ⟨e | payload, artifacts'⟩
  · rw [hread] at hget
    cases hget
  · rw [hread] at hget
    cases hget
    rw [← hkeeps.model_digest]

/-- A held snapshot loads unchanged exactly when its registrations are persistable. -/
theorem load_iff_of_holds {store : PostgresStateStore} {snapshot : StateSnapshot}
    (hvalid : snapshot.Valid) (h : store.Holds snapshot) :
    (store.load none).1 = .ok (some snapshot.canonical) ↔ ∀ r ∈ snapshot.registrations,
      r.Persistable := by
  obtain ⟨ref, hstate, hattach⟩ : ∃ ref, store.state = some (stateRow snapshot.canonical ref) ∧
      (store.attachArtifact none (stateRow snapshot.canonical ref)).1 =
      .ok snapshot.canonical.model := by
    rcases h with hstate | ⟨artifacts, ref, hstate, hartifacts, hkeeps⟩
    · exact ⟨none, hstate, rfl⟩
    · exact ⟨some ref, hstate, @attachArtifact_of_keeps _ _ snapshot.canonical _ hartifacts hkeeps⟩
  have hrow : (stateRow snapshot.canonical ref).schemaVersion = coordinatorStateSchemaVersion ∧
      (stateRow snapshot.canonical ref).state.registrations = snapshot.canonical.registrations ∧
      (stateRow snapshot.canonical ref).state.model.modelVersion = snapshot.model.modelVersion ∧
      ∀ registrations, { (stateRow snapshot.canonical ref).state with
        model := snapshot.canonical.model, registrations } =
          { snapshot.canonical with registrations } := by
    rcases ref with _ | ref
    · exact ⟨rfl, rfl, rfl, fun _ => rfl⟩
    · exact ⟨rfl, rfl, rfl, fun _ => rfl⟩
  obtain ⟨hversion, hregistrations, hmodelVersion, hsame⟩ := hrow
  have hmodel : (stateRow snapshot.canonical ref).state.model ≠ emptyGlobalModel := by
    intro heq
    rw [heq] at hmodelVersion
    exact hvalid.modelVersion_ne_empty hmodelVersion.symm
  rw [← hvalid.unmarshal_iff, load, hstate]
  simp only [hversion, hregistrations, if_neg hmodel]
  rw [if_neg (by decide)]
  split
  · rename_i e he
    simp [he]
  · rename_i registrations hok
    rcases hresult : store.attachArtifact none (stateRow snapshot.canonical ref) with
      ⟨e | model, after⟩
    · rw [hresult] at hattach
      cases hattach
    · rw [hresult] at hattach
      cases hattach
      simp only [hsame, checkLoaded_ok_iff hvalid, hok, Except.ok.injEq]

end PostgresStateStore

/-- What a store has committed it loads again, with sorted lists, exactly when every registration
has a generation, and a revocation reason of at most 256 bytes if and only if it is revoked, no
later than its lease expires. -/
theorem load_commit_iff (snapshot : StateSnapshot) :
    (∀ (encodedSize : DiskState → ℕ) (file file' : FileStateStore) (outcome : CommitOutcome),
      file.commit encodedSize snapshot outcome = (.ok (), file') →
      (file'.load = .ok (some snapshot.canonical) ↔ ∀ r ∈ snapshot.registrations, r.Persistable)) ∧
    ∀ (store store' : PostgresStateStore) (faults : S3Faults) (outcome : CommitOutcome),
      store.CollisionFree snapshot → store.commit snapshot faults outcome = (.ok (), store') →
      ((store'.load none).1 = .ok (some snapshot.canonical) ↔
        ∀ r ∈ snapshot.registrations, r.Persistable) := by
  constructor
  · intro encodedSize file file' outcome hcommit
    obtain ⟨hvalid, hsize, rfl⟩ := FileStateStore.commit_ok hcommit
    exact FileStateStore.load_write_iff hvalid hsize
  · intro store store' faults outcome hfree hcommit
    obtain ⟨hvalid, hholds⟩ := PostgresStateStore.holds_of_commit hfree hcommit
    exact PostgresStateStore.load_iff_of_holds hvalid hholds

/-- A state with a model of one weight and one registration. -/
def sampleSnapshot (revokedAt : ℤ) : StateSnapshot :=
  let payload := (encodeNPYFloat32 [1.5]).toOption.getD []
  { policy := ⟨minute, 1000, 2, 10, "median", defaultModelID, legacyExperimentValidationPlaceholder⟩
    model := { emptyGlobalModel with
      modelVersion := "round-1"
      roundID := 1
      weightsPayload := payload
      weightsFormat := networkWeightsFormat
      sha256 := sha256 payload }
    pending := []
    registrations := [⟨"worker-1", "worker", "ab12", "registration-1", unixTime 1700000001, 1,
      revokedAt, ""⟩]
    nonces := []
    rateWindows := [] }

def sampleArtifacts : ArtifactStore where
  bucket := "models"
  keyPrefix := "experiment"
  objects := ∅
  verified := []
  sound := by simp

def samplePostgres (artifacts : Option ArtifactStore) : PostgresStateStore :=
  ⟨none, .empty, artifacts⟩

theorem load_commit_sampleSnapshot :
    (FileStateStore.missing.commit (fun _ => 0) (sampleSnapshot 0) .success).2.load =
        .ok (some (sampleSnapshot 0).canonical) ∧
      (((samplePostgres none).commit (sampleSnapshot 0) .none .success).2.load none).1 =
        .ok (some (sampleSnapshot 0).canonical) ∧
      (((samplePostgres (some sampleArtifacts)).commit
        (sampleSnapshot 0) .none .success).2.load none).1 =
        .ok (some (sampleSnapshot 0).canonical) := by
  have hpersistable : ∀ r ∈ (sampleSnapshot 0).registrations, r.Persistable := by
    intro r hr
    rw [List.mem_singleton.1 hr]
    exact ⟨by decide, by decide, by decide, by decide, by decide⟩
  have hfile : (FileStateStore.missing.commit (fun _ => 0) (sampleSnapshot 0) .success).1 =
      .ok () := by
    decide +kernel
  have hinline : ((samplePostgres none).commit (sampleSnapshot 0) .none .success).1 = .ok () := by
    decide +kernel
  have hartifact : ((samplePostgres (some sampleArtifacts)).commit
      (sampleSnapshot 0) .none .success).1 = .ok () := by
    decide +kernel
  have hfree : (samplePostgres (some sampleArtifacts)).CollisionFree (sampleSnapshot 0) := by
    rintro artifacts ⟨⟩ key data ⟨⟩
  have hpair {α : Type} (x : Except Fault Unit × α) (h : x.1 = .ok ()) : x = (.ok (), x.2) :=
    Prod.ext h rfl
  obtain ⟨hfiles, hstores⟩ := load_commit_iff (sampleSnapshot 0)
  refine ⟨?_, ?_, ?_⟩
  · exact (hfiles _ _ _ _ (hpair _ hfile)).2 hpersistable
  · exact (hstores _ _ _ _ (by rintro artifacts ⟨⟩) (hpair _ hinline)).2 hpersistable
  · exact (hstores _ _ _ _ hfree (hpair _ hartifact)).2 hpersistable

/-- A registration that is revoked without a reason is committed by every store and refused by the
decoder of the next load. -/
theorem committed_state_not_loadable :
    (FileStateStore.missing.commit (fun _ => 0) (sampleSnapshot 1) .success).1 = .ok () ∧
      (FileStateStore.missing.commit (fun _ => 0) (sampleSnapshot 1) .success).2.load =
        .error
        (.error ("decode coordinator state: revoked registration requires a revocation reason")) ∧
      ((samplePostgres (some sampleArtifacts)).commit (sampleSnapshot 1) .none .success).1 =
        .ok () ∧
      (((samplePostgres (some sampleArtifacts)).commit
        (sampleSnapshot 1) .none .success).2.load none).1 =
        .error (.error ("decode PostgreSQL registrations: revoked registration requires a " ++
          "revocation reason")) := by
  decide +kernel

end ZeroTrustFL
