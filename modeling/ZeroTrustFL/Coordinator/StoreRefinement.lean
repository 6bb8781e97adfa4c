import Mathlib
import ZeroTrustFL.Coordinator.AuditPages
import ZeroTrustFL.Coordinator.StateStoreProof
import ZeroTrustFL.Coordinator.DurableProof

/-!
# The stores of a durable coordinator

The snapshots that a coordinator captures are sorted and have persistable registrations.  On them
the file store and the PostgreSQL store behave as the store that the durable coordinator is stated
over: every commit has the answer of an abstract commit and leads to related stores, and related
stores load the same state.
-/

namespace ZeroTrustFL

/-- A valid snapshot that a store returns as it was committed. -/
structure StateSnapshot.Storable (s : StateSnapshot) : Prop where
  valid : s.Valid
  sorted : s.canonical = s
  persistable : ∀ r ∈ s.registrations, r.Persistable

/-- The entries of a map are in the order of their keys. -/
theorem insertionSort_entries {ν α : Type} (m : OrdMap String ν) (make : String × ν → α)
    (key : α → String) (hkey : ∀ e, key (make e) = e.1) :
    (m.entries.map make).insertionSort (fun a b => key a ≤ key b) = m.entries.map make := by
  have hsorted : (m.entries.map make).Pairwise fun a b => key a ≤ key b := by
    rw [List.pairwise_map]
    have hkeys := m.sorted
    rw [List.pairwise_map] at hkeys
    refine hkeys.imp fun {a b} hlt => ?_
    rw [hkey, hkey]
    exact le_of_lt hlt
  exact hsorted.insertionSort_eq

theorem DurableService.Recoverable.storable {d : DurableService} {t : ℤ} (h : d.Recoverable t)
    {clock : Clock} (ht : t ≤ clock.read 1) : (d.captureSnapshot clock).Storable where
  valid := h.valid ht
  sorted := by
    have hpending : (d.captureSnapshot clock).canonical.pending =
        (d.captureSnapshot clock).pending := by
      change (d.captureSnapshot clock).pending.insertionSort _ = _
      rw [pending_captureSnapshot h.sound.toRoundSound]
      exact h.sound.keyed.insertionSort_values
    have hregistrations : (d.captureSnapshot clock).canonical.registrations =
        (d.captureSnapshot clock).registrations := by
      change (d.captureSnapshot clock).registrations.insertionSort _ = _
      rw [registrations_captureSnapshot h.sound.wellFormed]
      exact (h.sound.wellFormed.unexpired _).keyed.insertionSort_values
    have hnonces : (d.captureSnapshot clock).canonical.nonces = (d.captureSnapshot clock).nonces :=
      insertionSort_entries _ _ _ fun _ => rfl
    have hrates : (d.captureSnapshot clock).canonical.rateWindows =
        (d.captureSnapshot clock).rateWindows :=
      insertionSort_entries _ _ _ fun _ => rfl
    generalize d.captureSnapshot clock = s at *
    rcases s with ⟨policy, model, pending, registrations, nonces, rateWindows⟩
    simp only [StateSnapshot.canonical, StateSnapshot.mk.injEq, true_and]
    exact ⟨hpending, hregistrations, hnonces, hrates⟩
  persistable := by
    intro r hr
    rw [registrations_captureSnapshot h.sound.wellFormed] at hr
    obtain ⟨n, hn⟩ := (OrdMap.mem_values_iff _).1 hr
    have hwell := h.sound.wellFormed.unexpired (clock.read 1) n r hn
    exact ⟨hwell.generation, hwell.reason_size, hwell.no_reason, hwell.reason, hwell.revoked_le⟩

/-- The abstract store loads a valid snapshot of the current schema. -/
theorem Store.load_of_valid {st : Store} {s : StateSnapshot} (hvalid : s.Valid)
    (hstate : st.state = some (coordinatorStateSchemaVersion, s)) : st.load = .ok (some s) := by
  rw [Store.load, hstate]
  simp only [validateStateSnapshotForSchema]
  rw [if_pos (by decide), if_neg hvalid.modelID_ne_empty, (validateStateSnapshot_ok_iff s).2 hvalid]

/-! ## The file store -/

/-- A file that the coordinator writes, beside the store without audit that it stands for. -/
structure FileStateStore.Refines (file : FileStateStore) (st : Store) : Prop where
  unaudited : st.audited = false
  writable : file ≠ symlink ∧ file ≠ irregular
  loads : file.load = st.load

theorem FileStateStore.refines_write {encodedSize : DiskState → ℕ} {st : Store} {s : StateSnapshot}
    (hs : s.Storable) (hunaudited : st.audited = false)
    (hsize : encodedSize ⟨coordinatorStateSchemaVersion, s⟩ ≤ maxCoordinatorStateBytes)
    (events : List AuditEvent) : (write encodedSize s).Refines (st.apply s events) where
  unaudited := hunaudited
  writable := ⟨by simp [write], by simp [write]⟩
  loads := by
    have hload := (load_write_iff hs.valid (hs.sorted.symm ▸ hsize)).2 hs.persistable
    rw [hload, hs.sorted, Store.load_of_valid hs.valid rfl]

/-- Commits of storable snapshots that fit into the file. -/
theorem FileStateStore.commit_refines {encodedSize : DiskState → ℕ} {file : FileStateStore}
    {st : Store} {s : StateSnapshot} (h : file.Refines st) (hs : s.Storable)
    (hsize : encodedSize ⟨coordinatorStateSchemaVersion, s⟩ ≤ maxCoordinatorStateBytes)
    (events : List AuditEvent) (outcome : CommitOutcome) :
    (file.commit encodedSize s outcome).1 = (st.commit s events outcome).1 ∧
      (file.commit encodedSize s outcome).2.Refines (st.commit s events outcome).2 := by
  have hvalid := (validateStateSnapshot_ok_iff s).2 hs.valid
  have hcheck : st.checkCommit s events = .ok () := by
    simp only [Store.checkCommit, hvalid, h.unaudited, Bool.false_eq_true, if_false]
  have hwritten := refines_write hs h.unaudited hsize events
  simp only [commit, hvalid, hs.sorted, if_neg (not_lt.2 hsize), Store.commit, hcheck]
  rcases file with _ | _ | _ | ⟨size, content⟩
  · rcases outcome with _ | ⟨applied | applied, message⟩
    · exact ⟨rfl, hwritten⟩
    · exact ⟨rfl, h⟩
    · exact ⟨rfl, hwritten⟩
  · exact absurd rfl h.writable.1
  · exact absurd rfl h.writable.2
  · rcases outcome with _ | ⟨applied | applied, message⟩
    · exact ⟨rfl, hwritten⟩
    · exact ⟨rfl, h⟩
    · exact ⟨rfl, hwritten⟩

/-! ## The PostgreSQL store -/

namespace PostgresStateStore

variable {json : AuditHashEnvelope → Bytes}

/-- A database that the coordinator writes, beside the store with audit that it stands for. -/
structure Refines (json : AuditHashEnvelope → Bytes) (store : PostgresStateStore) (st : Store) :
    Prop where
  audited : st.audited = true
  state : store.state = none ∧ st.state = none ∨
    ∃ s, s.Storable ∧ store.Holds s ∧ st.state = some (coordinatorStateSchemaVersion, s)
  chain : ∃ records head, Chained json store.audit records head ∧
    records.map AuditRecord.event = st.chain

theorem refines_empty (artifacts : Option ArtifactStore) :
    Refines json ⟨none, .empty, artifacts⟩ ⟨true, none, []⟩ where
  audited := rfl
  state := .inl ⟨rfl, rfl⟩
  chain := ⟨[], .first, chained_empty, rfl⟩

/-- Persisting a model changes only the artifact store. -/
theorem persistModel_frame (store : PostgresStateStore) (context : String)
    (canonical : StateSnapshot) (faults : S3Faults) :
    (store.persistModel context canonical faults).2.state = store.state ∧
      (store.persistModel context canonical faults).2.audit = store.audit ∧
      ((store.persistModel context canonical faults).2.artifacts = store.artifacts ∨
        ∃ artifacts, store.artifacts = some artifacts ∧
          (store.persistModel context canonical faults).2.artifacts =
            some (artifacts.put faults canonical.model.weightsPayload).2) := by
  unfold persistModel
  split
  · exact ⟨rfl, rfl, .inl rfl⟩
  · rename_i artifacts hartifacts
    split_ifs
    · rcases hput : artifacts.put faults canonical.model.weightsPayload with ⟨e | ref, artifacts'⟩
      · exact ⟨rfl, rfl, .inr ⟨artifacts, hartifacts, by rw [hput]⟩⟩
      · simp only
        split_ifs
        · exact ⟨rfl, rfl, .inr ⟨artifacts, hartifacts, by rw [hput]⟩⟩
        · exact ⟨rfl, rfl, .inr ⟨artifacts, hartifacts, by rw [hput]⟩⟩
    · exact ⟨rfl, rfl, .inl rfl⟩

/-- What is held stays when another model is persisted. -/
theorem Holds.persistModel {store : PostgresStateStore} {s : StateSnapshot} (h : store.Holds s)
    (context : String) (canonical : StateSnapshot) (faults : S3Faults) :
    (store.persistModel context canonical faults).2.Holds s := by
  obtain ⟨hstate, -, hartifacts⟩ := store.persistModel_frame context canonical faults
  rcases h with hrow | ⟨artifacts, ref, hrow, hstore, hkeeps⟩
  · exact .inline (hstate.trans hrow)
  · rcases hartifacts with hsame | ⟨artifacts', hstore', hput⟩
    · exact .artifact artifacts ref (hstate.trans hrow) (hsame.trans hstore) hkeeps
    · rw [hstore] at hstore'
      cases hstore'
      exact .artifact _ ref (hstate.trans hrow) hput (hkeeps.put faults _)

theorem Refines.persistModel {store : PostgresStateStore} {st : Store} (h : Refines json store st)
    (context : String) (canonical : StateSnapshot) (faults : S3Faults) :
    Refines json (store.persistModel context canonical faults).2 st := by
  obtain ⟨hstate, haudit, -⟩ := store.persistModel_frame context canonical faults
  refine ⟨h.audited, ?_, by rw [haudit]; exact h.chain⟩
  rcases h.state with ⟨hstore, hst⟩ | ⟨s, hs, hholds, hst⟩
  · exact .inl ⟨hstate.trans hstore, hst⟩
  · exact .inr ⟨s, hs, hholds.persistModel context canonical faults, hst⟩

/-- A transaction that is written with its row and its events. -/
theorem refines_written {store middle : PostgresStateStore} {st : Store} {s : StateSnapshot}
    {context : String} {faults : S3Faults} {row : StateRow} {events : List AuditEvent}
    {audit : AuditTable} (haudited : st.audited = true)
    (hchain : ∃ records head, Chained json store.audit records head ∧
      records.map AuditRecord.event = st.chain) (hs : s.Storable) (hfree : store.CollisionFree s)
    (hevents : Store.validateAuditEvents 0 events = .ok ())
    (hrow : store.persistModel context s.canonical faults = (.ok row, middle))
    (happend : appendAuditEventsTx json middle.audit events = .ok audit) :
    Refines json { middle with state := some row, audit } (st.apply s events) := by
  refine ⟨haudited, .inr ⟨s, hs, holds_of_persistModel hfree hrow rfl rfl, rfl⟩, ?_⟩
  have hframe := (store.persistModel_frame context s.canonical faults).2.1
  rw [hrow] at hframe
  obtain ⟨records, head, hchain, hrecorded⟩ := hchain
  rw [← show middle.audit = store.audit from hframe] at hchain
  obtain ⟨more, next, hmore, hadded⟩ :=
    appendAuditEventsTx_chained hchain
      ((Store.validateAuditEvents_ok_iff 0 events).1 hevents) happend
  refine ⟨records ++ more, next, hmore, ?_⟩
  rw [List.map_append, hrecorded, hadded, Store.apply, if_pos haudited]

/-- The audited commit of a storable snapshot is one of the abstract commits. -/
theorem commitWithAudit_refines {store : PostgresStateStore} {st : Store} {s : StateSnapshot}
    (h : Refines json store st) (hs : s.Storable) (hfree : store.CollisionFree s)
    (events : List AuditEvent) (faults : S3Faults) (outcome : CommitOutcome) :
    ∃ outcome', (store.commitWithAudit json s events faults outcome).1 =
        (st.commit s (events.map AuditEvent.normalized) outcome').1 ∧
      Refines json (store.commitWithAudit json s events faults outcome).2
        (st.commit s (events.map AuditEvent.normalized) outcome').2 := by
  have hvalid := (validateStateSnapshot_ok_iff s).2 hs.valid
  unfold commitWithAudit
  generalize events.map AuditEvent.normalized = events
  simp only [hvalid, Store.commit, Store.checkCommit, h.audited, if_true]
  rcases haudit : Store.validateAuditEvents 0 events with e | ⟨⟨⟩⟩
  · exact ⟨.success, rfl, h⟩
  -- The payload is stored before the transaction, so a failure from here on can leave it behind.
  have hpersisted := h.persistModel "persist global model artifact for audited state: "
    s.canonical faults
  rcases hrow : store.persistModel "persist global model artifact for audited state: "
    s.canonical faults with ⟨e | row, middle⟩
  · rw [hrow] at hpersisted
    exact ⟨.failure false e, rfl, hpersisted⟩
  rw [hrow] at hpersisted
  simp only
  rcases happend : appendAuditEventsTx json middle.audit events with e | audit
  · exact ⟨.failure false e, rfl, hpersisted⟩
  have hwritten := refines_written h.audited h.chain hs hfree haudit hrow happend
  refine ⟨outcome, ?_⟩
  rcases outcome with _ | ⟨applied | applied, message⟩
  · exact ⟨rfl, hwritten⟩
  · exact ⟨rfl, hpersisted⟩
  · exact ⟨rfl, hwritten⟩

/-- The databases that coordinators have written, one captured snapshot after the other. -/
inductive Written (json : AuditHashEnvelope → Bytes) : PostgresStateStore → Prop
  | start (artifacts : Option ArtifactStore) : Written json ⟨none, .empty, artifacts⟩
  | commit {store : PostgresStateStore} (written : Written json store) {d : DurableService} {t : ℤ}
      (recoverable : d.Recoverable t) {clock : Clock} (time : t ≤ clock.read 1)
      (free : store.CollisionFree (d.captureSnapshot clock)) (events : List AuditEvent)
      (faults : S3Faults) (outcome : CommitOutcome) :
      Written json (store.commitWithAudit json (d.captureSnapshot clock) events faults outcome).2

/-- Whatever a coordinator has written stands for an abstract store. -/
theorem Written.refines {store : PostgresStateStore} (h : Written json store) :
    ∃ st, Refines json store st := by
  induction h with
  | start artifacts => exact ⟨_, refines_empty artifacts⟩
  | commit _ recoverable time free events faults outcome ih =>
    obtain ⟨st, hst⟩ := ih
    obtain ⟨outcome', -, hafter⟩ :=
      commitWithAudit_refines hst (recoverable.storable time) free events faults outcome
    exact ⟨_, hafter⟩

end PostgresStateStore

end ZeroTrustFL
