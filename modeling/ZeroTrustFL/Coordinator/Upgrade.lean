import Mathlib
import ZeroTrustFL.Lib.OrdList
import ZeroTrustFL.Coordinator.Recovery
import ZeroTrustFL.Coordinator.StoreRefinement

/-!
# Opening a stored state

A coordinator that opens a stored state of any schema writes it back in the current one.
`StateSnapshot.upgraded` says what it writes: the state with the identity of the runtime where it
had none, without what has expired, and with its lists in order.
-/

namespace ZeroTrustFL

/-! ## Registrations -/

namespace RegistrationStore

theorem normalizeLegacyRegistration_idem (e : Registration) :
    normalizeLegacyRegistration (normalizeLegacyRegistration e) =
      normalizeLegacyRegistration e := by
  unfold normalizeLegacyRegistration
  split_ifs with h h'
  · exact absurd h' (show (1 : UInt64) ≠ 0 by decide)
  · rfl
  · rfl

theorem nodeID_normalizeLegacyRegistration (e : Registration) :
    (normalizeLegacyRegistration e).nodeID = e.nodeID := by
  unfold normalizeLegacyRegistration
  split_ifs <;> rfl

theorem generation_normalizeLegacyRegistration (e : Registration) :
    (normalizeLegacyRegistration e).generation ≠ 0 := by
  unfold normalizeLegacyRegistration
  split_ifs with h
  · exact show (1 : UInt64) ≠ 0 by decide
  · exact h

/-- A restore reads generation zero as one. -/
theorem restoreEntries_normalized (now : ℤ) (l : List Registration)
    (m : OrdMap String Registration) :
    l.foldlM (restoreEntry now) m = (l.map normalizeLegacyRegistration).foldlM
      (restoreEntry now) m := by
  have hstep : (fun m e => restoreEntry now m (normalizeLegacyRegistration e)) =
      restoreEntry now := by
    funext m e
    rw [restoreEntry, normalizeLegacyRegistration_idem]
    rfl
  rw [List.foldlM_map, hstep]

/-- What a restore of registrations of distinct nodes has stored. -/
theorem get?_restoreSnapshot {r r' : RegistrationStore} {l : List Registration} {now : ℤ}
    (hl : (l.map Registration.nodeID).Nodup) (h : r.restoreSnapshot l now = (.ok (), r'))
    {n : String} {e : Registration} : r'.entries.get? n = some e ↔
      ∃ x ∈ l, now < e.expiresAt ∧ e.nodeID = n ∧ e = normalizeLegacyRegistration x := by
  unfold restoreSnapshot at h
  rcases hf : l.foldlM (restoreEntry now) ∅ with err | m
  · rw [hf] at h
    cases h
  rw [hf] at h
  cases h
  rw [restoreEntries_normalized] at hf
  have hgeneration : ∀ e ∈ l.map normalizeLegacyRegistration, e.generation ≠ 0 := by
    intro e he
    obtain ⟨x, -, rfl⟩ := List.mem_map.1 he
    exact generation_normalizeLegacyRegistration x
  have hnodes : ((l.map normalizeLegacyRegistration).map Registration.nodeID).Nodup := by
    rw [List.map_map,
      show Registration.nodeID ∘ normalizeLegacyRegistration = Registration.nodeID from
        funext nodeID_normalizeLegacyRegistration]
    exact hl
  have hskip := OrdMap.foldl_insert_skip (fun e : Registration => !decide (now < e.expiresAt))
    Registration.nodeID id (l.map normalizeLegacyRegistration) ∅
  simp only [Bool.not_not, id_eq] at hskip
  rw [restoreEntries_ok hgeneration hf, ← hskip]
  have hget := @OrdMap.get?_foldl_insert_skip _ _ _ _ (fun e : Registration =>
    !decide (now < e.expiresAt)) Registration.nodeID id _ hnodes n e
  simp only [id_eq] at hget
  rw [hget]
  constructor
  · rintro ⟨x, hx, hlive, hnode, rfl⟩
    obtain ⟨raw, hraw, rfl⟩ := List.mem_map.1 hx
    exact ⟨raw, hraw, by simpa using hlive, hnode, rfl⟩
  · rintro ⟨raw, hraw, hlive, hnode, rfl⟩
    exact ⟨_, List.mem_map_of_mem hraw, by simpa using hlive, hnode, rfl⟩

end RegistrationStore

/-! ## The state that is written back -/

/-- The snapshot without what has expired, and with generation zero read as one. -/
def StateSnapshot.unexpired (s : StateSnapshot) (clock : Clock) : StateSnapshot :=
  { s with
    registrations := (s.registrations.map normalizeLegacyRegistration).filter fun entry =>
      clock.read 1 < entry.expiresAt
    nonces := s.nonces.filter fun nonce => !DurableService.nonceExpired (clock.read 0) nonce.seenAt
    rateWindows := s.rateWindows.filter fun window => clock.read 0 - window.startedAt < minute }

/-- The state that a coordinator writes back after it has opened a snapshot. -/
def StateSnapshot.upgraded (s : StateSnapshot) (experiment : ExperimentMetadata) (modelID : String)
    (clock : Clock) : StateSnapshot :=
  ((withModelID (withExperiment s experiment) modelID).unexpired clock).canonical

theorem StateSnapshot.ext {s t : StateSnapshot} (policy : s.policy = t.policy)
    (model : s.model = t.model) (pending : s.pending = t.pending)
    (registrations : s.registrations = t.registrations) (nonces : s.nonces = t.nonces)
    (rateWindows : s.rateWindows = t.rateWindows) : s = t := by
  rcases s with ⟨_, _, _, _, _, _⟩
  rcases t with ⟨_, _, _, _, _, _⟩
  simp only at policy model pending registrations nonces rateWindows
  rw [policy, model, pending, registrations, nonces, rateWindows]

namespace DurableService

variable {d d' : DurableService} {s : StateSnapshot} {clock clock' : Clock}
  {registry : RegistrationStore}

theorem pending_of_restored (h : d.Restored s clock registry d') (clock' : Clock) :
    (d'.captureSnapshot clock').pending = s.pending.insertionSort fun a b =>
      a.nodeID ≤ b.nodeID := by
  have hnodup : (s.pending.map PendingUpdate.nodeID).Nodup := by
    have hvalid := h.valid.updates_nodup
    rwa [d.filled_eq s] at hvalid
  have hkeyed := keyed_restorePending s.pending
  have hsorted : (d'.captureSnapshot clock').pending = (restorePending s.pending).values := by
    rw [h.eq]
    exact hkeyed.insertionSort_values
  rw [hsorted]
  refine eq_insertionSort_of_mem hkeyed.pairwise_values hnodup fun u => ?_
  have hget (n : String) (v : PendingUpdate) :=
    @OrdMap.get?_foldl_insert_skip String _ _ _ (fun _ => false)
    PendingUpdate.nodeID id s.pending hnodup n v
  simp only [Bool.false_eq_true, if_false, id_eq, true_and] at hget
  rw [OrdMap.mem_values_iff]
  constructor
  · rintro ⟨n, hn⟩
    obtain ⟨x, hx, -, rfl⟩ := (hget n u).1 hn
    exact hx
  · intro hu
    exact ⟨u.nodeID, (hget u.nodeID u).2 ⟨u, hu, rfl, rfl⟩⟩

theorem registrations_of_restored (h : d.Restored s clock registry d')
    (hle : clock.read 1 ≤ clock'.read 1) :
    (d'.captureSnapshot clock').registrations =
      (s.unexpired clock').registrations.insertionSort fun a b => a.nodeID ≤ b.nodeID := by
  have hnodup : (s.registrations.map Registration.nodeID).Nodup := by
    have hvalid := ((validateDistinct_ok_iff _ _ _ _ _).1 h.valid.registrations).2.1
    rwa [d.filled_eq s] at hvalid
  have hwell := RegistrationStore.restoreSnapshot_wellFormed (clock.read_pos 1) h.registrations
  have hget (n : String) (e : Registration) :=
    @RegistrationStore.get?_restoreSnapshot _ _ _ _ hnodup h.registrations n e
  rw [show (d'.captureSnapshot clock').registrations =
    (registry.unexpired
      (clock'.read 1)).entries.values by rw [h.eq]; exact RegistrationStore.snapshot_eq hwell _]
  refine eq_insertionSort_of_mem (hwell.unexpired _).keyed.pairwise_values ?_ fun e => ?_
  · refine List.Nodup.sublist (List.filter_sublist.map Registration.nodeID) ?_
    rw [List.map_map,
      show Registration.nodeID ∘ normalizeLegacyRegistration = Registration.nodeID from
        funext RegistrationStore.nodeID_normalizeLegacyRegistration]
    exact hnodup
  · rw [OrdMap.mem_values_iff, StateSnapshot.unexpired]
    simp only [RegistrationStore.get?_unexpired, hget, List.mem_filter, List.mem_map,
      decide_eq_true_eq]
    constructor
    · rintro ⟨n, ⟨x, hx, -, -, rfl⟩, hlive⟩
      exact ⟨⟨x, hx, rfl⟩, hlive⟩
    · rintro ⟨⟨x, hx, rfl⟩, hlive⟩
      exact ⟨_, ⟨x, hx, by omega, rfl, rfl⟩, hlive⟩

theorem nonces_of_restored (h : d.Restored s clock registry d')
    (hle : clock.read 0 ≤ clock'.read 0) :
    (d'.captureSnapshot clock').nonces =
      (s.unexpired clock').nonces.insertionSort fun a b => a.key ≤ b.key := by
  have hnodup : (s.nonces.map PersistedNonce.key).Nodup := by
    have hvalid := ((validateDistinct_ok_iff _ _ _ _ _).1 h.valid.nonces).2.1
    rwa [d.filled_eq s] at hvalid
  have hget (k : String) (t : ℤ) := @OrdMap.get?_foldl_insert_skip String _ _ _
    (fun nonce : PersistedNonce => nonceExpired (clock.read 0) nonce.seenAt) PersistedNonce.key
    PersistedNonce.seenAt s.nonces hnodup k t
  rw [show (d'.captureSnapshot clock').nonces =
    ((restoreNonces (clock.read 0) s.nonces).filter fun _ seenAt =>
      !nonceExpired (clock'.read 0) seenAt).entries.map fun entry =>
      ⟨entry.1, entry.2⟩ by rw [h.eq]; rfl]
  refine eq_insertionSort_of_mem (OrdMap.pairwise_entries _ fun _ => rfl)
    (hnodup.sublist (List.filter_sublist.map _)) fun nonce => ?_
  simp only [StateSnapshot.unexpired, List.mem_map, List.mem_filter, ← OrdMap.get?_eq_some_iff,
    Prod.exists, OrdMap.get?_filter, Option.filter_eq_some_iff]
  constructor
  · rintro ⟨k, t, ⟨hstored, hlive⟩, rfl⟩
    obtain ⟨x, hx, -, rfl, rfl⟩ := (hget k t).1 hstored
    exact ⟨hx, hlive⟩
  · rintro ⟨hmem, hlive⟩
    refine ⟨nonce.key, nonce.seenAt, ⟨(hget _ _).2 ⟨nonce, hmem, ?_, rfl, rfl⟩, hlive⟩, rfl⟩
    simp only [nonceExpired, Bool.not_eq_true', decide_eq_false_iff_not] at hlive ⊢
    omega

theorem rateWindows_of_restored (h : d.Restored s clock registry d')
    (hle : clock.read 0 ≤ clock'.read 0) :
    (d'.captureSnapshot clock').rateWindows =
      (s.unexpired clock').rateWindows.insertionSort fun a b => a.nodeID ≤ b.nodeID := by
  have hchecked := (validateDistinct_ok_iff _ _ _ _ _).1 h.valid.rateWindows
  rw [d.filled_eq s] at hchecked
  have hnodup : (s.rateWindows.map PersistedRateWindow.nodeID).Nodup := hchecked.2.1
  have hget (n : String) (w : UpdateRateWindow) := @OrdMap.get?_foldl_insert_skip String _ _ _
    (fun window : PersistedRateWindow => decide (minute ≤ clock.read 0 - window.startedAt))
    PersistedRateWindow.nodeID (fun window => ⟨window.startedAt, window.count⟩) s.rateWindows
      hnodup n w
  simp only [decide_eq_true_eq, decide_eq_false_iff_not] at hget
  rw [show (d'.captureSnapshot clock').rateWindows =
    ((restoreRates (clock.read 0) s.rateWindows).filter fun _ window =>
      !(isZeroTime window.startedAt || decide
        (minute ≤ clock'.read 0 - window.startedAt))).entries.map fun entry =>
        ⟨entry.1, entry.2.startedAt, entry.2.count⟩ by rw [h.eq]; rfl]
  refine eq_insertionSort_of_mem (OrdMap.pairwise_entries _ fun _ => rfl)
    (hnodup.sublist (List.filter_sublist.map _)) fun window => ?_
  simp only [StateSnapshot.unexpired, List.mem_map, List.mem_filter, ← OrdMap.get?_eq_some_iff,
    Prod.exists, OrdMap.get?_filter, Option.filter_eq_some_iff, isZeroTime, Bool.not_eq_true',
    Bool.or_eq_false_iff, decide_eq_false_iff_not, decide_eq_true_eq]
  constructor
  · rintro ⟨n, w, ⟨hstored, -, hlive⟩, rfl⟩
    obtain ⟨x, hx, -, rfl, rfl⟩ := (hget n w).1 hstored
    exact ⟨hx, not_le.1 hlive⟩
  · rintro ⟨hmem, hlive⟩
    obtain ⟨-, hstarted, -⟩ := (checkPersistedRateWindow_ok_iff _ _).1 (hchecked.1 window hmem)
    exact ⟨window.nodeID, ⟨window.startedAt, window.count⟩,
      ⟨(hget _ _).2 ⟨window, hmem, by omega, rfl, rfl⟩, hstarted, not_le.2 hlive⟩, rfl⟩

/-- The policy of a service that has restored a snapshot is that of the snapshot. -/
theorem currentPolicy_of_restored (h : d.Restored s clock registry d') :
    d'.currentPolicy = (d.filled s).policy := by
  have hexperiment : (d.filled s).policy.experiment =
      { d.experiment with createdAt := (d.filled s).policy.experiment.createdAt } :=
    congrArg StatePolicy.experiment h.policy
  have hcurrent : d'.currentPolicy =
      { d.currentPolicy with experiment := (d.filled s).policy.experiment } := by
    rw [h.eq]
    rfl
  rw [hcurrent, hexperiment]
  exact h.policy.symm

/-- A restored snapshot that is captured again, later. -/
theorem captureSnapshot_of_restored (h : d.Restored s clock registry d')
    (hle : clock.read 0 ≤ clock'.read 0 ∧ clock.read 1 ≤ clock'.read 1) :
    d'.captureSnapshot clock' = s.upgraded d.experiment d.modelID clock' := by
  have hfilled : withModelID (withExperiment s d.experiment) d.modelID =
      { s with policy := (d.filled s).policy } := d.filled_eq s
  have hmodel : (d'.captureSnapshot clock').model = s.model := by
    rw [h.eq]
    rfl
  have hregistrations := registrations_of_restored h hle.2
  have hnonces := nonces_of_restored h hle.1
  have hrateWindows := rateWindows_of_restored h hle.1
  rw [StateSnapshot.upgraded, hfilled]
  exact StateSnapshot.ext (currentPolicy_of_restored h) hmodel (pending_of_restored h clock')
    hregistrations hnonces hrateWindows

end DurableService

/-! ## Opening a store -/

/-- What an opening coordinator commits, with the text in front of a commit that fails. -/
structure Opening where
  durable : DurableService
  snapshot : StateSnapshot
  event : AuditEvent
  context : String

def DurableService.opening (d : DurableService) (type : AuditEventType) (clock : Clock)
    (context : String) : Opening where
  durable := d
  snapshot := d.captureSnapshot (clock.drop 3)
  event := stateAuditEvent type (d.captureSnapshot clock) (clock.read 2)
  context := context

/-- `NewDurableServiceWithIdentity` after the load and before the commit. -/
def prepareOpening (registry : RegistrationStore) (cfg : Config)
    (experimentConfig : ExperimentConfig) (modelID : String) (clock : Clock)
    (loaded : Except Fault (Option StateSnapshot)) : Except Fault Opening :=
  match normalizeModelID modelID with
  | .error e => .error (.error ("configure durable model identity: " ++ e))
  | .ok modelID =>
    match newService registry cfg clock with
    | .error e => .error e
    | .ok service =>
      match newExperimentMetadata experimentConfig
        (DurableService.basePolicy service.settings modelID ⟨"", "", 0⟩) (clock.read 1) with
      | .error e => .error (.error ("configure experiment identity: " ++ e))
      | .ok experiment =>
        match loaded with
        | .error e => .error (e.wrap "load durable coordinator state: ")
        | .ok none =>
          .ok (DurableService.opening ⟨service, experiment, modelID⟩ .stateInitialized
            (clock.drop 2) "initialize durable coordinator state: ")
        | .ok (some snapshot) =>
          match DurableService.restoreSnapshot ⟨service, experiment, modelID⟩ snapshot
              (clock.drop 2) with
          | (.error e, _) => .error (e.wrap "restore durable coordinator state: ")
          | (.ok (), d) =>
            .ok (d.opening .stateRecovered (clock.drop 4) "normalize recovered coordinator state: ")

/-- The commit of an opening in a store, which is left as it was when the opening could not be
prepared. -/
def commitOpening {σ : Type} (st : σ) (commit : StateSnapshot → AuditEvent →
    Except Fault Unit × σ) : Except Fault Opening → Except Fault DurableService × σ
  | .error e => (.error e, st)
  | .ok opening =>
    match commit opening.snapshot opening.event with
    | (.error e, st) => (.error (e.wrap opening.context), st)
    | (.ok (), st) => (.ok opening.durable, st)

/-- `NewDurableServiceWithIdentity` with the store at every exit. -/
def openDurableService (registry : RegistrationStore) (cfg : Config) (st : Store)
    (experimentConfig : ExperimentConfig) (modelID : String) (clock : Clock)
    (outcome : CommitOutcome) : Except Fault DurableService × Store :=
  commitOpening st (fun snapshot event => st.commit snapshot [event] outcome)
    (prepareOpening registry cfg experimentConfig modelID clock st.load)

/-- The constructor over a file. -/
def FileStateStore.openDurableService (encodedSize : DiskState → ℕ) (registry : RegistrationStore)
    (cfg : Config) (file : FileStateStore) (experimentConfig : ExperimentConfig) (modelID : String)
    (clock : Clock) (outcome : CommitOutcome) : Except Fault DurableService × FileStateStore :=
  commitOpening file (fun snapshot _ => file.commit encodedSize snapshot outcome)
    (prepareOpening registry cfg experimentConfig modelID clock file.load)

/-- The constructor over a database. -/
def PostgresStateStore.openDurableService (json : AuditHashEnvelope → Bytes)
    (registry : RegistrationStore) (cfg : Config) (store : PostgresStateStore)
    (experimentConfig : ExperimentConfig) (modelID : String) (clock : Clock) (faults : S3Faults)
    (outcome : CommitOutcome) : Except Fault DurableService × PostgresStateStore :=
  commitOpening (store.load faults.read).2
    (fun snapshot event => (store.load faults.read).2.commitWithAudit json snapshot [event]
      faults outcome)
    (prepareOpening registry cfg experimentConfig modelID clock (store.load faults.read).1)

/-- The service and the store of an opening that succeeds. -/
def opened : Except Fault DurableService × Store → Except Fault DurableState
  | (.error e, _) => .error e
  | (.ok d, st) => .ok ⟨d, st⟩

theorem opened_commitOpening (d : DurableService) (st : Store) (type : AuditEventType)
    (clock : Clock) (outcome : CommitOutcome) (context : String) :
    opened (commitOpening st (fun snapshot event => st.commit snapshot [event] outcome)
      (.ok (d.opening type clock context))) =
      commitCurrentStateWithAudit d st type clock outcome context := by
  simp only [commitOpening, DurableService.opening, commitCurrentStateWithAudit]
  rcases st.commit (d.captureSnapshot (clock.drop 3))
    [stateAuditEvent type (d.captureSnapshot clock) (clock.read 2)] outcome with
    ⟨(e | e) | ⟨⟨⟩⟩, st'⟩
  · rfl
  · rfl
  · rfl

/-- The two ways of stating the constructor agree. -/
theorem opened_openDurableService (registry : RegistrationStore) (cfg : Config) (st : Store)
    (experimentConfig : ExperimentConfig) (modelID : String) (clock : Clock)
    (outcome : CommitOutcome) :
    opened (openDurableService registry cfg st experimentConfig modelID clock outcome) =
      newDurableServiceWithIdentity registry cfg st experimentConfig modelID clock outcome := by
  unfold openDurableService prepareOpening newDurableServiceWithIdentity
  rcases normalizeModelID modelID with e | modelID
  · rfl
  simp only
  rcases newService registry cfg clock with e | service
  · rfl
  simp only
  rcases newExperimentMetadata experimentConfig
    (DurableService.basePolicy service.settings modelID ⟨"", "", 0⟩) (clock.read 1) with
    e | experiment
  · rfl
  simp only [recoverOrInitialize]
  rcases st.load with (e | e) | _ | snapshot
  · rfl
  · rfl
  · exact opened_commitOpening _ _ _ _ _ _
  simp only
  rcases DurableService.restoreSnapshot ⟨service, experiment, modelID⟩ snapshot (clock.drop 2) with
    ⟨(e | e) | ⟨⟨⟩⟩, d⟩
  · rfl
  · rfl
  · rw [Clock.drop_drop]
    exact opened_commitOpening _ _ _ _ _ _

variable {s : StateSnapshot} {registry : RegistrationStore} {clock : Clock} {cfg : Config}
  {experimentConfig : ExperimentConfig} {modelID : String} {st : Store} {version : ℕ}

theorem configured_of_prepareOpening {load : Except Fault (Option StateSnapshot)} {o : Opening}
    (h : prepareOpening registry cfg experimentConfig modelID clock load = .ok o) :
    ∃ d₀ loaded, Configured registry cfg experimentConfig modelID clock d₀ ∧ load = .ok loaded := by
  unfold prepareOpening at h
  rcases hid : normalizeModelID modelID with e | id
  · rw [hid] at h
    cases h
  rcases hservice : newService registry cfg clock with e | service
  · rw [hid, hservice] at h
    cases h
  rcases hexperiment : newExperimentMetadata experimentConfig
    (DurableService.basePolicy service.settings id ⟨"", "", 0⟩) (clock.read 1) with e | experiment
  · rw [hid, hservice] at h
    simp only [hexperiment] at h
    cases h
  rcases load with e | loaded
  · rw [hid, hservice] at h
    simp only [hexperiment] at h
    cases h
  · exact ⟨⟨service, experiment, id⟩, loaded, ⟨hid, hservice, hexperiment⟩, rfl⟩

theorem prepareOpening_ok {o : Opening}
    (h : prepareOpening registry cfg experimentConfig modelID clock (.ok (some s)) = .ok o) :
    ∃ d₀ d, Configured registry cfg experimentConfig modelID clock d₀ ∧
      d₀.restoreSnapshot s (clock.drop 2) = (.ok (), d) ∧
      o = d.opening .stateRecovered (clock.drop 4) "normalize recovered coordinator state: " := by
  obtain ⟨d₀, -, hconf, -⟩ := configured_of_prepareOpening h
  simp only [prepareOpening, hconf.modelID, hconf.service, hconf.experiment] at h
  rcases hrestore : d₀.restoreSnapshot s (clock.drop 2) with ⟨e | ⟨⟨⟩⟩, d⟩
  · rw [hrestore] at h
    cases h
  · rw [hrestore] at h
    cases h
    exact ⟨d₀, d, hconf, hrestore, rfl⟩

/-! ## Other configurations -/

/-- Some value of the runtime configuration is not the persisted one. -/
def DurableService.Differs (d : DurableService) (policy : StatePolicy) : Prop :=
  d.experiment.id ≠ policy.experiment.id ∨
    d.experiment.configSHA256 ≠ policy.experiment.configSHA256 ∨
    d.modelID ≠ policy.modelID ∨ d.service.settings.leaseTTL ≠ policy.leaseTTL ∨
    d.service.settings.maxUpdateBytes ≠ policy.maxUpdateBytes ∨
    d.service.settings.minUpdates ≠ policy.minUpdates ∨
    d.service.settings.maxUpdatesPerMinute ≠ policy.maxUpdatesPerMinute ∨
    d.service.settings.aggregationMethod ≠ policy.aggregationMethod

theorem DurableService.Restored.not_differs {d d' : DurableService}
    (h : d.Restored s clock registry d') (hvalid : s.Valid) : ¬ d.Differs s.policy := by
  obtain ⟨hid, hexp⟩ := validateStatePolicy_ok hvalid.policy
  have hfilled : d.filled s = s := withModelID_withExperiment hid hexp _ _
  have hpolicy := h.policy
  rw [hfilled] at hpolicy
  rw [Differs, hpolicy]
  simp [currentPolicy, basePolicy]

/-- A configuration that differs from the persisted one is refused before any commit. -/
theorem prepareOpening_of_differs (hvalid : s.Valid)
    (h : ∀ d, Configured registry cfg experimentConfig modelID clock d → d.Differs s.policy) :
    ∃ e, prepareOpening registry cfg experimentConfig modelID clock (.ok (some s)) = .error e := by
  rcases hprepare : prepareOpening registry cfg experimentConfig modelID clock
    (.ok (some s)) with e | o
  · exact ⟨e, rfl⟩
  · obtain ⟨d₀, d, hconf, hrestore, -⟩ := prepareOpening_ok hprepare
    obtain ⟨registry', hr⟩ := DurableService.restoreSnapshot_restored hrestore
    exact absurd (h d₀ hconf) (hr.not_differs hvalid)

/-! ## The state that an opening writes -/

/-- Sorted lists stay sorted when entries expire. -/
theorem StateSnapshot.canonical_unexpired (h : s.canonical = s) (clock : Clock) :
    (s.unexpired clock).canonical = s.unexpired clock := by
  have hregistrations : s.registrations.Pairwise fun a b => a.nodeID ≤ b.nodeID := by
    rw [← h]
    exact List.pairwise_insertionSort _ _
  have hnonces : s.nonces.Pairwise fun a b => a.key ≤ b.key := by
    rw [← h]
    exact List.pairwise_insertionSort _ _
  have hrateWindows : s.rateWindows.Pairwise fun a b => a.nodeID ≤ b.nodeID := by
    rw [← h]
    exact List.pairwise_insertionSort _ _
  have hnormalized : (s.registrations.map normalizeLegacyRegistration).Pairwise
      fun a b => a.nodeID ≤ b.nodeID := by
    rw [List.pairwise_map]
    simpa only [RegistrationStore.nodeID_normalizeLegacyRegistration] using hregistrations
  have hpending : s.canonical.pending = s.pending := congrArg StateSnapshot.pending h
  exact StateSnapshot.ext rfl rfl hpending
    (hnormalized.filter _).insertionSort_eq (hnonces.filter _).insertionSort_eq
    (hrateWindows.filter _).insertionSort_eq

/-- What a coordinator writes when it opens a state of the current schema. -/
theorem StateSnapshot.Storable.upgraded (h : s.Storable) (experiment : ExperimentMetadata)
    (modelID : String) (clock : Clock) :
    s.upgraded experiment modelID clock = s.unexpired clock := by
  obtain ⟨hid, hexp⟩ := validateStatePolicy_ok h.valid.policy
  rw [StateSnapshot.upgraded, withModelID_withExperiment hid hexp, canonical_unexpired h.sorted]

/-- The identity of what is written is the persisted one wherever there is one. -/
theorem StateSnapshot.policy_upgraded (s : StateSnapshot) (experiment : ExperimentMetadata)
    (modelID : String) (clock : Clock) :
    (s.upgraded experiment modelID clock).policy = { s.policy with
      experiment := if experimentMetadataMissing s.policy.experiment then experiment
        else s.policy.experiment
      modelID := if s.policy.modelID = "" then modelID else s.policy.modelID } := by
  simp only [StateSnapshot.upgraded, StateSnapshot.canonical, StateSnapshot.unexpired, withModelID,
    withExperiment]
  split_ifs <;> rfl

theorem StateSnapshot.model_upgraded (s : StateSnapshot) (experiment : ExperimentMetadata)
    (modelID : String) (clock : Clock) : (s.upgraded experiment modelID clock).model = s.model := by
  simp only [StateSnapshot.upgraded, StateSnapshot.canonical, StateSnapshot.unexpired, withModelID,
    withExperiment]
  split_ifs <;> rfl

/-- What a coordinator prepares to write for a loaded state. -/
theorem snapshot_of_prepareOpening {o : Opening}
    (h : prepareOpening registry cfg experimentConfig modelID clock (.ok (some s)) = .ok o) :
    ∃ d₀, Configured registry cfg experimentConfig modelID clock d₀ ∧
      o.snapshot = s.upgraded d₀.experiment d₀.modelID (clock.drop 7) ∧
      (o.snapshot.Valid → o.snapshot.Storable) := by
  obtain ⟨d₀, d, hconf, hrestore, rfl⟩ := prepareOpening_ok h
  obtain ⟨registry', hr⟩ := DurableService.restoreSnapshot_restored hrestore
  refine ⟨d₀, hconf, ?_, fun hvalid => ?_⟩
  · refine DurableService.captureSnapshot_of_restored hr ?_
    exact ⟨clock.read_le_read (by decide), clock.read_le_read (by decide)⟩
  · obtain ⟨-, -, -, hkeyed, hwf, hnonces, hrates⟩ := DurableService.restoreSnapshot_ok hrestore
    exact (DurableService.recoverable_of_valid hvalid hkeyed hwf hnonces hrates).storable le_rfl

/-- A coordinator that has opened a state has written it back, and is ready. -/
theorem state_new {outcome : CommitOutcome} {d : DurableState}
    (hstate : st.state = some (version, s))
    (h : newDurableServiceWithIdentity registry cfg st experimentConfig modelID clock outcome =
      .ok d) :
    ∃ d₀, Configured registry cfg experimentConfig modelID clock d₀ ∧
      d.store.state =
        some (coordinatorStateSchemaVersion, s.upgraded d₀.experiment d₀.modelID (clock.drop 7)) ∧
      (s.upgraded d₀.experiment d₀.modelID (clock.drop 7)).Storable ∧ d.Ready clock.finish ∧
      d.durable.service.settings = d₀.service.settings ∧ d.durable.modelID = d₀.modelID ∧
      sameExperimentIdentity d.durable.experiment d₀.experiment = true := by
  obtain ⟨d₀, hconf, hrec⟩ := newDurableServiceWithIdentity_ok h
  rcases recoverOrInitialize_ok hrec with ⟨hload, -⟩ | ⟨s', d₁, hload, hrestore, hstart⟩
  · have hpersisted := Store.load_ok hload
    rw [Store.persisted, hstate] at hpersisted
    cases hpersisted
  · have hpersisted := Store.load_ok hload
    rw [Store.persisted, hstate] at hpersisted
    cases hpersisted
    obtain ⟨registry', hr⟩ := DurableService.restoreSnapshot_restored hrestore
    obtain ⟨hsettings, hid, hexp, -⟩ := DurableService.restoreSnapshot_ok hrestore
    obtain rfl : d₁ = d.durable := hstart.durable.symm
    have hcaptured : d.durable.captureSnapshot (clock.drop 7) =
        s.upgraded d₀.experiment d₀.modelID (clock.drop 7) :=
      DurableService.captureSnapshot_of_restored hr
        ⟨clock.read_le_read (by decide), clock.read_le_read (by decide)⟩
    obtain ⟨hstarted, hrecoverable⟩ := started_recovered hrestore hstart
    have hstorable := hrecoverable.storable le_rfl
    have hwritten : d.store.state =
        some (coordinatorStateSchemaVersion, d.durable.captureSnapshot (clock.drop 7)) := by
      rw [hstarted.store]
      rfl
    rw [hcaptured] at hwritten hstorable
    exact ⟨d₀, hconf, hwritten, hstorable, DurableState.ready_of_started
      (.inr rfl) hstarted hrecoverable, hsettings, hid, hexp⟩

/-- Whatever becomes of the commit, an opening leaves a stored state as it was or without what has
expired. -/
theorem state_openDurableService (hs : s.Storable)
    (hstate : st.state = some (coordinatorStateSchemaVersion, s)) (registry : RegistrationStore)
    (cfg : Config) (experimentConfig : ExperimentConfig) (modelID : String) (clock : Clock)
    (outcome : CommitOutcome) :
    (openDurableService registry cfg st experimentConfig modelID clock outcome).2.state =
        some (coordinatorStateSchemaVersion, s) ∨
      (openDurableService registry cfg st experimentConfig modelID clock outcome).2.state =
        some (coordinatorStateSchemaVersion, s.unexpired (clock.drop 7)) := by
  unfold openDurableService
  rw [Store.load_of_valid hs.valid hstate]
  rcases hprepare : prepareOpening registry cfg experimentConfig modelID clock
    (.ok (some s)) with e | o
  · exact .inl hstate
  obtain ⟨d₀, -, hsnapshot, -⟩ := snapshot_of_prepareOpening hprepare
  rw [hs.upgraded] at hsnapshot
  rw [commitOpening, hsnapshot]
  rcases st.commit_eq (s.unexpired (clock.drop 7)) [o.event] outcome with
    ⟨e, -, hcommit⟩ | ⟨-, ⟨-, hcommit⟩ | ⟨applied | applied, message, -, hcommit⟩⟩
  · rw [hcommit]
    exact .inl hstate
  · rw [hcommit]
    exact .inr rfl
  · rw [hcommit]
    exact .inl hstate
  · rw [hcommit]
    exact .inr rfl

/-! ## The two backends -/

theorem checkLoaded_ok {context : String} {t : StateSnapshot}
    (h : checkLoaded context s version = .ok (some t)) :
    s = t ∧ validateStateSnapshotForSchema s version = .ok () := by
  unfold checkLoaded at h
  rcases hvalid : validateStateSnapshotForSchema s version with e | ⟨⟨⟩⟩
  · rw [hvalid] at h
    cases h
  · rw [hvalid] at h
    cases h
    exact ⟨rfl, rfl⟩

/-- A store loads a state that passes the check of its schema. -/
theorem Store.load_of_schema (hstate : st.state = some (version, s))
    (hvalid : validateStateSnapshotForSchema s version = .ok ()) : st.load = .ok (some s) := by
  rw [Store.load, hstate]
  simp only [hvalid]

/-- A file that loads a state stands for a store with it. -/
theorem FileStateStore.refines_of_load {file : FileStateStore} (h : file.load = .ok (some s)) :
    ∃ version, file.Refines ⟨false, some (version, s), []⟩ := by
  have hload := h
  unfold load at h
  split at h
  · cases h
  · cases h
  · cases h
  split at h
  · cases h
  split at h
  · cases h
  split at h
  · cases h
  split at h
  · cases h
  split at h
  · cases h
  obtain ⟨rfl, hvalid⟩ := checkLoaded_ok h
  rename_i encoded _ _ _ _ _
  exact ⟨encoded.schemaVersion, rfl, ⟨by simp, by simp⟩,
    hload.trans (Store.load_of_schema rfl hvalid).symm⟩

/-- An opening of a file is an opening of the store that it stands for. -/
theorem FileStateStore.openDurableService_refines {encodedSize : DiskState → ℕ}
    {file file' : FileStateStore} {outcome : CommitOutcome} {d : DurableService}
    (hfile : file.Refines st) (hload : file.load = .ok (some s))
    (h : file.openDurableService encodedSize registry cfg experimentConfig modelID clock outcome =
      (.ok d, file')) :
    ∃ st', ZeroTrustFL.openDurableService registry cfg st experimentConfig modelID clock outcome =
        (.ok d, st') ∧ file'.Refines st' := by
  unfold openDurableService at h
  unfold ZeroTrustFL.openDurableService
  rw [← hfile.loads]
  rw [hload] at h ⊢
  rcases hprepare : prepareOpening registry cfg experimentConfig modelID clock
    (.ok (some s)) with e | o
  · rw [hprepare] at h
    cases h
  obtain ⟨-, -, -, hstorable⟩ := snapshot_of_prepareOpening hprepare
  rw [hprepare] at h
  simp only [commitOpening] at h ⊢
  rcases hcommit : file.commit encodedSize o.snapshot outcome with ⟨e | ⟨⟨⟩⟩, written⟩
  · rw [hcommit] at h
    cases h
  rw [hcommit] at h
  cases h
  -- A commit that succeeds has checked the snapshot and its size.
  have hchecked : o.snapshot.Valid ∧
      encodedSize ⟨coordinatorStateSchemaVersion, o.snapshot.canonical⟩ ≤
      maxCoordinatorStateBytes := by
    unfold commit at hcommit
    rcases hvalid : validateStateSnapshot o.snapshot with e | ⟨⟨⟩⟩
    · rw [hvalid] at hcommit
      cases hcommit
    rw [hvalid] at hcommit
    simp only at hcommit
    split at hcommit
    · cases hcommit
    · rename_i hsize
      exact ⟨(validateStateSnapshot_ok_iff _).1 hvalid, not_lt.1 hsize⟩
  have hs := hstorable hchecked.1
  have hsize := hchecked.2
  rw [hs.sorted] at hsize
  obtain ⟨hanswer, hrefines⟩ := commit_refines hfile hs hsize [o.event] outcome
  rw [hcommit] at hanswer hrefines
  generalize st.commit o.snapshot [o.event] outcome = committed at hanswer hrefines
  rcases committed with ⟨e | ⟨⟨⟩⟩, st'⟩
  · cases hanswer
  · exact ⟨st', rfl, hrefines⟩

namespace PostgresStateStore

variable {json : AuditHashEnvelope → Bytes}

/-- Loading changes neither the row nor the audit table. -/
theorem load_frame (store : PostgresStateStore) (fault : Option String) :
    (store.load fault).2.state = store.state ∧ (store.load fault).2.audit = store.audit := by
  have hattach (row : StateRow) : (store.attachArtifact fault row).2.state = store.state ∧
      (store.attachArtifact fault row).2.audit = store.audit := by
    unfold attachArtifact
    split
    · exact ⟨rfl, rfl⟩
    split
    · split
      · exact ⟨rfl, rfl⟩
      split
      · exact ⟨rfl, rfl⟩
      split
      · exact ⟨rfl, rfl⟩
      split
      · exact ⟨rfl, rfl⟩
      split
      · exact ⟨rfl, rfl⟩
      · exact ⟨rfl, rfl⟩
    · exact ⟨rfl, rfl⟩
  unfold load
  split
  · exact ⟨rfl, rfl⟩
  rename_i row _
  split
  · exact ⟨rfl, rfl⟩
  split
  · exact ⟨rfl, rfl⟩
  split
  · exact ⟨rfl, rfl⟩
  have hrow := hattach row
  generalize store.attachArtifact fault row = attached at hrow
  rcases attached with ⟨e | model, attached⟩
  · exact hrow
  · exact hrow

/-- A state that is loaded from a database passes the check of the schema of its row. -/
theorem schema_of_load {store : PostgresStateStore} {fault : Option String} {s : StateSnapshot}
    (h : (store.load fault).1 = .ok (some s)) :
    ∃ version, validateStateSnapshotForSchema s version = .ok () := by
  unfold load at h
  split at h
  · cases h
  split at h
  · cases h
  split at h
  · cases h
  split at h
  · cases h
  split at h
  · cases h
  · obtain ⟨rfl, hvalid⟩ := checkLoaded_ok h
    exact ⟨_, hvalid⟩

theorem normalized_stateAuditEvent (type : AuditEventType) (snapshot : StateSnapshot) (now : ℤ) :
    (stateAuditEvent type snapshot now).normalized = stateAuditEvent type snapshot now := by
  simp only [AuditEvent.normalized, stateAuditEvent, newAuditEvent, normalizeAuditTime,
    truncateMicrosecond_idem]

/-- An opening of a database is an opening of the store with the state that is loaded from it. -/
theorem openDurableService_refines {registry : RegistrationStore} {cfg : Config}
    {store store' : PostgresStateStore} {experimentConfig : ExperimentConfig} {modelID : String}
    {clock : Clock} {faults : S3Faults} {outcome : CommitOutcome} {s : StateSnapshot}
    {d : DurableService} {records : List AuditRecord} {head : AuditExpectation}
    (hload : (store.load faults.read).1 = .ok (some s))
    (hchain : Chained json store.audit records head)
    (hfree : ∀ artifacts ∈ (store.load faults.read).2.artifacts,
      artifacts.CollisionFree s.model.weightsPayload)
    (h : store.openDurableService json registry cfg experimentConfig modelID clock faults outcome =
      (.ok d, store')) :
    ∃ version st', ZeroTrustFL.openDurableService registry cfg
        ⟨true, some (version, s), records.map AuditRecord.event⟩ experimentConfig modelID clock
        .success = (.ok d, st') ∧ Refines json store' st' := by
  obtain ⟨version, hversion⟩ := schema_of_load hload
  refine ⟨version, ?_⟩
  unfold openDurableService at h
  unfold ZeroTrustFL.openDurableService
  rw [Store.load_of_schema rfl hversion]
  rw [hload] at h
  rw [← (store.load_frame faults.read).2] at hchain
  generalize (store.load faults.read).2 = loaded at h hchain hfree
  rcases hprepare : prepareOpening registry cfg experimentConfig modelID clock
    (.ok (some s)) with e | o
  · rw [hprepare] at h
    cases h
  obtain ⟨d₀, -, hsnapshot, hstorable⟩ := snapshot_of_prepareOpening hprepare
  obtain ⟨_, _, -, -, hopening⟩ := prepareOpening_ok hprepare
  have hevent : [o.event].map AuditEvent.normalized = [o.event] := by
    rw [hopening]
    exact congrArg (fun event => [event]) (normalized_stateAuditEvent _ _ _)
  have hcollision : loaded.CollisionFree o.snapshot := by
    rw [CollisionFree, hsnapshot, s.model_upgraded]
    exact hfree
  rw [hprepare] at h
  simp only [commitOpening] at h ⊢
  unfold commitWithAudit at h
  rw [hevent] at h
  rcases hvalid : validateStateSnapshot o.snapshot with e | ⟨⟨⟩⟩
  · rw [hvalid] at h
    cases h
  rcases hevents : Store.validateAuditEvents 0 [o.event] with e | ⟨⟨⟩⟩
  · simp only [hvalid, hevents] at h
    cases h
  rcases hrow : loaded.persistModel "persist global model artifact for audited state: "
    o.snapshot.canonical faults with ⟨e | row, middle⟩
  · simp only [hvalid, hevents, hrow] at h
    cases h
  rcases happend : appendAuditEventsTx json middle.audit [o.event] with e | audit
  · simp only [hvalid, hevents, hrow, happend] at h
    cases h
  simp only [hvalid, hevents, hrow, happend] at h
  rcases outcome with _ | ⟨applied, message⟩
  · cases h
    have hs := hstorable ((validateStateSnapshot_ok_iff _).1 hvalid)
    refine ⟨Store.apply ⟨true, some (version, s), records.map AuditRecord.event⟩ o.snapshot
      [o.event], ?_,
      refines_written rfl ⟨records, head, hchain, rfl⟩ hs hcollision hevents hrow happend⟩
    simp only [Store.commit, Store.checkCommit, hvalid, if_true, hevents]
  · cases h

end PostgresStateStore

/-! ## Upgrades -/

/-- Opening a stored state keeps the experiment: the state is written back in the current schema
with the identity of the runtime only where it had none and without what has expired; opening it
again only lets more expire, and other configurations are refused and change nothing. -/
theorem upgrade_keeps_experiment {registry : RegistrationStore} {cfg : Config} {st : Store}
    {experimentConfig : ExperimentConfig} {modelID : String} {clock : Clock}
    {outcome : CommitOutcome} {version : ℕ} {s : StateSnapshot} {d : DurableState}
    (hstate : st.state = some (version, s))
    (h : newDurableServiceWithIdentity registry cfg st experimentConfig modelID clock outcome =
      .ok d) :
    ∃ d₀ w, Configured registry cfg experimentConfig modelID clock d₀ ∧
      d.store.state = some (coordinatorStateSchemaVersion, w) ∧
      w = s.upgraded d₀.experiment d₀.modelID (clock.drop 7) ∧
      w.model = s.model ∧
      w.policy = { s.policy with
        experiment :=
          if experimentMetadataMissing s.policy.experiment then d₀.experiment
          else s.policy.experiment
        modelID := if s.policy.modelID = "" then d₀.modelID else s.policy.modelID } ∧
      (∀ registry' clock', clock.finish ≤ clock'.start →
        (∃ d', newDurableServiceWithIdentity registry' cfg d.store experimentConfig modelID clock'
          .success = .ok d' ∧
          d'.store.state = some (coordinatorStateSchemaVersion, w.unexpired (clock'.drop 7))) ∧
        ∀ outcome',
          (openDurableService registry' cfg d.store experimentConfig modelID clock'
            outcome').2.state = some (coordinatorStateSchemaVersion, w) ∨
            (openDurableService registry' cfg d.store experimentConfig modelID clock'
              outcome').2.state =
              some (coordinatorStateSchemaVersion, w.unexpired (clock'.drop 7))) ∧
      ∀ registry' cfg' experimentConfig' modelID' clock' outcome',
        (∀ d₁, Configured registry' cfg' experimentConfig' modelID' clock' d₁ →
          d₁.Differs w.policy) →
        ∃ e, openDurableService registry' cfg' d.store experimentConfig' modelID' clock' outcome' =
          (.error e, d.store) := by
  obtain ⟨d₀, hconf, hwritten, hstorable, hready, hsettings, hid, hexp⟩ := state_new hstate h
  refine ⟨d₀, _, hconf, hwritten, rfl, s.model_upgraded _ _ _, s.policy_upgraded _ _ _, ?_, ?_⟩
  · intro registry' clock' hlater
    have hle : clock.read 1 ≤ clock'.read 1 :=
      (clock.le_finish 1).trans (hlater.trans (clock'.start_le_read 1))
    obtain ⟨d', hd'⟩ := @DurableState.Ready.restart _ _ _ registry' _ _ _ _ _ _ hready hconf
      hsettings hid hexp hle hlater
    obtain ⟨d₁, -, hrewritten, -⟩ := state_new hwritten hd'
    rw [hstorable.upgraded] at hrewritten
    exact ⟨⟨d', hd', hrewritten⟩, fun outcome' =>
      state_openDurableService hstorable hwritten registry' cfg experimentConfig modelID
        clock' outcome'⟩
  · intro registry' cfg' experimentConfig' modelID' clock' outcome' hdiffers
    obtain ⟨e, he⟩ := prepareOpening_of_differs hstorable.valid hdiffers
    refine ⟨e, ?_⟩
    unfold openDurableService
    rw [Store.load_of_valid hstorable.valid hwritten, he]
    rfl

/-- A state of the first schema: it has no identity, the registration of `worker-1` has no
generation, and that of `worker-2` and one of the nonces have expired. -/
def legacySnapshot : StateSnapshot where
  policy := ⟨5 * minute, 8388608, 1, 60, "median", "", ⟨"", "", 0⟩⟩
  model := bootstrapModel (unixTime 1690000000)
  pending := []
  registrations :=
    [⟨"worker-2", "worker", "cd34", "registration-2", unixTime 1690000000, 0, 0, ""⟩,
      ⟨"worker-1", "worker", "ab12", "registration-1", unixTime 1700000100, 0, 0, ""⟩]
  nonces := [⟨"worker-1:00", unixTime 1699999990⟩, ⟨"worker-1:01", unixTime 1690000000⟩]
  rateWindows := [⟨"worker-1", unixTime 1699999990, 3⟩]

/-- The coordinator that opens the state. -/
def upgradedDurable : DurableState :=
  let durable : DurableService :=
    { DurableState.sampleDurable.durable with
      service := { Service.sampleService with
        registry := ⟨OrdMap.ofList [("worker-1",
          ⟨"worker-1", "worker", "ab12", "registration-1", unixTime 1700000100, 1, 0, ""⟩)]⟩
        model := bootstrapModel (unixTime 1690000000)
        nonces := OrdMap.ofList [("worker-1:00", unixTime 1699999990)]
        rates := OrdMap.ofList [("worker-1", ⟨unixTime 1699999990, 3⟩)] } }
  let snapshot := durable.captureSnapshot (Service.sampleEnv 0 0).clock
  ⟨durable, Store.apply ⟨true, some (1, legacySnapshot), []⟩ snapshot
    [stateAuditEvent .stateRecovered snapshot (unixTime 1700000000)]⟩

theorem upgrade_legacySnapshot :
    newDurableServiceWithIdentity newRegistrationStore ⟨0, 0, none, 1, 0, ""⟩
        ⟨true, some (1, legacySnapshot), []⟩ DurableState.sampleExperiment "global-model"
        (Service.sampleEnv 0 0).clock .success = .ok upgradedDurable ∧
      ∃ w, upgradedDurable.store.state = some (3, w) ∧ w.model = legacySnapshot.model := by
  have hnew : newDurableServiceWithIdentity newRegistrationStore ⟨0, 0, none, 1, 0, ""⟩
      ⟨true, some (1, legacySnapshot), []⟩ DurableState.sampleExperiment "global-model"
      (Service.sampleEnv 0 0).clock .success = .ok upgradedDurable := by decide +kernel
  obtain ⟨-, w, -, hwritten, -, hmodel, -⟩ := upgrade_keeps_experiment rfl hnew
  exact ⟨hnew, w, hwritten, hmodel⟩

end ZeroTrustFL
