import Mathlib
import ZeroTrustFL.Lib.Threads
import ZeroTrustFL.Coordinator.Recovery
import ZeroTrustFL.Coordinator.Sections

/-!
# Concurrent calls of the durable coordinator

A call of the durable coordinator holds `persistenceMu` from its first section to its last one.  The
service inside has locks of its own, and can be read between the sections: after the service has run
and before the commit, and before memory is restored when the commit fails.
-/

namespace ZeroTrustFL

/-- What the errors of a failed commit call the transition. -/
def Request.operation : Request → String
  | .registerNode _ => "registration"
  | .heartbeat _ => "lease"
  | .getGlobalModel _ => ""
  | .submitLocalUpdate _ => "model-state"
  | .rotateRegistration _ => "registration-credential-rotation"
  | .revokeRegistration _ => "registration-revocation"

/-- The coordinator and the thread that holds `persistenceMu`. -/
structure DurableShared where
  state : DurableState
  persistenceMu : Option ℕ

/-- What is left of a call. -/
inductive DurableTask where
  /-- The call waits for `persistenceMu`. -/
  | waiting (c : DurableCall)
  /-- It holds it. -/
  | entered (c : DurableCall)
  /-- `GetGlobalModel` is in the service. -/
  | reading (task : Task)
  /-- A call that changes the state has taken a snapshot and is in the service, -/
  | running (c : DurableCall) (before : StateSnapshot) (task : Task)
  /-- has run there, -/
  | served (c : DurableCall) (before : StateSnapshot) (response : Response)
  /-- has taken a second snapshot to commit it, -/
  | committing (c : DurableCall) (before after : StateSnapshot) (response : Response)
  /-- has failed to, and restores memory, -/
  | restoring (c : DurableCall) (before : StateSnapshot)
  /-- and then the store. -/
  | compensating (c : DurableCall) (before : StateSnapshot)

/-- The sections of the calls. -/
def durableSections : Sections DurableShared DurableTask DurableCall (Except Failure Response) where
  start := .waiting
  next k s
    | .waiting c =>
      match s.persistenceMu with
      | some _ => none
      | none => some (.inr (.entered c), { s with persistenceMu := some k })
    | .entered c =>
      match c.call.request with
      | .getGlobalModel _ => some (.inr (.reading (.first c.call)), s)
      | _ => some (.inr (.running c (s.state.before c) (.first c.inner)), s)
    | .reading task =>
      match serviceSections.next k s.state.durable.service task with
      | none => none
      | some (.inr task, service) =>
        some (.inr (.reading task), { s with state := s.state.withService service })
      | some (.inl answer, service) => some (.inl answer, ⟨s.state.withService service, none⟩)
    | .running c before task =>
      match serviceSections.next k s.state.durable.service task with
      | none => none
      | some (.inr task, service) =>
        some (.inr (.running c before task), { s with state := s.state.withService service })
      | some (.inl (.error e), service) =>
        some (.inl (.error e), ⟨s.state.withService service, none⟩)
      | some (.inl (.ok response), service) =>
        some (.inr (.served c before response), { s with state := s.state.withService service })
    | .served c before response =>
      let after := s.state.durable.captureSnapshot (c.call.env.clock.drop 6)
      some (.inr (.committing c before after response), s)
    | .committing c before after response =>
      let events := auditEvents s.state.durable.service.settings before after
        (c.call.env.clock.drop 8) c.call.request response
      match s.state.store.commit after events c.outcomes.forward with
      | (.ok (), store) => some (.inl (.ok response), ⟨⟨s.state.durable, store⟩, none⟩)
      | (.error (.crash e), store) =>
        some (.inl (.error (.crash e)), ⟨⟨s.state.durable, store⟩, none⟩)
      | (.error (.error _), store) =>
        some (.inr (.restoring c before), { s with state := ⟨s.state.durable, store⟩ })
    | .restoring c before =>
      match s.state.durable.restoreSnapshot before (c.call.env.clock.drop 10) with
      | (.error e, durable) =>
        some (.inl (.error (.status .internal ("durable " ++ c.call.request.operation ++
          " commit failed and in-memory rollback failed: " ++ e.message))),
          ⟨⟨durable, s.state.store⟩, none⟩)
      | (.ok (), durable) =>
        some (.inr (.compensating c before), { s with state := ⟨durable, s.state.store⟩ })
    | .compensating c before =>
      match s.state.store.commit before [] c.outcomes.rollback with
      | (.error e, store) =>
        some (.inl (.error (.status .internal ("durable " ++ c.call.request.operation ++
          " commit failed and persistent rollback failed: " ++ e.message))),
          ⟨⟨s.state.durable, store⟩, none⟩)
      | (.ok (), store) =>
        some (.inl (.error (.status .internal ("durable " ++ c.call.request.operation ++
          " commit failed; previous state restored"))), ⟨⟨s.state.durable, store⟩, none⟩)

/-! ## Calls without interruption -/

/-- The sections of a call of the service, one after the other, serve it. -/
theorem Service.runs_serve (k : ℕ) (s : Service) (c : Call) :
    serviceSections.Runs k s (.first c) (s.serve c).1 (s.serve c).2 := by
  rw [s.serve_eq_complete c]
  rcases hp : s.prepare c with e | prepared
  · exact .ended (by simp only [serviceSections, hp])
  · have hnext : serviceSections.next k s (.first c) = some (.inr (.second prepared c.env), s) := by
      simp only [serviceSections, hp]
    exact .continued hnext (.ended rfl)

namespace DurableState

variable {k : ℕ} {d : DurableState} {c : DurableCall} {before after : StateSnapshot}
  {s service : Service} {task : Task}

theorem runs_reading {answer : Except Failure Response}
    (h : serviceSections.Runs k s task answer service) :
    durableSections.Runs k ⟨d.withService s, some k⟩ (.reading task) answer
      ⟨d.withService service, none⟩ := by
  induction h with
  | ended ran => exact .ended (by simp only [durableSections, withService, ran])
  | continued ran _ ih => exact .continued (by simp only [durableSections, withService, ran]) ih

theorem runs_rejected {answer : Except Failure Response}
    (h : serviceSections.Runs k s task answer service) {e : Failure} (hanswer : answer = .error e) :
    durableSections.Runs k ⟨d.withService s, some k⟩ (.running c before task) (.error e)
      ⟨d.withService service, none⟩ := by
  induction h with
  | ended ran => exact .ended (by simp only [durableSections, withService, ran, hanswer])
  | continued ran _ ih =>
    exact .continued (by simp only [durableSections, withService, ran]) (ih hanswer)

theorem runs_served {result : Except Failure Response}
    (h : serviceSections.Runs k s task result service) {response : Response}
    (hresult : result = .ok response) {answer : Except Failure Response} {s' : DurableShared}
    (rest : durableSections.Runs k ⟨d.withService service, some k⟩
      (.served c before response) answer s') :
    durableSections.Runs k ⟨d.withService s, some k⟩ (.running c before task) answer s' := by
  induction h with
  | ended ran => exact .continued (by simp only [durableSections, withService, ran, hresult]) rest
  | continued ran _ ih =>
    exact .continued (by simp only [durableSections, withService, ran]) (ih hresult rest)

/-- The sections from the commit on. -/
theorem runs_committing {response : Response} {events : List AuditEvent}
    (hevents : events = auditEvents d.durable.service.settings before after
      (c.call.env.clock.drop 8) c.call.request response) :
    let result := d.commitOrRollbackTransition before after c.call.request.operation events
      (c.call.env.clock.drop 10) c.outcomes
    durableSections.Runs k ⟨d, some k⟩ (.committing c before after response)
      (result.1.map fun _ => response) ⟨result.2, none⟩ := by
  subst hevents
  simp only [commitOrRollbackTransition]
  rcases hcommit : d.store.commit after
    (auditEvents d.durable.service.settings before after (c.call.env.clock.drop 8)
    c.call.request response) c.outcomes.forward with ⟨(e | e) | ⟨⟨⟩⟩, st⟩
  · refine .continued (by simp only [durableSections, hcommit]; rfl) ?_
    simp only
    rcases hrestore : d.durable.restoreSnapshot before (c.call.env.clock.drop 10) with
      ⟨e | ⟨⟨⟩⟩, durable⟩
    · exact .ended (by simp only [durableSections, hrestore]; rfl)
    · refine .continued (by simp only [durableSections, hrestore]; rfl) ?_
      simp only
      rcases hrollback : st.commit before [] c.outcomes.rollback with ⟨e | ⟨⟨⟩⟩, st'⟩
      · exact .ended (by simp only [durableSections, hrollback]; rfl)
      · exact .ended (by simp only [durableSections, hrollback]; rfl)
  · exact .ended (by simp only [durableSections, hcommit]; rfl)
  · exact .ended (by simp only [durableSections, hcommit]; rfl)

theorem runs_mutate {α : Type} (kind : α → Response) {operation : String}
    (hoperation : c.call.request.operation = operation)
    (run : Service → Env → Except Failure α × Service)
    (events : α → StateSnapshot → StateSnapshot → Clock → List AuditEvent)
    (hserve : d.durable.service.serve c.inner = (run d.durable.service c.inner.env).map
      (Except.map kind) id)
    (hevents : ∀ a after, events a (d.before c) after (c.call.env.clock.drop 8) =
      auditEvents d.durable.service.settings (d.before c) after
      (c.call.env.clock.drop 8) c.call.request (kind a)) :
    let result := (d.mutate c.call.env c.outcomes operation run events).map (Except.map kind) id
    durableSections.Runs k ⟨d, some k⟩ (.running c (d.before c) (.first c.inner)) result.1
      ⟨result.2, none⟩ := by
  subst hoperation
  rcases hrun : run d.durable.service c.inner.env with ⟨e | a, service⟩
  · have hrun' : run d.durable.service { c.call.env with clock := c.call.env.clock.drop 2 } =
      (.error e, service) := hrun
    simp only [mutate, hrun']
    have hserved : d.durable.service.serve c.inner = (.error e, service) := by
      rw [hserve, hrun]
      rfl
    have hruns := d.durable.service.runs_serve k c.inner
    rw [hserved] at hruns
    exact runs_rejected hruns rfl
  · have hrun' : run d.durable.service { c.call.env with clock := c.call.env.clock.drop 2 } =
      (.ok a, service) := hrun
    have hserved : d.durable.service.serve c.inner = (.ok (kind a), service) := by
      rw [hserve, hrun]
      rfl
    have hsettings := d.durable.service.settings_serve c.inner
    have hruns := d.durable.service.runs_serve k c.inner
    rw [hserved] at hsettings hruns
    refine runs_served hruns rfl (.continued rfl ?_)
    have hcommit := @runs_committing k (d.withService service) c (d.before c)
      ((d.withService service).durable.captureSnapshot (c.call.env.clock.drop 6)) (kind a) _ rfl
    have hsame : (d.withService service).durable.service.settings = d.durable.service.settings :=
      hsettings
    simp only [mutate, hrun']
    rw [hsame, ← hevents] at hcommit
    simp only [before, withService] at hcommit ⊢
    split
    · rename_i heq
      rw [heq] at hcommit
      exact hcommit
    · rename_i heq
      rw [heq] at hcommit
      exact hcommit

/-- The sections of a call, one after the other, serve it. -/
theorem runs_serve (k : ℕ) (d : DurableState) (c : DurableCall) :
    durableSections.Runs k ⟨d, none⟩ (.waiting c) (d.serve c).1 ⟨(d.serve c).2, none⟩ := by
  have hinner : c.inner.request = c.call.request := rfl
  refine .continued rfl ?_
  rcases hc : c.call.request with req | req | req | req | req | req <;> rw [hc] at hinner <;>
    refine .continued (by simp only [durableSections, hc]; rfl) ?_ <;> simp only [serve, hc]
  · exact runs_mutate (k := k) .registerNode (by rw [hc]; rfl)
      (fun s env => s.registerNode c.call.identity req env) _
      (by simp only [Service.serve, hinner]; rfl) fun a after => by simp only [auditEvents, hc]
  · exact runs_mutate (k := k) .heartbeat (by rw [hc]; rfl)
      (fun s env => s.heartbeat c.call.identity req env) _
      (by simp only [Service.serve, hinner]; rfl) fun a after => by simp only [auditEvents, hc]
  · have hruns := d.durable.service.runs_serve k c.call
    simp only [Service.serve, hc] at hruns
    exact runs_reading hruns
  · exact runs_mutate (k := k) .submitLocalUpdate (by rw [hc]; rfl)
      (fun s env => s.submitLocalUpdate c.call.identity req env) _
      (by simp only [Service.serve, hinner]; rfl) fun a after => by simp only [auditEvents, hc]
  · exact runs_mutate (k := k) .rotateRegistration (by rw [hc]; rfl)
      (fun s env => s.rotateRegistration c.call.identity req env) _
      (by simp only [Service.serve, hinner]; rfl) fun a after => by simp only [auditEvents, hc]
  · exact runs_mutate (k := k) .revokeRegistration (by rw [hc]; rfl)
      (fun s env => s.revokeRegistration c.call.identity req env) _
      (by simp only [Service.serve, hinner]; rfl) fun a after => by simp only [auditEvents, hc]

end DurableState

/-! ## What holds between the sections -/

/-- The state can be captured and restored at any time. -/
def DurableService.AlwaysRecoverable (d : DurableService) : Prop := ∀ t, d.Recoverable t

theorem DurableService.alwaysRecoverable_of_le {d : DurableService} {u : ℤ}
    (h : ∀ t ≤ u, d.Recoverable t) : d.AlwaysRecoverable :=
  fun t => (h (min t u) (min_le_right t u)).mono (min_le_left t u)

/-- The snapshot that the store holds has passed the checks. -/
def Store.Checked (st : Store) : Prop := ∀ snapshot, st.persisted = some snapshot → snapshot.Valid

theorem Store.Checked.commit {st : Store} (h : st.Checked) (snapshot : StateSnapshot)
    (events : List AuditEvent) (outcome : CommitOutcome) :
    (st.commit snapshot events outcome).2.Checked := by
  have happly (hcheck : st.checkCommit snapshot events = .ok ()) :
      (st.apply snapshot events).Checked := by
    intro persisted hpersisted
    cases hpersisted
    exact Store.valid_of_checkCommit hcheck
  rcases st.commit_eq snapshot events outcome with
    ⟨e, -, hcommit⟩ | ⟨hcheck, ⟨-, hcommit⟩ | ⟨applied, message, -, hcommit⟩⟩ <;> rw [hcommit]
  · exact h
  · exact happly hcheck
  · cases applied
    · exact h
    · exact happly hcheck

/-- A call that only reads the model. -/
def Task.Reads : Task → Prop
  | .first c => ∃ req, c.request = .getGlobalModel req
  | .second prepared _ => prepared = .getGlobalModel

theorem reads_next {k : ℕ} {s s' : Service} {task : Task} {r : Except Failure Response ⊕ Task}
    (h : task.Reads) (ran : serviceSections.next k s task = some (r, s')) :
    s' = s ∧ (∀ task', r = .inr task' → task'.Reads) ∧
      ∀ response, r = .inl (.ok response) → response = .getGlobalModel s.model := by
  rcases task with c | ⟨prepared, env⟩
  · obtain ⟨req, hreq⟩ := h
    have hprepare : ∀ prepared, s.prepare c = .ok prepared → prepared = .getGlobalModel := by
      intro prepared hp
      rcases req with _ | req
      · simp only [Service.prepare, hreq, reduceCtorEq] at hp
      · simp only [Service.prepare, hreq] at hp
        rcases hid : requireIdentityAndRegistration c.identity s.registry req.nodeID
          req.registrationID (c.env.clock.read 0) with e | i
        · rw [hid] at hp
          cases hp
        · rw [hid] at hp
          cases hp
          rfl
    simp only [serviceSections] at ran
    rcases hp : s.prepare c with e | prepared
    · rw [hp] at ran
      cases ran
      exact ⟨rfl, fun task' heq => (by cases heq), fun response heq => (by cases heq)⟩
    · rw [hp] at ran
      cases ran
      refine ⟨rfl, fun task' heq => ?_, fun response heq => (by cases heq)⟩
      cases heq
      exact hprepare prepared hp
  · cases h
    cases ran
    refine ⟨rfl, fun task' heq => (by cases heq), fun response heq => ?_⟩
    cases heq
    rfl

/-- What is left of a call fits the state: where the call stands between the state `d` that it has
found and the end of its transition. -/
def DurableTask.Fits (k : ℕ) (s : DurableShared) : DurableTask → Prop
  | .waiting _ => True
  | .entered _ => s.persistenceMu = some k ∧ s.state.durable.AlwaysRecoverable
  | .reading task => s.persistenceMu = some k ∧ s.state.durable.AlwaysRecoverable ∧ task.Reads
  | .running c before task => s.persistenceMu = some k ∧ s.state.durable.AlwaysRecoverable ∧
      before = s.state.before c ∧
      (task = .first c.inner ∨ ∃ prepared, s.state.durable.service.prepare c.inner = .ok prepared ∧
        task = .second prepared c.inner.env)
  | .served c before response =>
    s.persistenceMu = some k ∧ ∃ d : DurableState, d.durable.AlwaysRecoverable ∧
      before = d.before c ∧ (d.durable.service.serve c.inner).1 = .ok response ∧
      s.state = d.withService (d.durable.service.serve c.inner).2
  | .committing c before after response =>
    s.persistenceMu = some k ∧ ∃ d : DurableState, d.durable.AlwaysRecoverable ∧
      before = d.before c ∧ (d.durable.service.serve c.inner).1 = .ok response ∧
      s.state = d.withService (d.durable.service.serve c.inner).2 ∧ after = d.after c
  | .restoring c before =>
    s.persistenceMu = some k ∧ ∃ d : DurableState, d.durable.AlwaysRecoverable ∧
      before = d.before c ∧
      s.state.durable = (d.withService (d.durable.service.serve c.inner).2).durable
  | .compensating _ _ => s.persistenceMu = some k ∧ s.state.durable.AlwaysRecoverable

/-- Between calls the state can be captured and restored; the store has checked what it holds. -/
structure DurableShared.Settled (s : DurableShared) : Prop where
  free : s.persistenceMu = none → s.state.durable.AlwaysRecoverable
  checked : s.state.store.Checked

namespace DurableState

variable {d : DurableState} {c : DurableCall}

theorem alwaysRecoverable_rejected (h : d.durable.AlwaysRecoverable) {e : Failure}
    {service : Service} (ran : d.durable.service.serve c.inner = (.error e, service)) :
    (d.withService service).durable.AlwaysRecoverable :=
  DurableService.alwaysRecoverable_of_le fun t ht => recoverable_rejected (h t) ht ran

theorem alwaysRecoverable_served (h : d.durable.AlwaysRecoverable) (hvalid : (d.after c).Valid) :
    (d.withService (d.durable.service.serve c.inner).2).durable.AlwaysRecoverable :=
  DurableService.alwaysRecoverable_of_le fun t ht => recoverable_served (h t) ht hvalid

theorem alwaysRecoverable_restored (h : d.durable.AlwaysRecoverable) :
    (d.restored c).AlwaysRecoverable :=
  fun t => recoverable_restored (h t)

end DurableState

/-- A section runs for the holder of `persistenceMu` or for a call that gets it.  After it the call
goes on, or it has given the lock back and left a state that can be captured. -/
structure DurableTask.Stepped (k : ℕ) (s s' : DurableShared)
    (r : Except Failure Response ⊕ DurableTask) : Prop where
  owner : s.persistenceMu = none ∨ s.persistenceMu = some k
  ended : ∀ answer, r = .inl answer → s'.persistenceMu = none ∧ s'.state.durable.AlwaysRecoverable
  goesOn : ∀ task', r = .inr task' → s'.persistenceMu = some k ∧ task'.Fits k s'
  checked : s'.state.store.Checked

namespace DurableTask

variable {k : ℕ} {s s' : DurableShared} {r : Except Failure Response ⊕ DurableTask}
  {c : DurableCall} {before after : StateSnapshot} {response : Response} {task : Task}

theorem stepped_reading (hs : s.Settled) (h : Fits k s (.reading task))
    (ran : durableSections.next k s (.reading task) = some (r, s')) : Stepped k s s' r := by
  obtain ⟨howner, hrec, hreads⟩ := h
  simp only [durableSections] at ran
  rcases hnext : serviceSections.next k s.state.durable.service task with
    _ | ⟨answer | task', service⟩
  · rw [hnext] at ran
    cases ran
  · obtain ⟨rfl, -, -⟩ := reads_next hreads hnext
    rw [hnext] at ran
    cases ran
    exact ⟨.inr howner, fun answer _ => ⟨rfl, hrec⟩, fun task' heq => (by cases heq), hs.checked⟩
  · obtain ⟨rfl, htask, -⟩ := reads_next hreads hnext
    rw [hnext] at ran
    cases ran
    refine ⟨.inr howner, fun answer heq => (by cases heq), fun task' heq => ?_, hs.checked⟩
    cases heq
    exact ⟨howner, howner, hrec, htask _ rfl⟩

/-- The service has run between two snapshots. -/
theorem stepped_running (hs : s.Settled) (h : Fits k s (.running c before task))
    (ran : durableSections.next k s (.running c before task) = some (r, s')) :
    Stepped k s s' r := by
  obtain ⟨howner, hrec, rfl, rfl | ⟨prepared, hprepare, rfl⟩⟩ := h
  · rcases hprepare : s.state.durable.service.prepare c.inner with e | prepared
    · have hserve : s.state.durable.service.serve c.inner =
          (.error e, s.state.durable.service) := by
        simp only [Service.serve_eq_complete, hprepare]
      simp only [durableSections, serviceSections, hprepare] at ran
      cases ran
      exact ⟨.inr howner, fun answer _ => ⟨rfl, hrec⟩, fun task' heq => (by cases heq), hs.checked⟩
    · simp only [durableSections, serviceSections, hprepare] at ran
      cases ran
      refine ⟨.inr howner, fun answer heq => (by cases heq), fun task' heq => ?_, hs.checked⟩
      cases heq
      exact ⟨howner, howner, hrec, rfl, .inr ⟨prepared, hprepare, rfl⟩⟩
  · have hserve : s.state.durable.service.serve c.inner =
        s.state.durable.service.complete c.inner.env prepared := by
      simp only [Service.serve_eq_complete, hprepare]
    rcases hcomplete : s.state.durable.service.complete c.inner.env prepared with
      ⟨e | response, service⟩
    · simp only [durableSections, serviceSections, hcomplete, Prod.map_apply, id_eq] at ran
      cases ran
      refine ⟨.inr howner, fun answer _ => ⟨rfl, ?_⟩, fun task' heq => (by cases heq), hs.checked⟩
      exact DurableState.alwaysRecoverable_rejected hrec (hserve.trans hcomplete)
    · simp only [durableSections, serviceSections, hcomplete, Prod.map_apply, id_eq] at ran
      cases ran
      refine ⟨.inr howner, fun answer heq => (by cases heq), fun task' heq => ?_, hs.checked⟩
      cases heq
      rw [hcomplete] at hserve
      exact ⟨howner, howner, s.state, hrec, rfl, by rw [hserve], by rw [hserve]⟩

/-- The commit, which the checks of the store guard. -/
theorem stepped_committing (hs : s.Settled) (h : Fits k s (.committing c before after response))
    (ran : durableSections.next k s (.committing c before after response) = some (r, s')) :
    Stepped k s s' r := by
  obtain ⟨howner, d, hrec, rfl, hserved, hstate, rfl⟩ := h
  simp only [durableSections] at ran
  generalize auditEvents s.state.durable.service.settings (d.before c) (d.after c)
    (c.call.env.clock.drop 8) c.call.request response = events at ran
  have hchecked := hs.checked.commit (d.after c) events c.outcomes.forward
  rcases hcommit : s.state.store.commit (d.after c) events c.outcomes.forward with
    ⟨(e | e) | ⟨⟨⟩⟩, st⟩
  · rw [hcommit] at ran hchecked
    cases ran
    refine ⟨.inr howner, fun answer heq => (by cases heq), fun task' heq => ?_, hchecked⟩
    cases heq
    exact ⟨howner, howner, d, hrec, rfl, by rw [hstate]⟩
  · obtain ⟨n, hn⟩ := (DurableState.sound_served (hrec c.call.env.clock.start)
      (c := c) le_rfl).model
    have hmodel : (d.after c).model = (d.durable.service.serve c.inner).2.model := rfl
    rcases s.state.store.commit_eq (d.after c) events c.outcomes.forward with
      ⟨e', hcheck, heq⟩ | ⟨-, ⟨-, heq⟩ | ⟨applied, message, -, heq⟩⟩ <;>
      rw [hcommit] at heq <;> cases heq
    exact absurd hcheck (Store.checkCommit_ne_crash (hmodel ▸ hn) e)
  · rw [hcommit] at ran hchecked
    cases ran
    refine ⟨.inr howner, fun answer _ => ⟨rfl, ?_⟩, fun task' heq => (by cases heq), hchecked⟩
    have hvalid : (d.after c).Valid := by
      rcases s.state.store.commit_eq (d.after c) events c.outcomes.forward with
        ⟨e, -, heq⟩ | ⟨hcheck, -⟩
      · rw [hcommit] at heq
        cases heq
      · exact Store.valid_of_checkCommit hcheck
    rw [hstate]
    exact DurableState.alwaysRecoverable_served hrec hvalid

theorem stepped_restoring (hs : s.Settled) (h : Fits k s (.restoring c before))
    (ran : durableSections.next k s (.restoring c before) = some (r, s')) : Stepped k s s' r := by
  obtain ⟨howner, d, hrec, rfl, hstate⟩ := h
  have hrestore := DurableState.restoreSnapshot_before (hrec c.call.env.clock.start) (c := c) le_rfl
  rw [← hstate] at hrestore
  simp only [durableSections, hrestore] at ran
  cases ran
  refine ⟨.inr howner, fun answer heq => (by cases heq), fun task' heq => ?_, hs.checked⟩
  cases heq
  exact ⟨howner, howner, DurableState.alwaysRecoverable_restored hrec⟩

theorem stepped_compensating (hs : s.Settled) (h : Fits k s (.compensating c before))
    (ran : durableSections.next k s (.compensating c before) = some (r, s')) :
    Stepped k s s' r := by
  obtain ⟨howner, hrec⟩ := h
  have hchecked := hs.checked.commit before [] c.outcomes.rollback
  simp only [durableSections] at ran
  rcases hcommit : s.state.store.commit before [] c.outcomes.rollback with ⟨e | ⟨⟨⟩⟩, st⟩
  · rw [hcommit] at ran hchecked
    cases ran
    exact ⟨.inr howner, fun answer _ => ⟨rfl, hrec⟩, fun task' heq => (by cases heq), hchecked⟩
  · rw [hcommit] at ran hchecked
    cases ran
    exact ⟨.inr howner, fun answer _ => ⟨rfl, hrec⟩, fun task' heq => (by cases heq), hchecked⟩

theorem stepped {task : DurableTask} (hs : s.Settled) (h : task.Fits k s)
    (ran : durableSections.next k s task = some (r, s')) : Stepped k s s' r := by
  rcases task with c | c | task | ⟨c, before, task⟩ | ⟨c, before, response⟩ | ⟨c, before, after,
    response⟩ | ⟨c, before⟩ | ⟨c, before⟩
  · simp only [durableSections] at ran
    rcases hfree : s.persistenceMu with _ | l
    · rw [hfree] at ran
      cases ran
      refine ⟨.inl hfree, fun answer heq => (by cases heq), fun task' heq => ?_, hs.checked⟩
      cases heq
      exact ⟨rfl, rfl, hs.free hfree⟩
    · rw [hfree] at ran
      cases ran
  · obtain ⟨howner, hrec⟩ := h
    have hmutates (hnext : durableSections.next k s (.entered c) =
        some (.inr (.running c (s.state.before c) (.first c.inner)), s)) : Stepped k s s' r := by
      rw [hnext] at ran
      cases ran
      refine ⟨.inr howner, fun answer heq => (by cases heq), fun task' heq => ?_, hs.checked⟩
      cases heq
      exact ⟨howner, howner, hrec, rfl, .inl rfl⟩
    rcases hc : c.call.request with req | req | req | req | req | req
    · exact hmutates (by simp only [durableSections, hc])
    · exact hmutates (by simp only [durableSections, hc])
    · simp only [durableSections, hc] at ran
      cases ran
      refine ⟨.inr howner, fun answer heq => (by cases heq), fun task' heq => ?_, hs.checked⟩
      cases heq
      exact ⟨howner, howner, hrec, req, hc⟩
    · exact hmutates (by simp only [durableSections, hc])
    · exact hmutates (by simp only [durableSections, hc])
    · exact hmutates (by simp only [durableSections, hc])
  · exact stepped_reading hs h ran
  · exact stepped_running hs h ran
  · obtain ⟨howner, d, hrec, rfl, hserved, hstate⟩ := h
    cases ran
    refine ⟨.inr howner, fun answer heq => (by cases heq), fun task' heq => ?_, hs.checked⟩
    cases heq
    exact ⟨howner, howner, d, hrec, rfl, hserved, hstate, by rw [hstate]; rfl⟩
  · exact stepped_committing hs h ran
  · exact stepped_restoring hs h ran
  · exact stepped_compensating hs h ran

/-- The task is past the lock. -/
def Owns : DurableTask → Prop
  | .waiting _ => False
  | _ => True

theorem Fits.owner {task : DurableTask} (h : task.Fits k s) (howns : task.Owns) :
    s.persistenceMu = some k := by
  rcases task with c | c | task | ⟨c, before, task⟩ | ⟨c, before, response⟩ | ⟨c, before, after,
    response⟩ | ⟨c, before⟩ | ⟨c, before⟩
  · exact howns.elim
  all_goals exact h.1

end DurableTask

/-- The invariant of concurrent calls. -/
theorem durable_invariant : durableSections.Invariant (fun _ => True) DurableShared.Settled
    fun k s task => task.Fits k s where
  start _ _ := trivial
  shared {k s task r s'} hs h ran := by
    have hstep := DurableTask.stepped hs h ran
    refine ⟨fun hfree => ?_, hstep.checked⟩
    rcases r with answer | task'
    · exact (hstep.ended answer rfl).2
    · have howner := (hstep.goesOn task' rfl).1
      rw [hfree] at howner
      cases howner
  own hs h ran := ((DurableTask.stepped hs h ran).goesOn _ rfl).2
  other {k l s task task₂ r s'} hne hs h h₂ ran := by
    rcases task₂ with c | task₂
    · trivial
    all_goals
      have howner₂ := DurableTask.Fits.owner h₂ trivial
      rcases (DurableTask.stepped hs h ran).owner with howner | howner
      · rw [howner₂] at howner
        cases howner
      · rw [howner₂] at howner
        exact absurd (Option.some.inj howner) hne

/-- A section that ends its call frees `persistenceMu`; one that goes on keeps it or has just taken
it. -/
theorem persistenceMu_next {k : ℕ} {s s' : DurableShared} {task : DurableTask}
    {r : Except Failure Response ⊕ DurableTask}
    (ran : durableSections.next k s task = some (r, s')) :
    (∃ answer, r = .inl answer ∧ s'.persistenceMu = none) ∨
      ∃ task', r = .inr task' ∧ task'.Owns ∧
        (s'.persistenceMu = s.persistenceMu ∨ s'.persistenceMu = some k) := by
  simp only [durableSections] at ran
  split at ran
  · split at ran <;> cases ran
    exact .inr ⟨_, rfl, trivial, .inr rfl⟩
  · split at ran <;> cases ran <;> exact .inr ⟨_, rfl, trivial, .inl rfl⟩
  · split at ran <;> cases ran
    · exact .inr ⟨_, rfl, trivial, .inl rfl⟩
    · exact .inl ⟨_, rfl, rfl⟩
  · split at ran <;> cases ran
    · exact .inr ⟨_, rfl, trivial, .inl rfl⟩
    · exact .inl ⟨_, rfl, rfl⟩
    · exact .inr ⟨_, rfl, trivial, .inl rfl⟩
  · cases ran
    exact .inr ⟨_, rfl, trivial, .inl rfl⟩
  · split at ran <;> cases ran
    · exact .inl ⟨_, rfl, rfl⟩
    · exact .inl ⟨_, rfl, rfl⟩
    · exact .inr ⟨_, rfl, trivial, .inl rfl⟩
  · split at ran <;> cases ran
    · exact .inl ⟨_, rfl, rfl⟩
    · exact .inr ⟨_, rfl, trivial, .inl rfl⟩
  · split at ran <;> cases ran <;> exact .inl ⟨_, rfl, rfl⟩

theorem persistenceMu_locks :
    durableSections.Locks DurableShared.persistenceMu DurableTask.Owns where
  other {k l s task r s'} ran hne howner := by
    rcases persistenceMu_next ran with ⟨_, -, heq⟩ | ⟨_, -, -, heq | heq⟩
    · cases heq.symm.trans howner
    · exact heq.symm.trans howner
    · exact absurd (Option.some.inj (howner.symm.trans heq)) hne
  own {k s task r s'} ran _ howner := by
    rcases persistenceMu_next ran with ⟨_, -, heq⟩ | ⟨task', hr, howns, -⟩
    · cases heq.symm.trans howner
    · exact ⟨task', hr, howns⟩

/-! ## The start -/

theorem RegistrationStore.restoreSnapshot_identified {r r' : RegistrationStore}
    {l : List Registration} {now : ℤ} (hnow : 0 < now) (h : r.restoreSnapshot l now = (.ok (), r'))
    (t : ℤ) : r'.Identified t := by
  unfold restoreSnapshot at h
  rcases hf : l.foldlM (restoreEntry now) ∅ with err | m <;> rw [hf] at h <;> cases h
  exact fun n e he _ => (restoreEntries_wellFormed hnow hf (fun n e he => by cases he) n e he).2

/-- A coordinator that starts with an empty registry can be captured and restored at any time. -/
theorem settled_new {cfg : Config} {st : Store} {experimentConfig : ExperimentConfig}
    {modelID : String} {clock : Clock} {outcome : CommitOutcome} {d : DurableState}
    (h : newDurableServiceWithIdentity newRegistrationStore cfg st experimentConfig modelID clock
      outcome = .ok d) : DurableShared.Settled ⟨d, none⟩ := by
  have hready := DurableState.ready_new RegistrationStore.wellFormed_new h
  have hidentified : ∀ t, d.durable.service.registry.Identified t := by
    obtain ⟨d₀, hconf, hrec⟩ := newDurableServiceWithIdentity_ok h
    rcases recoverOrInitialize_ok hrec with ⟨-, hstart⟩ | ⟨snapshot, d₁, -, hrestore, hstart⟩
    · intro t n e he
      rw [hstart.durable, (newService_ok hconf.service).1] at he
      cases he
    · obtain ⟨registry, hrestored⟩ := DurableService.restoreSnapshot_restored hrestore
      intro t
      rw [hstart.durable, hrestored.eq]
      exact RegistrationStore.restoreSnapshot_identified
        ((clock.drop 2).read_pos 1) hrestored.registrations t
  obtain ⟨d₀, clock₀, hpersists⟩ := hready.persists
  refine ⟨fun _ t => ⟨{ hready.recoverable.sound with identified := hidentified t },
    hready.recoverable.policy, hready.recoverable.lengths⟩, fun snapshot hsnapshot => ?_⟩
  rw [Store.persisted, hpersists.state] at hsnapshot
  cases hsnapshot
  exact hpersists.recoverable.valid le_rfl

end ZeroTrustFL
