import Mathlib
import ZeroTrustFL.Coordinator.Replay
import ZeroTrustFL.Coordinator.Construction
import ZeroTrustFL.Security.StoreRun

/-!
# Credentials that are no longer live

A submission checks its credential before it waits for the lock and once more under it.  In any
interleaving of calls, a credential that a rotation or a revocation has ended comes to life again
only when it is issued again; so no update enters a round under it.
-/

namespace ZeroTrustFL

/-- The node has a registration with the id that is not revoked. -/
def RegistrationStore.Live (r : RegistrationStore) (n id : String) : Prop :=
  ∃ e, r.entries.get? n = some e ∧ e.revokedAt = 0 ∧ e.registrationID = id

namespace RegistrationStore

variable {r : RegistrationStore} {n : String}

theorem live_of_validate (hr : r.WellFormed) {i : PeerIdentity} {id : String} {now : ℤ}
    {e : Registration} (h : r.validate i id now = .ok e) : r.Live i.nodeID id := by
  obtain ⟨he, hadmits⟩ := (validate_ok_iff hr i id now e).1 h
  exact ⟨e, he, hadmits.not_revoked, hadmits.id⟩

/-- After an insertion the live credential of the node is that of the new entry. -/
theorem live_insert {m : String} {x : Registration} {id : String}
    (h : Live ⟨r.entries.insert m x⟩ n id) :
    n = m ∧ x.revokedAt = 0 ∧ x.registrationID = id ∨ n ≠ m ∧ r.Live n id := by
  obtain ⟨e, he, hlive, hid⟩ := h
  rw [OrdMap.get?_insert] at he
  split_ifs at he with hn
  · cases he
    exact .inl ⟨hn, hlive, hid⟩
  · exact .inr ⟨hn, e, he, hlive, hid⟩

theorem live_register (hr : r.WellFormed) (i : PeerIdentity) (id : String) (lease now : ℤ)
    {id' : String} (h : (r.register i id lease now).2.Live n id') :
    r.Live n id' ∨ (∃ e, (r.register i id lease now).1 = .ok e) ∧ i.nodeID = n ∧ id = id' := by
  rcases register_cases hr i id lease now with ⟨err, hrun⟩ | ⟨e, hrun, he⟩
  · rw [hrun] at h
    exact .inl h
  · rw [hrun] at h ⊢
    rcases live_insert h with ⟨rfl, -, hid⟩ | ⟨-, hlive⟩
    · exact .inr ⟨⟨e, rfl⟩, rfl, he.id_eq.symm.trans hid⟩
    · exact .inl hlive

theorem live_refresh (hr : r.WellFormed) (i : PeerIdentity) (id : String) (lease now : ℤ)
    {id' : String} (h : (r.refresh i id lease now).2.Live n id') : r.Live n id' := by
  rcases refresh_cases hr i id lease now with ⟨err, hrun⟩ | ⟨x, hx, -, -, hrun⟩
  · rwa [hrun] at h
  · rw [hrun] at h
    rcases live_insert h with ⟨rfl, hlive, hid⟩ | ⟨-, hlive⟩
    · exact ⟨x, hx, hlive, hid⟩
    · exact hlive

/-- A rotation ends one credential and issues another. -/
theorem live_rotate (hr : r.WellFormed) (i : PeerIdentity) (current next : String) (lease now : ℤ)
    {id : String} (h : (r.rotate i current next lease now).2.Live n id) :
    (r.Live n id ∧ ∀ e, (r.rotate i current next lease now).1 = .ok e → n ≠ i.nodeID) ∨
      (∃ e, (r.rotate i current next lease now).1 = .ok e) ∧ r.Live i.nodeID current ∧
      i.nodeID = n ∧ next = id ∧ current ≠ next := by
  rcases rotate_cases hr i current next lease now with
    ⟨err, hrun⟩ | ⟨x, hx, hadmits, -, -, -, hne, hrun⟩
  · rw [hrun] at h ⊢
    exact .inl ⟨h, fun e he => by cases he⟩
  · rw [hrun] at h ⊢
    rcases live_insert h with ⟨rfl, -, hid⟩ | ⟨hn, hlive⟩
    · exact .inr ⟨⟨_, rfl⟩, ⟨x, hx, hadmits.not_revoked, hadmits.id⟩, rfl, hid, hne⟩
    · exact .inl ⟨hlive, fun _ _ => hn⟩

/-- A revocation issues nothing, and leaves no live credential of its node. -/
theorem live_revoke (hr : r.WellFormed) (target reason : String) {now : ℤ} (hnow : 0 < now)
    {id : String} (h : (r.revoke target reason now).2.Live n id) :
    r.Live n id ∧ ∀ e, (r.revoke target reason now).1 = .ok e → n ≠ e.nodeID := by
  rcases revoke_cases hr target reason now with
    ⟨err, hrun⟩ | ⟨x, err, -, -, hrun⟩ | ⟨x, hx, -, hrevoked, hrun⟩ | ⟨x, hx, -, -, -, -, hrun⟩
  · rw [hrun] at h ⊢
    exact ⟨h, fun e he => by cases he⟩
  · rw [hrun] at h ⊢
    obtain ⟨e, he, hlive, hid⟩ := h
    rw [OrdMap.get?_erase] at he
    split_ifs at he
    exact ⟨⟨e, he, hlive, hid⟩, fun e he => by cases he⟩
  · rw [hrun] at h ⊢
    refine ⟨h, fun e he => ?_⟩
    cases he
    obtain ⟨y, hy, hlive, -⟩ := h
    rintro rfl
    rw [(hr _ _ hx).node_eq, hx] at hy
    cases hy
    exact hrevoked hlive
  · rw [hrun] at h ⊢
    rcases live_insert h with ⟨-, hlive, -⟩ | ⟨hn, hlive⟩
    · exact absurd hlive (ne_of_gt hnow)
    · refine ⟨hlive, fun e he => ?_⟩
      cases he
      rw [(hr _ _ hx).node_eq]
      exact hn

end RegistrationStore

namespace Service

/-! ## What the second part of a call does -/

/-- The second part gives the node a registration with the id. -/
def Issues (s : Service) (env : Env) (p : Prepared) (n id : String) : Prop :=
  (∃ response, (s.complete env p).1 = .ok response) ∧
    ((∃ i, p = .registerNode i id ∧ i.nodeID = n) ∨
      ∃ req i now, p = .rotateRegistration req i now id ∧ i.nodeID = n)

/-- The second part registers the node. -/
def Registers (s : Service) (env : Env) (p : Prepared) (n : String) : Prop :=
  (∃ response, (s.complete env p).1 = .ok response) ∧ ∃ i id, p = .registerNode i id ∧ i.nodeID = n

/-- The second part rotates the registration of the node away from the id. -/
def RotatesAway (s : Service) (env : Env) (p : Prepared) (n id : String) : Prop :=
  (∃ response, (s.complete env p).1 = .ok response) ∧
    ∃ req i now next, p = .rotateRegistration req i now next ∧ i.nodeID = n ∧
    req.registrationID = id

/-- The second part revokes the registration of the node. -/
def RevokesNode (s : Service) (env : Env) (p : Prepared) (n : String) : Prop :=
  ∃ response, (s.complete env p).1 = .ok (.revokeRegistration response) ∧ response.targetNodeID = n

/-- The locked part of a submission gets as far as putting the update into `pending`. -/
structure InsertsUpdate (s : Service) (env : Env) (req : SubmitLocalUpdateRequest)
    (prepared : PreparedUpdate) (u : PendingUpdate) : Prop where
  valid : ∃ entry, s.registry.validate prepared.identity req.registrationID
    (env.clock.read 2) = .ok entry
  nonce : (s.acceptNonceLocked req.nodeID (nonceOf req.security) prepared.now).1 = true
  rate : ((s.acceptNonceLocked req.nodeID (nonceOf req.security) prepared.now).2.allowUpdateLocked
    req.nodeID prepared.now).1 = true
  admits : ∃ updateID currentValues,
    (s.afterChecks req prepared.now).Admits req env prepared.values updateID currentValues ∧
      u = updateOf req updateID prepared.values

/-- The second part puts an update of the node, submitted with the registration id, into
`pending`. -/
def Inserts (s : Service) (env : Env) (p : Prepared) (n id : String) (u : PendingUpdate) : Prop :=
  ∃ req prepared, p = .submitLocalUpdate req prepared ∧ req.nodeID = n ∧ req.registrationID = id ∧
    s.InsertsUpdate env req prepared u

variable {s : Service} {env : Env} {p : Prepared} {n : String}

theorem Passes.inserts {req : SubmitLocalUpdateRequest} {prepared : PreparedUpdate}
    {updateID : String} {currentValues : List Float32}
    (h : s.Passes req prepared env updateID currentValues) :
    s.InsertsUpdate env req prepared (updateOf req updateID prepared.values) := by
  have hs := s.sameRound_afterChecks req prepared.now
  exact ⟨h.valid, h.nonce, h.rate, updateID, currentValues,
    ⟨hs.model.symm ▸ h.admits.version, hs.model.symm ▸ h.admits.round,
      hs.pending.symm ▸ h.admits.fresh, hs.model.symm ▸ h.admits.current, h.admits.identifier⟩, rfl⟩

theorem wellFormed_complete (hs : s.registry.WellFormed) (env : Env) (p : Prepared) :
    (s.complete env p).2.registry.WellFormed :=
  registry_complete hs fun run => run.wellFormed hs

/-- A live credential was live before, or has just been issued. -/
theorem live_complete (hs : s.registry.WellFormed) {id : String}
    (h : (s.complete env p).2.registry.Live n id) : s.registry.Live n id ∨ s.Issues env p n id := by
  have hout := s.complete_completed env p
  generalize hcomplete : s.complete env p = result at h hout
  cases hout with
  | failed same => exact .inl (same.registry ▸ h)
  | rejected _ run =>
    left
    cases run with
    | register ran =>
      rcases RegistrationStore.live_register hs _ _ _ _ (by rwa [ran]) with hlive | ⟨⟨_, hok⟩, -⟩
      · exact hlive
      · cases (congrArg Prod.fst ran).symm.trans hok
    | refresh ran => exact RegistrationStore.live_refresh hs _ _ _ _ (by rwa [ran])
    | rotate ran =>
      rcases RegistrationStore.live_rotate hs _ _ _ _ _ (by rwa [ran]) with
        ⟨hlive, -⟩ | ⟨⟨_, hok⟩, -⟩
      · exact hlive
      · cases (congrArg Prod.fst ran).symm.trans hok
    | revoke ran =>
      exact (RegistrationStore.live_revoke hs _ _ (env.clock.read_pos 3) (by rwa [ran])).1
  | read => exact .inl h
  | registered ran =>
    rcases RegistrationStore.live_register hs _ _ _ _ (by rwa [ran]) with hlive | ⟨-, hnode, rfl⟩
    · exact .inl hlive
    · exact .inr ⟨⟨_, congrArg Prod.fst hcomplete⟩, .inl ⟨_, rfl, hnode⟩⟩
  | refreshed ran => exact .inl (RegistrationStore.live_refresh hs _ _ _ _ (by rwa [ran]))
  | waiting => exact .inl ((s.sameRound_afterChecks _ _).registry ▸ h)
  | closing => exact .inl ((s.sameRound_afterChecks _ _).registry ▸ h)
  | rotated _ ran =>
    rcases RegistrationStore.live_rotate hs _ _ _ _ _ (by rwa [ran]) with
      ⟨hlive, -⟩ | ⟨-, -, hnode, rfl, -⟩
    · exact .inl hlive
    · exact .inr ⟨⟨_, congrArg Prod.fst hcomplete⟩, .inr ⟨_, _, _, rfl, hnode⟩⟩
  | revoked _ ran =>
    exact .inl (RegistrationStore.live_revoke hs _ _ (env.clock.read_pos 3) (by rwa [ran])).1

/-- A rotation leaves a live credential for dead, and it was live before. -/
theorem live_of_rotatesAway (hs : s.registry.WellFormed) {id : String}
    (h : s.RotatesAway env p n id) :
    s.registry.Live n id ∧ ¬ (s.complete env p).2.registry.Live n id := by
  obtain ⟨⟨response, hok⟩, req, i, now, next, rfl, rfl, rfl⟩ := h
  have hout := s.complete_completed env (.rotateRegistration req i now next)
  generalize s.complete env (.rotateRegistration req i now next) = result at hok hout
  cases hout with
  | failed => cases hok
  | rejected => cases hok
  | @rotated _ _ _ _ entry _ _ same ran =>
    rcases RegistrationStore.rotate_cases hs i req.registrationID next s.settings.leaseTTL
      (env.clock.read 3) with ⟨err, hfail⟩ | ⟨x, hx, hadmits, -⟩
    · cases ran.symm.trans hfail
    refine ⟨⟨x, hx, hadmits.not_revoked, hadmits.id⟩, fun hlive => ?_⟩
    rcases RegistrationStore.live_rotate hs _ _ _ _ _ (by rwa [ran]) with
      ⟨-, hne⟩ | ⟨-, -, -, hnext, hne⟩
    · exact hne entry (congrArg Prod.fst ran) rfl
    · exact hne hnext.symm

/-- A revocation leaves no credential of its node live, and no pending update of it. -/
theorem not_live_of_revokesNode (hs : s.registry.WellFormed) (h : s.RevokesNode env p n) :
    (∀ id, ¬ (s.complete env p).2.registry.Live n id) ∧
      (s.complete env p).2.pending.get? n = none := by
  obtain ⟨response, hok, rfl⟩ := h
  have hout := s.complete_completed env p
  generalize s.complete env p = result at hok hout
  cases hout with
  | revoked same ran =>
    cases hok
    refine ⟨fun id hlive => ?_, OrdMap.get?_erase_self _ _⟩
    exact (RegistrationStore.live_revoke hs _ _ (env.clock.read_pos 3) (by rwa [ran])).2 _
      (congrArg Prod.fst ran) rfl
  | _ => cases hok

/-- A new pending update was inserted by a submission. -/
theorem pending_complete {u : PendingUpdate} (h : (s.complete env p).2.pending.get? n = some u) :
    s.pending.get? n = some u ∨ ∃ id, s.Inserts env p n id u := by
  have hout := s.complete_completed env p
  generalize s.complete env p = result at h hout
  cases hout with
  | failed same => exact .inl (same.pending ▸ h)
  | rejected same => exact .inl (same.pending ▸ h)
  | read => exact .inl h
  | registered => exact .inl h
  | refreshed => exact .inl h
  | @waiting req prepared _ _ passes _ =>
    rw [OrdMap.get?_insert] at h
    split_ifs at h with hn
    · cases h
      exact .inr ⟨req.registrationID, req, prepared, rfl, hn.symm, rfl, passes.inserts⟩
    · exact .inl h
  | closing => cases h
  | rotated same => exact .inl (same.pending ▸ h)
  | revoked =>
    rw [OrdMap.get?_erase] at h
    split_ifs at h
    exact .inl h

end Service

/-! ## Runs -/

section Runs

variable {t : Threads Service Task} {events : List (ThreadEvent Call)}

/-- The event runs the second part of the call. -/
def Completes (t : Threads Service Task) (e : ThreadEvent Call) (env : Env) (p : Prepared) : Prop :=
  ∃ k, e = .run k ∧ t.running k = some (.second p env)

/-- In the run, the node is given a registration with the id. -/
def IssuedIn (t : Threads Service Task) (events : List (ThreadEvent Call)) (n id : String) : Prop :=
  ∃ before e after env p, events = before ++ e :: after ∧
    Completes (final serviceSections.step t before) e env p ∧
    (final serviceSections.step t before).shared.Issues env p n id

/-- In the run, the node registers. -/
def RegisteredIn (t : Threads Service Task) (events : List (ThreadEvent Call)) (n : String) :
    Prop :=
  ∃ before e after env p, events = before ++ e :: after ∧
    Completes (final serviceSections.step t before) e env p ∧
    (final serviceSections.step t before).shared.Registers env p n

/-- No registration id is issued twice, or was in use at the start. -/
def UniqueIds (t : Threads Service Task) (events : List (ThreadEvent Call)) : Prop :=
  ∀ before e after env p n id, events = before ++ e :: after →
    Completes (final serviceSections.step t before) e env p →
    (final serviceSections.step t before).shared.Issues env p n id →
    ∀ m, ¬ t.shared.registry.Live m id ∧ ¬ IssuedIn t before m id

variable {n : String} {env : Env} {e : ThreadEvent Call} {p : Prepared}

theorem IssuedIn.append {id : String} (h : IssuedIn t events n id)
    (more : List (ThreadEvent Call)) : IssuedIn t (events ++ more) n id := by
  obtain ⟨before, e, after, env, p, rfl, hrest⟩ := h
  exact ⟨before, e, after ++ more, env, p, by simp, hrest⟩

/-- An event leaves the service alone or runs a second part on it. -/
theorem shared_step (t : Threads Service Task) (e : ThreadEvent Call) :
    (serviceSections.step t e).2.shared = t.shared ∨
      ∃ env p, Completes t e env p ∧
      (serviceSections.step t e).2.shared = (t.shared.complete env p).2 := by
  have hout := serviceSections.step_outcome t e
  generalize serviceSections.step t e = result at hout
  cases hout with
  | idle => exact .inl rfl
  | started free => exact .inl rfl
  | @answered k task answer shared task_eq ran =>
    rcases task with c | ⟨p, env⟩
    · left
      simp only [serviceSections] at ran
      rcases hp : t.shared.prepare c with err | p <;> rw [hp] at ran <;> cases ran
      rfl
    · right
      simp only [serviceSections, Option.some.injEq, Prod.map_apply', id_eq, Prod.mk.injEq] at ran
      exact ⟨env, p, ⟨k, rfl, task_eq⟩, ran.2.symm⟩
  | @continued k task task' shared task_eq ran =>
    rcases task with c | ⟨p, env⟩
    · left
      simp only [serviceSections] at ran
      rcases hp : t.shared.prepare c with err | p <;> rw [hp] at ran <;> cases ran
      rfl
    · simp only [serviceSections, Option.some.injEq] at ran
      cases ran

theorem shared_of_completes (h : Completes t e env p) :
    (serviceSections.step t e).2.shared = (t.shared.complete env p).2 := by
  obtain ⟨k, rfl, hk⟩ := h
  simp only [Sections.step, hk, serviceSections]
  rfl

/-- A submission that waits for the lock is one of the node of its caller. -/
def Task.OwnNode : Task → Prop
  | .second (.submitLocalUpdate req prepared) _ => prepared.identity.nodeID = req.nodeID
  | _ => True

/-- What holds of the registrations and of the waiting calls in every run. -/
abbrev Consistent (t : Threads Service Task) : Prop :=
  Sections.Holds (fun s : Service => s.registry.WellFormed) (fun _ _ task => task.OwnNode) t

/-- A call goes on to its second part with what its first part found. -/
theorem waits_of_next {k : ℕ} {s s' : Service} {task task' : Task}
    (ran : serviceSections.next k s task = some (.inr task', s')) :
    ∃ c p, task = .first c ∧ s.prepare c = .ok p ∧ task' = .second p c.env ∧ s' = s := by
  rcases task with c | ⟨p, env⟩ <;> simp only [serviceSections] at ran
  · rcases hp : s.prepare c with e | p <;> rw [hp] at ran <;> cases ran
    exact ⟨c, p, rfl, hp, rfl, rfl⟩
  · cases ran

theorem consistent_invariant : serviceSections.Invariant (fun _ => True)
    (fun s : Service => s.registry.WellFormed) (fun _ _ task => task.OwnNode) where
  start _ _ := trivial
  shared {k s task r s'} hs _ ran := by
    rcases task with c | ⟨p, env⟩ <;> simp only [serviceSections] at ran
    · rcases hp : s.prepare c with e | p <;> rw [hp] at ran <;> cases ran <;> exact hs
    · cases ran
      exact Service.wellFormed_complete hs env p
  own {k s task task' s'} _ _ ran := by
    obtain ⟨c, p, -, hp, rfl, -⟩ := waits_of_next ran
    rcases p with _ | _ | _ | ⟨req, prepared⟩ | _ | _
    case submitLocalUpdate =>
      obtain ⟨-, -, hnode, -⟩ :=
        requireIdentityAndRegistration_ok
          (Service.prepareUpdate_ok (Service.preparedAs_of_prepare hp).2).require
      exact hnode.symm
    all_goals trivial
  other _ _ _ htask _ := htask

/-- A live credential was live at the start of the run, or was issued in it. -/
theorem live_final (h : Consistent t) {id : String}
    (hlive : (final serviceSections.step t events).shared.registry.Live n id) :
    t.shared.registry.Live n id ∨ IssuedIn t events n id := by
  induction events using List.reverseRecOn with
  | nil => exact .inl hlive
  | append_singleton events e ih =>
    rw [final_concat] at hlive
    have hbefore := consistent_invariant.final h events fun _ _ _ => trivial
    have hknown (hlive : (final serviceSections.step t events).shared.registry.Live n id) :
        t.shared.registry.Live n id ∨ IssuedIn t (events ++ [e]) n id :=
      (ih hlive).imp (fun h => h) fun hissued => hissued.append [e]
    rcases shared_step (final serviceSections.step t events) e with
      hsame | ⟨env, p, hcompletes, hafter⟩
    · rw [hsame] at hlive
      exact hknown hlive
    · rw [hafter] at hlive
      rcases Service.live_complete hbefore.shared hlive with hlive | hissues
      · exact hknown hlive
      · exact .inr ⟨events, e, [], env, p, rfl, hcompletes, hissues⟩

/-- The credential of a submission that waits for the lock was live at the start of the run, or was
issued in it. -/
theorem known_final (h : Consistent t) (hidle : ∀ k, t.running k = none) {k : ℕ}
    {req : SubmitLocalUpdateRequest} {prepared : Service.PreparedUpdate}
    (hk : (final serviceSections.step t events).running k =
      some (.second (.submitLocalUpdate req prepared) env)) :
    t.shared.registry.Live req.nodeID req.registrationID ∨
      IssuedIn t events req.nodeID req.registrationID := by
  induction events using List.reverseRecOn with
  | nil =>
    rw [final_nil, hidle k] at hk
    cases hk
  | append_singleton events e ih =>
    rw [final_concat] at hk
    have hbefore := consistent_invariant.final h events fun _ _ _ => trivial
    have hout := serviceSections.step_outcome (final serviceSections.step t events) e
    have hold (hk : (final serviceSections.step t events).running k =
        some (.second (.submitLocalUpdate req prepared) env)) :=
      (ih hk).imp id fun hissued => hissued.append [e]
    generalize serviceSections.step (final serviceSections.step t events) e = result at hout hk
    cases hout with
    | idle => exact hold hk
    | @started l i free =>
      simp only [Function.update_apply] at hk
      split_ifs at hk
      · cases hk
      · exact hold hk
    | @answered l task answer shared task_eq ran =>
      simp only [Function.update_apply] at hk
      split_ifs at hk
      exact hold hk
    | @continued l task task' shared task_eq ran =>
      simp only [Function.update_apply] at hk
      split_ifs at hk with hkl
      · cases hk
        obtain ⟨c, p, -, hp, htask, -⟩ := waits_of_next ran
        cases htask
        obtain ⟨-, -, hnode, -, entry, hvalid⟩ :=
          requireIdentityAndRegistration_ok
            (Service.prepareUpdate_ok (Service.preparedAs_of_prepare hp).2).require
        have hlive := RegistrationStore.live_of_validate hbefore.shared hvalid
        rw [← hnode] at hlive
        exact (live_final h hlive).imp id fun hissued => hissued.append _
      · exact hold hk

/-- A step that inserts an update leaves its credential live. -/
theorem live_of_inserts (h : Consistent t) {id : String} {u : PendingUpdate}
    (hcompletes : Completes t e env p) (hinserts : t.shared.Inserts env p n id u) :
    t.shared.registry.Live n id := by
  obtain ⟨k, -, hk⟩ := hcompletes
  obtain ⟨req, prepared, rfl, rfl, rfl, hupdate⟩ := hinserts
  obtain ⟨entry, hvalid⟩ := hupdate.valid
  have hown : prepared.identity.nodeID = req.nodeID := h.running k _ hk
  rw [← hown]
  exact RegistrationStore.live_of_validate h.shared hvalid

/-- A node without a live credential and without a pending update stays so until it registers. -/
theorem absent_final (h : Consistent t) (hdead : ∀ id, ¬ t.shared.registry.Live n id)
    (hpending : t.shared.pending.get? n = none) (hnot : ¬ RegisteredIn t events n) :
    (∀ id, ¬ (final serviceSections.step t events).shared.registry.Live n id) ∧
      (final serviceSections.step t events).shared.pending.get? n = none := by
  induction events using List.reverseRecOn with
  | nil => exact ⟨hdead, hpending⟩
  | append_singleton events e ih =>
    have hbefore := consistent_invariant.final h events fun _ _ _ => trivial
    obtain ⟨hdead, hpending⟩ := ih fun ⟨before, e', after, env, p, heq, hrest⟩ =>
      hnot ⟨before, e', after ++ [e], env, p, by simp [heq], hrest⟩
    rw [final_concat]
    rcases shared_step (final serviceSections.step t events) e with
      hsame | ⟨env, p, hcompletes, hafter⟩
    · rw [hsame]
      exact ⟨hdead, hpending⟩
    rw [hafter]
    refine ⟨fun id hlive => ?_, Option.eq_none_iff_forall_ne_some.2 fun u hu => ?_⟩
    · rcases Service.live_complete hbefore.shared hlive with
        hlive | ⟨hok, ⟨i, rfl, hnode⟩ | ⟨req, i, now, rfl, hnode⟩⟩
      · exact hdead id hlive
      · exact hnot ⟨events, e, [], env, _, rfl, hcompletes, hok, i, id, rfl, hnode⟩
      · -- a rotation needs the live credential it replaces
        exact hdead _ (Service.live_of_rotatesAway hbefore.shared
          ⟨hok, req, i, now, id, rfl, hnode, rfl⟩).1
    · rcases Service.pending_complete hu with hu | ⟨id, hinserts⟩
      · rw [hpending] at hu
        cases hu
      · exact hdead id (live_of_inserts hbefore hcompletes hinserts)

theorem IssuedIn.of_step {before mid : List (ThreadEvent Call)} {id : String}
    (h : IssuedIn (serviceSections.step (final serviceSections.step t before) e).2 mid n id) :
    ∃ before' e' after env p, before ++ e :: mid = (before ++ e :: before') ++ e' :: after ∧
      Completes (final serviceSections.step t (before ++ e :: before')) e' env p ∧
      (final serviceSections.step t (before ++ e :: before')).shared.Issues env p n id := by
  obtain ⟨before', e', after, env, p, rfl, hcompletes, hissues⟩ := h
  refine ⟨before', e', after, env, p, by simp, ?_, ?_⟩
  · rwa [final_append, final_cons]
  · rwa [final_append, final_cons]

/-- In every interleaving of calls: when a rotation away from a registration id or a revocation of
the node has completed, an update of the node is inserted under the id only if the id is issued to
the node in between; when ids are unique, the rotation is then impossible, the id had not been in
use before the revocation and no submission that waited for the lock carried it.  After a revocation
the node has no pending update until it registers again. -/
theorem no_update_under_dead_credential (storeCalls : List StoreCall) (cfg : Config) (clock : Clock)
    (s₀ : Service)
    (hnew : newService (final StoreCall.run newRegistrationStore storeCalls) cfg clock = .ok s₀)
    (before mid : List (ThreadEvent Call)) (e : ThreadEvent Call) (env : Env) (p : Prepared)
    (n : String) : let t₀ : Threads Service Task := ⟨s₀, fun _ => none⟩
    let t := final serviceSections.step t₀ before
    let t' := (serviceSections.step t e).2
    let t'' := final serviceSections.step t' mid
    Completes t e env p →
      (∀ f env' p' id u, (t.shared.RotatesAway env p n id ∨ t.shared.RevokesNode env p n) →
        Completes t'' f env' p' → t''.shared.Inserts env' p' n id u →
          IssuedIn t' mid n id ∧
            (UniqueIds t₀ (before ++ e :: mid) →
              ¬ t.shared.RotatesAway env p n id ∧
                (∀ m, ¬ s₀.registry.Live m id ∧ ¬ IssuedIn t₀ before m id) ∧
                ∀ k req prepared env₁, t.running k =
                  some (.second (.submitLocalUpdate req prepared) env₁) →
                  req.registrationID ≠ id)) ∧
      (t.shared.RevokesNode env p n → ¬ RegisteredIn t' mid n →
        t''.shared.pending.get? n = none) := by
  intro t₀ t t' t'' hcompletes
  have hstart : Consistent t₀ := Sections.holds_empty
    ((newService_ok hnew).1 ▸ RegistrationStore.wellFormed_final storeCalls)
  have ht : Consistent t := consistent_invariant.final hstart before fun _ _ _ => trivial
  have ht' : Consistent t' := consistent_invariant.step ht e fun _ _ _ => trivial
  have hshared : t'.shared = (t.shared.complete env p).2 := shared_of_completes hcompletes
  refine ⟨fun f env' p' id u hends hinsertion hinserts => ?_, fun hrevokes hnot => ?_⟩
  · have hdead : ¬ t'.shared.registry.Live n id := by
      rw [hshared]
      rcases hends with hrotates | hrevokes
      · exact (Service.live_of_rotatesAway ht.shared hrotates).2
      · exact (Service.not_live_of_revokesNode ht.shared hrevokes).1 id
    have hlive := live_of_inserts (consistent_invariant.final ht' mid fun _ _ _ =>
      trivial) hinsertion hinserts
    have hissued : IssuedIn t' mid n id := (live_final ht' hlive).resolve_left hdead
    refine ⟨hissued, fun hunique => ?_⟩
    obtain ⟨before', e', after, env'', p'', heq, hcompletes', hissues⟩ := IssuedIn.of_step hissued
    have hfresh (m : String) : ¬ s₀.registry.Live m id ∧ ¬ IssuedIn t₀ before m id :=
      have hid := hunique _ e' after env'' p'' n id heq hcompletes' hissues m
      ⟨hid.1, fun hbefore => hid.2 (hbefore.append _)⟩
    refine ⟨fun hrotates => ?_, hfresh, fun k req prepared env₁ hk hid => ?_⟩
    · exact not_or.2 (hfresh n)
        (live_final hstart (Service.live_of_rotatesAway ht.shared hrotates).1)
    · have hknown := known_final hstart (fun _ => rfl) hk
      rw [hid] at hknown
      exact not_or.2 (hfresh req.nodeID) hknown
  · obtain ⟨hdead, hpending⟩ := Service.not_live_of_revokesNode ht.shared hrevokes
    rw [← hshared] at hdead hpending
    exact (absent_final ht' hdead hpending hnot).2

end Runs

/-- The call of the thread is a revocation of the node that will be answered. -/
def RevocationWaits (t : Threads Service Task) (k : ℕ) (n : String) : Bool :=
  match t.running k with
  | some (.second p env) =>
    match (t.shared.complete env p).1 with
    | .ok (.revokeRegistration response) => response.targetNodeID = n
    | _ => false
  | _ => false

theorem revokesNode_of_revocationWaits {t : Threads Service Task} {k : ℕ} {n : String}
    (h : RevocationWaits t k n = true) :
    ∃ env p, Completes t (.run k) env p ∧ t.shared.RevokesNode env p n := by
  unfold RevocationWaits at h
  split at h
  next p env hk =>
    split at h
    next response hresponse =>
      exact ⟨env, p, ⟨k, rfl, hk⟩, response, hresponse, of_decide_eq_true h⟩
    next => cases h
  next => cases h

/-- The call of the thread is a submission that waits for the lock. -/
def SubmissionWaits (t : Threads Service Task) (k : ℕ) : Bool :=
  match t.running k with
  | some (.second (.submitLocalUpdate _ _) _) => true
  | _ => false

theorem not_registeredIn_of_submissionWaits {t : Threads Service Task} {k : ℕ}
    (h : SubmissionWaits t k = true) (n : String) : ¬ RegisteredIn t [.run k] n := by
  rintro ⟨before, e, after, env', p', heq, ⟨l, rfl, hl⟩, -, i, id, rfl, -⟩
  rcases before with _ | ⟨b, before⟩
  · cases heq
    rw [final_nil] at hl
    rw [SubmissionWaits, hl] at h
    cases h
  · simp at heq

/-- The worker's submission passes its first part and waits for the lock while an admin revokes
it. -/
def revokedSubmission : List (ThreadEvent Call) :=
  [.call 0 ⟨some ⟨"admin-1", "admin-1", "admin", "cd34"⟩,
      .registerNode (some ⟨"admin-1", "admin-1", true⟩), Service.sampleEnv 0 9⟩, .run 0, .run 0,
    .call 1 (Service.sampleRegistration "worker-1" 0 7), .run 1, .run 1,
    .call 2 (Service.sampleSubmission "worker-1" 1 7 [1]), .run 2,
    .call 3 (Service.sampleRevocation 1 1700000000), .run 3]

/-- The submission finds its credential revoked under the lock. -/
theorem no_update_under_revokedSubmission :
    let t := final serviceSections.step ⟨Service.sampleService, fun _ => none⟩ revokedSubmission
    let t' := (serviceSections.step t (.run 3)).2
    (∃ env p, Completes t (.run 3) env p ∧ t.shared.RevokesNode env p "worker-1") ∧
      SubmissionWaits t' 2 = true ∧
      (final serviceSections.step t' [.run 2]).shared.pending.get? "worker-1" = none := by
  intro t t'
  have hrevocation : RevocationWaits t 3 "worker-1" = true := by decide +kernel
  have hsubmission : SubmissionWaits t' 2 = true := by decide +kernel
  obtain ⟨env, p, hcompletes, hrevokes⟩ := revokesNode_of_revocationWaits hrevocation
  have hnot := not_registeredIn_of_submissionWaits hsubmission "worker-1"
  have hresult := no_update_under_dead_credential [] _ _ Service.sampleService
    Service.newService_sampleService revokedSubmission [.run 2] (.run 3) env p "worker-1"
  have ht :
    final serviceSections.step ⟨Service.sampleService, fun _ => none⟩ revokedSubmission = t := rfl
  have ht' : (serviceSections.step t (.run 3)).2 = t' := rfl
  simp only [ht, ht'] at hresult
  clear_value t t'
  exact ⟨⟨env, p, hcompletes, hrevokes⟩, hsubmission, (hresult hcompletes).2 hrevokes hnot⟩

end ZeroTrustFL
