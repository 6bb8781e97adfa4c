import Mathlib
import ZeroTrustFL.Lib.RateWindow
import ZeroTrustFL.Coordinator.Recovery
import ZeroTrustFL.Coordinator.Upgrade

/-!
# The rate limit across restarts

A durable coordinator that serves calls, crashes, also in the middle of a call, and starts again
from its store.  The limiter keeps a window for every node; calls that fail change it in memory
only, snapshots and restores drop it when it has ended, and rollbacks go back to an earlier one.
All the time the window in memory and the one in the store know the answers of the last minute
(`Tracks`), and so no minute sees more than twice the limit.
-/

namespace ZeroTrustFL

open RateWindow

/-! ## Windows -/

/-- The window of a node, if it has one. -/
def windowOf (rates : OrdMap String UpdateRateWindow) (n : String) : Option (ℤ × ℤ) :=
  match rates.get? n with
  | none => none
  | some window => if isZeroTime window.startedAt then none
    else some (window.startedAt, window.count)

theorem windowOf_congr {rates rates' : OrdMap String UpdateRateWindow} {n : String}
    (h : rates'.get? n = rates.get? n) : windowOf rates' n = windowOf rates n := by
  rw [windowOf, h, windowOf]

theorem windowOf_eq_some {rates : OrdMap String UpdateRateWindow} {n : String} {start count : ℤ}
    (h : windowOf rates n = some (start, count)) :
    rates.get? n = some ⟨start, count⟩ ∧ isZeroTime start = false := by
  rw [windowOf] at h
  rcases hg : rates.get? n with _ | window
  · rw [hg] at h
    cases h
  · rw [hg] at h
    simp only at h
    split_ifs at h with hzero
    cases h
    exact ⟨rfl, Bool.eq_false_of_not_eq_true hzero⟩

theorem windowOf_insert {rates : OrdMap String UpdateRateWindow} {n : String} {start count : ℤ}
    (h : isZeroTime start = false) :
    windowOf (rates.insert n ⟨start, count⟩) n = some (start, count) := by
  simp only [windowOf, OrdMap.get?_insert_self, h, Bool.false_eq_true, if_false]

/-- The windows that have not ended. -/
theorem windowOf_filter (rates : OrdMap String UpdateRateWindow) (n : String) (now : ℤ) :
    windowOf (rates.filter fun _ window =>
      !(isZeroTime window.startedAt || decide (minute ≤ now - window.startedAt))) n =
      (windowOf rates n).filter fun window => !decide (minute ≤ now - window.1) := by
  simp only [windowOf, OrdMap.get?_filter]
  rcases rates.get? n with _ | window
  · rfl
  simp only [Option.filter]
  by_cases hzero : isZeroTime window.startedAt = true
  · simp [hzero]
  · by_cases hended : minute ≤ now - window.startedAt <;> simp [hzero, hended]

namespace Service

variable {s : Service} {n : String} {now t : ℤ} {history : List (Admission ℤ)}

/-- `allowUpdateLocked` starts a window after the last one has ended, refuses, or counts. -/
theorem allowUpdateLocked_cases (s : Service) (n : String) {now : ℤ}
    (hnow : isZeroTime now = false) :
    ((∀ start count, windowOf s.rates n = some (start, count) → start + minute ≤ now) ∧
      windowOf (s.allowedRates n now) n = some (now, 1)) ∨
    ∃ start count, windowOf s.rates n = some (start, count) ∧
      ((s.allowUpdateLocked n now).1 = false ∧
        windowOf (s.allowedRates n now) n = some (start, count) ∨
        count < s.settings.maxUpdatesPerMinute ∧
          windowOf (s.allowedRates n now) n = some (start, count + 1)) := by
  rw [allowedRates, allowUpdateLocked]
  rcases hw : s.rates.get? n with _ | window
  · left
    refine ⟨fun start count h => ?_, ?_⟩
    · rw [windowOf, hw] at h
      cases h
    · simp only [Option.getD_none, isZeroTime, decide_true, true_or, if_true]
      exact windowOf_insert hnow
  simp only [Option.getD_some]
  split_ifs with hended hfull
  · left
    refine ⟨fun start count h => ?_, windowOf_insert hnow⟩
    obtain ⟨hget, hzero⟩ := windowOf_eq_some h
    rw [hw] at hget
    cases hget
    rcases hended with hended | (hended : minute ≤ now - start)
    · rw [hzero] at hended
      cases hended
    · omega
  · right
    rw [not_or] at hended
    have hwindow : windowOf s.rates n = some (window.startedAt, window.count) := by
      rw [windowOf, hw]
      exact if_neg hended.1
    exact ⟨_, _, hwindow, .inl ⟨rfl, hwindow⟩⟩
  · right
    rw [not_or] at hended
    have hwindow : windowOf s.rates n = some (window.startedAt, window.count) := by
      rw [windowOf, hw]
      exact if_neg hended.1
    exact ⟨_, _, hwindow, .inr ⟨not_le.1 hfull,
      windowOf_insert (Bool.eq_false_of_not_eq_true hended.1)⟩⟩

/-- The limiter knows what it knew, and has room for the submission if it allows it. -/
theorem tracks_allowed (h : Tracks minute (windowOf s.rates n) history t) (ht : t ≤ now)
    (hnow : isZeroTime now = false) (htimes : ∀ a ∈ history, a.time ≤ now) :
    Tracks minute (windowOf (s.allowedRates n now) n) history now ∧
      ((s.allowUpdateLocked n now).1 = true → ∃ start count,
        windowOf (s.allowedRates n now) n = some (start, count) ∧
        (countOf history start : ℤ) < count ∧ count ≤ s.settings.maxUpdatesPerMinute) := by
  have hminute : 0 < minute := by decide
  rcases s.allowUpdateLocked_cases n hnow with
    ⟨hended, hwindow⟩ | ⟨start, count, hwindow, ⟨hrefused, hsame⟩ | ⟨hlt, hnext⟩⟩
  · obtain ⟨htracks, hzero⟩ := h.restart hminute ht hended htimes
    rw [hwindow]
    refine ⟨htracks, fun _ => ⟨now, 1, rfl, ?_, s.settings.maxUpdatesPerMinute_pos⟩⟩
    rw [hzero]
    exact zero_lt_one
  · rw [hsame, ← hwindow]
    refine ⟨h.mono ht, fun hallowed => ?_⟩
    rw [hrefused] at hallowed
    cases hallowed
  · rw [hwindow] at h
    rw [hnext]
    refine ⟨h.increment.mono ht, fun _ => ⟨start, count + 1, rfl, ?_, hlt⟩⟩
    have hcount := h.counted start count rfl
    omega

theorem allowed_of_locked {req : SubmitLocalUpdateRequest} {prepared : PreparedUpdate} {env : Env}
    {response : SubmitLocalUpdateResponse} {s' : Service}
    (h : s.submitLocalUpdateLocked req prepared env = (.ok response, s')) :
    (s.allowUpdateLocked req.nodeID prepared.now).1 = true ∧
      s'.rates = s.allowedRates req.nodeID prepared.now := by
  rw [submitLocalUpdateLocked] at h
  rcases hv : s.registry.validate prepared.identity req.registrationID (env.clock.read 2) with
    e | entry
  · rw [hv] at h
    cases h
  rw [hv] at h
  have hrates := s.rates_acceptNonceLocked req.nodeID (nonceOf req.security) prepared.now
  have hsettings := (s.sameRound_acceptNonceLocked req.nodeID
    (nonceOf req.security) prepared.now).settings
  simp only at h
  generalize s.acceptNonceLocked req.nodeID (nonceOf req.security) prepared.now = checked
    at hrates hsettings h
  rcases checked with ⟨_ | _, s₁⟩
  · cases h
  have hallow : (s₁.allowUpdateLocked req.nodeID prepared.now).1 =
      (s.allowUpdateLocked req.nodeID prepared.now).1 := by
    simp only [allowUpdateLocked, show s₁.rates = s.rates from hrates,
      show s₁.settings = s.settings from hsettings]
    split_ifs <;> rfl
  rw [← allowedRates_congr hsettings hrates, allowedRates, ← hallow]
  simp only at h ⊢
  generalize s₁.allowUpdateLocked req.nodeID prepared.now = allowed at h
  rcases allowed with ⟨_ | _, s₂⟩
  · cases h
  have hadmit := s₂.rates_admitUpdate req prepared.values prepared.now env
  simp only at h
  rw [h] at hadmit
  exact ⟨rfl, hadmit⟩

/-- A submission that is answered has been allowed. -/
theorem allowed_of_submitted {c : Call} {req : SubmitLocalUpdateRequest} {response : Response}
    {s' : Service} (hreq : c.request = .submitLocalUpdate (some req))
    (h : s.serve c = (.ok response, s')) :
    (s.allowUpdateLocked req.nodeID (c.env.clock.read 1)).1 = true ∧
      s'.rates = s.allowedRates req.nodeID (c.env.clock.read 1) := by
  simp only [serve, hreq, submitLocalUpdate] at h
  rcases hp : s.prepareUpdate c.identity req c.env with e | prepared
  · rw [hp] at h
    cases h
  rw [hp] at h
  rw [← (prepareUpdate_ok hp).now]
  simp only at h
  rcases hlocked : s.submitLocalUpdateLocked req prepared c.env with ⟨e | response, s₁⟩
  · rw [hlocked] at h
    cases h
  · rw [hlocked] at h
    cases h
    exact allowed_of_locked hlocked

/-- A call that does not revoke the node leaves a window that knows as much. -/
theorem tracks_serve {c : Call} (h : Tracks minute (windowOf s.rates n) history t)
    (ht : t ≤ c.env.clock.read 1) (htimes : ∀ a ∈ history, a.time ≤ t)
    (hrevoked : ∀ response, (s.serve c).1 = .ok (.revokeRegistration response) →
      response.targetNodeID ≠ n) :
    Tracks minute (windowOf (s.serve c).2.rates n) history (c.env.clock.read 1) := by
  rcases s.rates_serve c with heq | ⟨i, -, -, heq⟩ | ⟨response, hok, heq⟩
  · rw [heq]
    exact h.mono ht
  · rw [heq]
    rcases eq_or_ne n i.nodeID with rfl | hne
    · exact (tracks_allowed h ht (c.env.clock.isZeroTime_read 1) fun a ha =>
        (htimes a ha).trans ht).1
    · rw [windowOf_congr (s.get?_allowedRates _ _ hne)]
      exact h.mono ht
  · rw [heq, windowOf_congr (OrdMap.get?_erase_of_ne _ (hrevoked response hok).symm)]
    exact h.mono ht

end Service

/-! ## Crashes and restarts -/

/-- A coordinator, which may be down, and its store. -/
structure Deployment where
  running : Option DurableService
  store : Store

/-- A call, a crash, possibly in the middle of a call whose answer is lost, or a start. -/
inductive DeploymentEvent where
  | call (c : DurableCall)
  | crash (interrupted : Option DurableCall)
  | start (storeCalls : List StoreCall) (clock : Clock) (outcome : CommitOutcome)

/-- The clock readings of an event. -/
def DeploymentEvent.clock? : DeploymentEvent → Option Clock
  | .call c => some c.call.env.clock
  | .crash interrupted => interrupted.map fun c => c.call.env.clock
  | .start _ clock _ => some clock

namespace Deployment

variable (cfg : Config) (experimentConfig : ExperimentConfig) (modelID : String)

/-- The store of a call that a crash interrupts is the one that the call leaves with some outcomes
of its commits. -/
def step (s : Deployment) : DeploymentEvent → Option (Except Failure Response) × Deployment
  | .call c =>
    match s.running with
    | none => (none, s)
    | some d =>
      match DurableState.serve ⟨d, s.store⟩ c with
      | (answer, ⟨d, st⟩) => (some answer, ⟨some d, st⟩)
  | .crash interrupted =>
    match s.running, interrupted with
    | some d, some c => (none, ⟨none, (DurableState.serve ⟨d, s.store⟩ c).2.store⟩)
    | _, _ => (none, { s with running := none })
  | .start storeCalls clock outcome =>
    match s.running with
    | some _ => (none, s)
    | none =>
      match openDurableService (final StoreCall.run newRegistrationStore storeCalls) cfg s.store
        experimentConfig modelID clock outcome with
      | (.error _, st) => (none, ⟨none, st⟩)
      | (.ok d, st) => (none, ⟨some d, st⟩)

/-- The clock readings of a submission of the node that is answered with success. -/
def answered (n : String) (s : Deployment) (e : DeploymentEvent) : List Clock :=
  match e, (s.step cfg experimentConfig modelID e).1 with
  | .call c, some (.ok _) =>
    match c.call.request with
    | .submitLocalUpdate (some req) => if req.nodeID = n then [c.call.env.clock] else []
    | _ => []
  | _, _ => []

/-- The submissions of the node in a run that are answered with success. -/
def successes (n : String) (s : Deployment) : List DeploymentEvent → List Clock
  | [] => []
  | e :: events =>
    s.answered cfg experimentConfig modelID n e ++ successes n
      (s.step cfg experimentConfig modelID e).2 events

end Deployment

/-- A call revokes the node, and is not rolled back. -/
def DurableState.revokes (n : String) (d : DurableState) (c : DurableCall) : Bool :=
  match (d.durable.service.serve c.inner).1, (d.serve c).1 with
  | .ok (.revokeRegistration response), .error _ =>
    response.targetNodeID = n ∧ c.outcomes.rollback ≠ .success
  | .ok (.revokeRegistration response), .ok _ => response.targetNodeID = n
  | _, _ => false

namespace Deployment

variable (cfg : Config) (experimentConfig : ExperimentConfig) (modelID : String)

def revokes (n : String) (s : Deployment) : DeploymentEvent → Bool
  | .call c => s.running.any fun d => DurableState.revokes n ⟨d, s.store⟩ c
  | .crash interrupted => interrupted.any fun c => s.running.any fun d =>
      DurableState.revokes n ⟨d, s.store⟩ c
  | .start _ _ _ => false

/-- The node is not revoked in a run. -/
def NotRevoked (n : String) (s : Deployment) : List DeploymentEvent → Prop
  | [] => True
  | e :: events => s.revokes n e = false ∧
      NotRevoked n (s.step cfg experimentConfig modelID e).2 events

end Deployment

/-! ## Snapshots -/

section

variable {n : String} {history : List (Admission ℤ)} {t : ℤ}

theorem window_captured (d : DurableService) {clock : Clock} {u : ℤ} (hle : clock.read 0 ≤ u) :
    windowOf (DurableService.restoreRates u (d.captureSnapshot clock).rateWindows) n =
      (windowOf d.service.rates n).filter fun window => !decide (minute ≤ u - window.1) := by
  have hu : 0 < u := (clock.read_pos 0).trans_le hle
  have hrestore := @DurableService.restoreRates_captureSnapshot clock (.still u hu) d hle
  exact (congrArg (windowOf · n) hrestore).trans (windowOf_filter _ _ _)

/-- What is dropped from a window has ended. -/
theorem tracks_dropped {window : Option (ℤ × ℤ)} (h : Tracks minute window history t) {u : ℤ}
    (hle : t ≤ u) :
    Tracks minute (window.filter fun window => !decide (minute ≤ u - window.1)) history u := by
  refine h.filter hle _ fun start count _ hdropped => ?_
  simp only [Bool.not_eq_false', decide_eq_true_eq] at hdropped
  omega

/-- A restore from the store gives a window that knows the admissions. -/
def Store.Knows (st : Store) (n : String) (history : List (Admission ℤ)) (t : ℤ) : Prop :=
  history = [] ∨ ∃ snapshot, st.persisted = some snapshot ∧
    ∀ u, t ≤ u → Tracks minute
    (windowOf (DurableService.restoreRates u snapshot.rateWindows) n) history u

theorem Store.Knows.mono {st : Store} {u : ℤ} (h : st.Knows n history t) (hle : t ≤ u) :
    st.Knows n history u :=
  h.imp_right fun ⟨snapshot, hpersisted, htracks⟩ =>
    ⟨snapshot, hpersisted, fun v hv => htracks v (hle.trans hv)⟩

/-- A snapshot knows what the service knows. -/
theorem knows_apply {d : DurableService} (h : Tracks minute (windowOf d.service.rates n) history t)
    {clock : Clock} (hle : t ≤ clock.read 0) (st : Store) (events : List AuditEvent) {u : ℤ}
    (hu : clock.read 0 ≤ u) : (st.apply (d.captureSnapshot clock) events).Knows n history u := by
  refine .inr ⟨_, rfl, fun v hv => ?_⟩
  rw [window_captured d (hu.trans hv)]
  exact tracks_dropped h (hle.trans (hu.trans hv))

end

namespace DurableState

variable {d : DurableState} {c : DurableCall} {n : String} {history : List (Admission ℤ)} {t : ℤ}

/-- The service after a call that is not a revocation of the node, and a snapshot of it. -/
theorem tracks_inner (h : Tracks minute (windowOf d.durable.service.rates n) history t)
    (ht : t ≤ c.call.env.clock.start) (htimes : ∀ a ∈ history, a.time ≤ t)
    (hrevoked : ∀ response, (d.durable.service.serve c.inner).1 =
      .ok (.revokeRegistration response) →
      response.targetNodeID ≠ n) :
    Tracks minute (windowOf (d.durable.service.serve c.inner).2.rates n) history
      (c.call.env.clock.read 3) :=
  Service.tracks_serve h (ht.trans (c.call.env.clock.start_le_read 3)) htimes hrevoked

theorem knows_applied
    (h : Tracks minute (windowOf (d.durable.service.serve c.inner).2.rates n) history
      (c.call.env.clock.read 3)) {events : List AuditEvent} :
    (d.store.apply (d.after c) events).Knows n history c.call.env.clock.finish :=
  @knows_apply _ _ _ (d.withService (d.durable.service.serve c.inner).2).durable h
    (c.call.env.clock.drop 6)
    (c.call.env.clock.read_le_read (by decide)) _ _ _ (c.call.env.clock.le_finish _)

theorem knows_forwarded (hstore : d.store.Knows n history t) (ht : t ≤ c.call.env.clock.start)
    (h : Tracks minute (windowOf (d.durable.service.serve c.inner).2.rates n) history
      (c.call.env.clock.read 3))
    {response : Response} {st : Store} (forwarded : d.Forwarded c response st) :
    st.Knows n history c.call.env.clock.finish := by
  cases forwarded with
  | unchanged => exact hstore.mono (ht.trans c.call.env.clock.start_le_finish)
  | applied check forward => exact knows_applied h

/-- A call that does not revoke the node leaves a window in memory and one in the store that know as
much. -/
theorem tracks_call (hready : d.Ready t)
    (h : Tracks minute (windowOf d.durable.service.rates n) history t)
    (hstore : d.store.Knows n history t) (ht : t ≤ c.call.env.clock.start)
    (htimes : ∀ a ∈ history, a.time ≤ t) (hrevoked : d.revokes n c = false) :
    Tracks minute (windowOf (d.serve c).2.durable.service.rates n) history c.call.env.clock.finish ∧
      (d.serve c).2.store.Knows n history c.call.env.clock.finish := by
  have hfinish := ht.trans c.call.env.clock.start_le_finish
  have hrestored : Tracks minute
      (windowOf (d.restored c).service.rates n) history c.call.env.clock.finish := by
    have hdropped := tracks_dropped h (ht.trans (c.call.env.clock.start_le_read 10))
    rw [← windowOf_filter] at hdropped
    exact hdropped.mono (c.call.env.clock.le_finish 10)
  have hout := serve_outcome hready.recoverable ht
  rw [revokes] at hrevoked
  generalize d.serve c = result at hout hrevoked
  cases hout with
  | read request => exact ⟨h.mono hfinish, hstore.mono hfinish⟩
  | @rejected e service ran =>
    have hinner := tracks_inner h ht htimes fun response hok => by
      rw [ran] at hok
      cases hok
    rw [ran] at hinner
    exact ⟨hinner.mono (c.call.env.clock.le_finish 3), hstore.mono hfinish⟩
  | @committed response service ran check =>
    have hinner := tracks_inner h ht htimes fun revocation hok => by
      rw [ran] at hok hrevoked
      cases hok
      simpa using hrevoked
    refine ⟨?_, knows_applied hinner⟩
    rw [ran] at hinner
    exact hinner.mono (c.call.env.clock.le_finish 3)
  | @rolledBack e response service st ran forwarded =>
    exact ⟨hrestored, knows_apply h ht _ _ (c.call.env.clock.le_finish 0)⟩
  | @uncompensated e response service st message ran forwarded rollback =>
    have hinner := tracks_inner h ht htimes fun revocation hok => by
      rw [ran] at hok hrevoked
      cases hok
      simpa [rollback] using hrevoked
    exact ⟨hrestored, knows_forwarded hstore ht hinner forwarded⟩

/-- A submission of the node that is answered with success is known in memory and in the store. -/
theorem tracks_submitted (hready : d.Ready t)
    (h : Tracks minute (windowOf d.durable.service.rates n) history t)
    (ht : t ≤ c.call.env.clock.start) (htimes : ∀ a ∈ history, a.time ≤ t) {limit : ℤ}
    (hlimit : d.durable.service.settings.maxUpdatesPerMinute = limit)
    (hspaced : Spaced minute limit history) {req : SubmitLocalUpdateRequest}
    (hreq : c.call.request = .submitLocalUpdate (some req)) (hnode : req.nodeID = n)
    {response : Response} (hok : (d.serve c).1 = .ok response) {time : ℤ}
    (htime : c.call.env.clock.read 3 ≤ time) :
    ∃ start, Spaced minute limit (history ++ [⟨start, time⟩]) ∧
      Tracks minute (windowOf (d.serve c).2.durable.service.rates n) (history ++ [⟨start, time⟩])
        c.call.env.clock.finish ∧
      (d.serve c).2.store.Knows n (history ++ [⟨start, time⟩]) c.call.env.clock.finish := by
  have hout := serve_outcome hready.recoverable ht
  generalize d.serve c = result at hout hok ⊢
  cases hout with
  | read request =>
    rw [hreq] at request
    cases request
  | rejected ran => cases hok
  | rolledBack ran forwarded => cases hok
  | uncompensated ran forwarded rollback => cases hok
  | @committed response service ran check =>
    obtain ⟨hallowed, hrates⟩ := @Service.allowed_of_submitted _ c.inner _ _ _ hreq ran
    have hread : c.inner.env.clock.read 1 = c.call.env.clock.read 3 := rfl
    subst hnode
    rw [hread] at hallowed hrates
    have ht₃ := ht.trans (c.call.env.clock.start_le_read 3)
    obtain ⟨htracks, hroom⟩ := Service.tracks_allowed h ht₃ (c.call.env.clock.isZeroTime_read 3)
      fun a ha => (htimes a ha).trans ht₃
    obtain ⟨start, count, hwindow, hlt, hle⟩ := hroom hallowed
    rw [hwindow] at htracks
    have hadmitted := htracks.admit hlt time
    rw [← hwindow, ← hrates] at hadmitted
    refine ⟨start, hspaced.admit htracks hlt (hlimit ▸ hle) htime,
      hadmitted.mono (c.call.env.clock.le_finish 3), knows_applied ?_⟩
    rwa [ran]

end DurableState

/-! ## Runs -/

namespace Deployment

variable {cfg : Config} {experimentConfig : ExperimentConfig} {modelID : String} {n : String}

/-- What holds of the admissions of the node between two events. -/
structure Limited (n : String) (limit : ℤ) (history : List (Admission ℤ)) (t : ℤ) (s : Deployment) :
    Prop where
  spaced : Spaced minute limit history
  times : ∀ a ∈ history, a.time ≤ t
  store : s.store.Knows n history t
  running : ∀ d, s.running = some d → DurableState.Ready ⟨d, s.store⟩ t ∧
    d.service.settings.maxUpdatesPerMinute = limit ∧
    Tracks minute (windowOf d.service.rates n) history t

variable {limit : ℤ} {history : List (Admission ℤ)} {t : ℤ} {s : Deployment}

theorem Limited.mono {u : ℤ} (h : s.Limited n limit history t) (hle : t ≤ u) :
    s.Limited n limit history u := by
  refine ⟨h.spaced, fun a ha => (h.times a ha).trans hle, h.store.mono hle, fun d hd => ?_⟩
  obtain ⟨hready, hlimit, htracks⟩ := h.running d hd
  exact ⟨hready.mono hle, hlimit, htracks.mono hle⟩

variable {clock : Clock} {registry : RegistrationStore} {stamp : Clock → ℤ}

theorem maxUpdatesPerMinute_new {service : Service}
    (h : newService registry cfg clock = .ok service) :
    service.settings.maxUpdatesPerMinute =
      orDefault cfg.maxUpdatesPerMinute defaultMaxUpdatesPerMinute := by
  unfold newService at h
  split at h
  · cases h
  · split at h
    · cases h
    · cases h
      rfl

/-- What a start restores from the store, and the store it leaves, know what the store knew. -/
theorem knows_open {st : Store} {outcome : CommitOutcome} (h : st.Knows n history t)
    (ht : t ≤ clock.start) :
    (openDurableService registry cfg st experimentConfig modelID clock outcome).2.Knows n history
      clock.finish ∧
      ∀ d, (openDurableService registry cfg st experimentConfig modelID clock outcome).1 = .ok d →
        history ≠ [] → Tracks minute (windowOf d.service.rates n) history clock.finish := by
  have hfinish := ht.trans clock.start_le_finish
  rcases h with rfl | ⟨snapshot, hpersisted, htracks⟩
  · exact ⟨.inl rfl, fun _ _ hne => absurd rfl hne⟩
  have hkept : st.Knows n history clock.finish :=
    .mono (.inr ⟨snapshot, hpersisted, htracks⟩) hfinish
  rw [openDurableService]
  rcases hprepare : prepareOpening registry cfg experimentConfig modelID clock st.load with e | o
  · exact ⟨hkept, fun d hd => by cases hd⟩
  obtain ⟨-, loaded, -, hload⟩ := configured_of_prepareOpening hprepare
  have hloaded := Store.load_ok hload
  rw [hpersisted] at hloaded
  subst hloaded
  rw [hload] at hprepare
  obtain ⟨d₀, d, -, hrestore, rfl⟩ := prepareOpening_ok hprepare
  obtain ⟨registry', hrestored⟩ := DurableService.restoreSnapshot_restored hrestore
  have hd : Tracks minute (windowOf d.service.rates n) history (clock.read 2) := by
    rw [hrestored.eq]
    exact htracks _ (ht.trans (clock.start_le_read 2))
  have happly (event : AuditEvent) :
      (st.apply (d.captureSnapshot ((clock.drop 4).drop 3)) [event]).Knows n history clock.finish :=
    @knows_apply _ _ _ d hd ((clock.drop 4).drop 3)
      (clock.read_le_read (by decide)) _ _ _ (clock.le_finish _)
  simp only [commitOpening, DurableService.opening]
  rcases st.commit_eq (d.captureSnapshot ((clock.drop 4).drop 3))
      [stateAuditEvent .stateRecovered (d.captureSnapshot (clock.drop 4)) ((clock.drop 4).read 2)]
      outcome with
    ⟨e, -, hcommit⟩ | ⟨-, ⟨-, hcommit⟩ | ⟨applied, message, -, hcommit⟩⟩ <;> rw [hcommit]
  · exact ⟨hkept, fun d hd => by cases hd⟩
  · refine ⟨happly _, fun d' hd' _ => ?_⟩
    cases hd'
    exact hd.mono (clock.le_finish 2)
  · refine ⟨?_, fun d hd => by cases hd⟩
    cases applied
    · exact hkept
    · exact happly _

/-- A start keeps what is known. -/
theorem Limited.start
    (h : s.Limited n (orDefault cfg.maxUpdatesPerMinute defaultMaxUpdatesPerMinute) history t)
    (storeCalls : List StoreCall) (ht : t ≤ clock.start) (outcome : CommitOutcome) :
    (s.step cfg experimentConfig modelID (.start storeCalls clock outcome)).2.Limited n
      (orDefault cfg.maxUpdatesPerMinute defaultMaxUpdatesPerMinute) history clock.finish := by
  have hfinish := ht.trans clock.start_le_finish
  have htimes : ∀ a ∈ history, a.time ≤ clock.finish := fun a ha => (h.times a ha).trans hfinish
  rw [step]
  rcases hrunning : s.running with _ | d
  · obtain ⟨hstore, htracks⟩ := @knows_open cfg experimentConfig modelID _ _ _ _
      (final StoreCall.run newRegistrationStore storeCalls) _ outcome h.store ht
    have hnew := opened_openDurableService
      (final StoreCall.run newRegistrationStore storeCalls) cfg s.store
      experimentConfig modelID clock outcome
    simp only
    generalize openDurableService (final StoreCall.run newRegistrationStore storeCalls) cfg s.store
      experimentConfig modelID clock outcome = result at hstore htracks hnew
    rcases result with ⟨e | d, st⟩
    · exact ⟨h.spaced, htimes, hstore, fun d hd => by cases hd⟩
    have hready := DurableState.ready_new (RegistrationStore.wellFormed_final storeCalls) hnew.symm
    obtain ⟨d₀, hconf, hsettings, -⟩ := configured_new hnew.symm
    refine ⟨h.spaced, htimes, hstore, fun d' hd' => ?_⟩
    cases hd'
    refine ⟨hready, ?_, ?_⟩
    · rw [show d.service.settings = d₀.service.settings from hsettings,
        maxUpdatesPerMinute_new hconf.service]
    · rcases eq_or_ne history [] with rfl | hne
      · refine tracks_nil _ (fun start count heq => ?_) _
        exact (hready.recoverable.sound.rates n _ (windowOf_eq_some heq).1).2.1.le
      · exact htracks d rfl hne
  · exact h.mono hfinish

theorem answered_cases (s : Deployment) (c : DurableCall) :
    s.answered cfg experimentConfig modelID n (.call c) = [] ∨
      ∃ req response, c.call.request = .submitLocalUpdate (some req) ∧ req.nodeID = n ∧
        (s.step cfg experimentConfig modelID (.call c)).1 = some (.ok response) ∧
        s.answered cfg experimentConfig modelID n (.call c) = [c.call.env.clock] := by
  rcases hanswer : (s.step cfg experimentConfig modelID (.call c)).1 with _ | e | response
  · exact .inl (by simp only [answered, hanswer])
  · exact .inl (by simp only [answered, hanswer])
  rcases hreq : c.call.request with req | req | req | (_ | req) | req | req
  · exact .inl (by simp only [answered, hanswer, hreq])
  · exact .inl (by simp only [answered, hanswer, hreq])
  · exact .inl (by simp only [answered, hanswer, hreq])
  · exact .inl (by simp only [answered, hanswer, hreq])
  · rcases eq_or_ne req.nodeID n with hnode | hnode
    · exact .inr ⟨req, response, rfl, hnode, rfl,
        by simp only [answered, hanswer, hreq, if_pos hnode]⟩
    · exact .inl (by simp only [answered, hanswer, hreq, if_neg hnode])
  · exact .inl (by simp only [answered, hanswer, hreq])
  · exact .inl (by simp only [answered, hanswer, hreq])

/-- A call adds the answer to a submission of the node. -/
theorem Limited.call (hstamp : ∀ clock, clock.read 3 ≤ stamp clock ∧ stamp clock ≤ clock.finish)
    (h : s.Limited n limit history t) {c : DurableCall} (ht : t ≤ c.call.env.clock.start)
    (hrevoked : s.revokes n (.call c) = false) :
    ∃ history', (s.step cfg experimentConfig modelID (.call c)).2.Limited n limit history'
      c.call.env.clock.finish ∧
      history'.map Admission.time =
        history.map Admission.time ++
        (s.answered cfg experimentConfig modelID n (.call c)).map stamp := by
  have hfinish := ht.trans c.call.env.clock.start_le_finish
  have htimes : ∀ a ∈ history, a.time ≤ c.call.env.clock.finish := fun a ha =>
    (h.times a ha).trans hfinish
  rcases hrunning : s.running with _ | d
  · refine ⟨history, ?_, ?_⟩
    · simp only [step, hrunning]
      exact h.mono hfinish
    · simp only [answered, step, hrunning, List.map_nil, List.append_nil]
  obtain ⟨hready, hlimit, htracks⟩ := h.running d hrunning
  have hready' := hready.serve ht
  have hlimit' :
      (DurableState.serve ⟨d, s.store⟩ c).2.durable.service.settings.maxUpdatesPerMinute =
      limit := by
    rw [(DurableState.sameIdentity_serve hready.recoverable ht).settings]
    exact hlimit
  have hstep : s.step cfg experimentConfig modelID (.call c) =
      (some (DurableState.serve ⟨d, s.store⟩ c).1,
        ⟨some (DurableState.serve ⟨d, s.store⟩ c).2.durable,
        (DurableState.serve ⟨d, s.store⟩ c).2.store⟩) := by
    simp only [step, hrunning]
  rcases s.answered_cases c with hnone | ⟨req, response, hreq, hnode, hanswer, hsome⟩
  · have hrevoked' : DurableState.revokes n ⟨d, s.store⟩ c = false := by
      simpa [revokes, hrunning] using hrevoked
    have hcall := DurableState.tracks_call hready htracks h.store ht h.times hrevoked'
    refine ⟨history, ?_, by rw [hnone, List.map_nil, List.append_nil]⟩
    rw [hstep]
    refine ⟨h.spaced, htimes, hcall.2, fun d' hd' => ?_⟩
    cases hd'
    exact ⟨hready', hlimit', hcall.1⟩
  · rw [hstep] at hanswer
    obtain ⟨start, hspaced, htracks', hstore'⟩ :=
      DurableState.tracks_submitted hready htracks ht h.times hlimit
      h.spaced hreq hnode (Option.some.inj hanswer) (hstamp c.call.env.clock).1
    refine ⟨history ++ [⟨start, stamp c.call.env.clock⟩], ?_, ?_⟩
    · rw [hstep]
      refine ⟨hspaced, fun a ha => ?_, hstore', fun d' hd' => ?_⟩
      · rcases List.mem_append.1 ha with ha | ha
        · exact htimes a ha
        · rw [List.mem_singleton.1 ha]
          exact (hstamp c.call.env.clock).2
      · cases hd'
        exact ⟨hready', hlimit', htracks'⟩
    · rw [hsome, List.map_append]
      rfl

/-- A crash keeps what the store knows. -/
theorem Limited.crash (h : s.Limited n limit history t) {interrupted : Option DurableCall} {u : ℤ}
    (hle : t ≤ u) (ht : ∀ c ∈ interrupted, t ≤ c.call.env.clock.start ∧ c.call.env.clock.finish ≤ u)
    (hrevoked : s.revokes n (.crash interrupted) = false) :
    (s.step cfg experimentConfig modelID (.crash interrupted)).2.Limited n limit history u := by
  have htimes : ∀ a ∈ history, a.time ≤ u := fun a ha => (h.times a ha).trans hle
  rcases hrunning : s.running with _ | d
  · simp only [step, hrunning]
    exact ⟨h.spaced, htimes, h.store.mono hle, fun d hd => by cases hd⟩
  rcases interrupted with _ | c
  · simp only [step, hrunning]
    exact ⟨h.spaced, htimes, h.store.mono hle, fun d hd => by cases hd⟩
  obtain ⟨hstart, hfinish⟩ := ht c rfl
  obtain ⟨hready, -, htracks⟩ := h.running d hrunning
  have hrevoked' : DurableState.revokes n ⟨d, s.store⟩ c = false := by
    simpa [revokes, hrunning] using hrevoked
  have hcall := DurableState.tracks_call hready htracks h.store hstart h.times hrevoked'
  simp only [step, hrunning]
  exact ⟨h.spaced, htimes, hcall.2.mono hfinish, fun d hd => by cases hd⟩

/-- An event adds the answer to a submission of the node, and ends before the events after it
start. -/
theorem Limited.step (hstamp : ∀ clock, clock.read 3 ≤ stamp clock ∧ stamp clock ≤ clock.finish)
    (h : s.Limited n (orDefault cfg.maxUpdatesPerMinute defaultMaxUpdatesPerMinute) history t)
    (e : DeploymentEvent) {later : List Clock}
    (ht : ∀ clock ∈ e.clock?.toList ++ later, t ≤ clock.start)
    (hord : (e.clock?.toList ++ later).Pairwise Clock.Before) (hrevoked : s.revokes n e = false) :
    ∃ history' u, (s.step cfg experimentConfig modelID e).2.Limited n
        (orDefault cfg.maxUpdatesPerMinute defaultMaxUpdatesPerMinute) history' u ∧
      (∀ clock ∈ later, u ≤ clock.start) ∧
      history'.map Admission.time =
        history.map Admission.time ++ (s.answered cfg experimentConfig modelID n e).map stamp := by
  rcases e with c | (_ | c) | ⟨storeCalls, clock, outcome⟩
  · obtain ⟨history', hlimited, htimes⟩ :=
      h.call hstamp (ht c.call.env.clock List.mem_cons_self) hrevoked
    exact ⟨history', _, hlimited, (List.pairwise_cons.1 hord).1, htimes⟩
  · exact ⟨history, t, h.crash le_rfl (fun c hc => by cases hc) hrevoked, ht,
      (List.append_nil _).symm⟩
  · have hstart := ht _ List.mem_cons_self
    refine ⟨history, c.call.env.clock.finish, ?_, (List.pairwise_cons.1 hord).1,
      (List.append_nil _).symm⟩
    refine h.crash (hstart.trans c.call.env.clock.start_le_finish) (fun d hd => ?_) hrevoked
    cases hd
    exact ⟨hstart, le_rfl⟩
  · exact ⟨history, _, h.start storeCalls (ht _ List.mem_cons_self) outcome,
      (List.pairwise_cons.1 hord).1, (List.append_nil _).symm⟩

/-- The answers of a run are added to what is known. -/
theorem Limited.final (hstamp : ∀ clock, clock.read 3 ≤ stamp clock ∧ stamp clock ≤ clock.finish)
    (h : s.Limited n (orDefault cfg.maxUpdatesPerMinute defaultMaxUpdatesPerMinute) history t)
    {events : List DeploymentEvent}
    (ht : ∀ clock ∈ events.filterMap DeploymentEvent.clock?, t ≤ clock.start)
    (hord : (events.filterMap DeploymentEvent.clock?).Pairwise Clock.Before)
    (hrevoked : s.NotRevoked cfg experimentConfig modelID n events) :
    ∃ history',
      Spaced minute (orDefault cfg.maxUpdatesPerMinute defaultMaxUpdatesPerMinute) history' ∧
      history'.map Admission.time =
        history.map Admission.time ++
        (s.successes cfg experimentConfig modelID n events).map stamp := by
  induction events generalizing s history t with
  | nil => exact ⟨history, h.spaced, by rw [successes, List.map_nil, List.append_nil]⟩
  | cons e events ih =>
    obtain ⟨hfirst, hrest⟩ := hrevoked
    have hclocks : (e :: events).filterMap DeploymentEvent.clock? =
        e.clock?.toList ++ events.filterMap DeploymentEvent.clock? := by
      rcases hclock : e.clock? with _ | clock
      · simp [hclock]
      · simp [hclock]
    rw [hclocks] at ht hord
    obtain ⟨history₁, u, hlimited, hlater, htimes₁⟩ := h.step hstamp e ht hord hfirst
    obtain ⟨history₂, hspaced, htimes₂⟩ :=
      ih hlimited hlater (List.pairwise_append.1 hord).2.1 hrest
    exact ⟨history₂, hspaced,
      by rw [htimes₂, htimes₁, successes, List.map_append, List.append_assoc]⟩

/-- In every run of a coordinator, with crashes and starts, in which a node is not revoked, no
minute sees more than twice the limit of answers with success to its submissions, whichever time
between the check of the limit and the end of the call an answer is dated at. -/
theorem answers_per_minute (cfg : Config) (experimentConfig : ExperimentConfig) (modelID : String)
    (st : Store) (n : String) (stamp : Clock → ℤ)
    (hstamp : ∀ clock, clock.read 3 ≤ stamp clock ∧ stamp clock ≤ clock.finish)
    (events : List DeploymentEvent)
    (hord : (events.filterMap DeploymentEvent.clock?).Pairwise Clock.Before)
    (hrevoked : NotRevoked cfg experimentConfig modelID n ⟨none, st⟩ events) (u : ℤ) :
    (((successes cfg experimentConfig modelID n ⟨none, st⟩ events).map stamp).countP
      (fun time => u ≤ time ∧ time < u + minute) : ℤ) ≤
      2 * orDefault cfg.maxUpdatesPerMinute defaultMaxUpdatesPerMinute := by
  have hlimit : (0 : ℤ) ≤ orDefault cfg.maxUpdatesPerMinute defaultMaxUpdatesPerMinute :=
    (orDefault_pos (by decide)).le
  have hstart : Limited n (orDefault cfg.maxUpdatesPerMinute defaultMaxUpdatesPerMinute) [] 0
      ⟨none, st⟩ :=
    ⟨⟨fun a ha => absurd ha List.not_mem_nil, fun _ => hlimit⟩, fun a ha =>
      absurd ha List.not_mem_nil, .inl rfl, fun d hd => by cases hd⟩
  obtain ⟨history, hspaced, htimes⟩ :=
    hstart.final hstamp (fun clock _ => clock.pos.le) hord hrevoked
  rw [List.map_nil, List.nil_append] at htimes
  have hcount := hspaced.count_interval (by decide) u
  rwa [← htimes, List.countP_map]

/-- A coordinator is started, a worker registers and closes a round, and the coordinator crashes and
starts again. -/
def sampleRun : List DeploymentEvent :=
  [.start [] (Service.sampleEnv 0 0).clock .success,
    .call ⟨Service.sampleRegistration "worker-1" 1 7, .success, .success⟩,
    .call ⟨Service.sampleSubmission "worker-1" 2 7 [1], .success, .success⟩,
    .crash none,
    .start [] (Service.sampleEnv 10 0).clock .success]

theorem answers_per_minute_sampleRun :
    (successes ⟨0, 0, none, 1, 0, ""⟩ DurableState.sampleExperiment "global-model" "worker-1"
      ⟨none, ⟨true, none, []⟩⟩ sampleRun).length = 1 ∧
    ∀ u : ℤ,
    (((successes ⟨0, 0, none, 1, 0, ""⟩ DurableState.sampleExperiment "global-model" "worker-1"
      ⟨none, ⟨true, none, []⟩⟩ sampleRun).map Clock.finish).countP (fun time => u ≤ time ∧
        time < u + minute) : ℤ) ≤ 2 * defaultMaxUpdatesPerMinute :=
  ⟨by decide +kernel, answers_per_minute
    ⟨0, 0, none, 1, 0, ""⟩ DurableState.sampleExperiment "global-model"
    ⟨true, none, []⟩ "worker-1" Clock.finish (fun clock => ⟨clock.le_finish 3, le_rfl⟩) sampleRun
    (by decide +kernel) ⟨by decide +kernel, by decide +kernel, by decide +kernel, by decide +kernel,
      by decide +kernel, trivial⟩⟩

end Deployment

end ZeroTrustFL
