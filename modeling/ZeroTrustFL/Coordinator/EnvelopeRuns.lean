import Mathlib
import ZeroTrustFL.Coordinator.Isolation
import ZeroTrustFL.Coordinator.OneSchema

/-!
# Calls of the envelope service

The sections of a call that is not interrupted serve it as a whole.  In every reachable state the
pending updates are fewer than the quorum, are kept under the names of their nodes, are finite and
have the length of the model's vector, and the model's payload can be read.
-/

namespace ZeroTrustFL

/-! ## Calls one after the other -/

namespace EnvelopeService

/-- A submission with a valid envelope. -/
def submitUpdate (modelID : String) (s : Service) (c : Call) (req : SubmitLocalUpdateRequest) :
    Except Failure Response × Service :=
  match afterReading modelID req (s.serve (readingCall c req)).1 with
  | .error answer => (answer, s)
  | .ok true => s.serve (submittingCall c)
  | .ok false =>
    match checkPendingSchema c.env.order req s.pending with
    | .error e => (.error e, s)
    | .ok () => s.serve (submittingCall c)

/-- A whole call. -/
def serve (modelID : String) (s : Service) (c : Call) : Except Failure Response × Service :=
  match c.request with
  | .submitLocalUpdate none =>
    (.error (.status .invalidArgument "local update request is required"), s)
  | .submitLocalUpdate (some req) =>
    match validateUpdateEnvelope modelID req with
    | .error e => (.error e, s)
    | .ok () => submitUpdate modelID s c req
  | .getGlobalModel _ => (s.serve c).map (decorateResponse modelID) id
  | _ => s.serve c

section Runs

variable {modelID : String} {k : ℕ} {mu : Option ℕ} {s s' : Service} {c : Call}
  {req : SubmitLocalUpdateRequest} {task : Task} {answer : Except Failure Response}

theorem runs_passed (h : serviceSections.Runs k s task answer s') :
    (sections wrappedService modelID).Runs k ⟨s, mu⟩ (.passed task) answer ⟨s', mu⟩ := by
  induction h with
  | ended ran => exact .ended (by simp only [sections, wrappedService, ran])
  | continued ran _ ih => exact .continued (by simp only [sections, wrappedService, ran]) ih

theorem runs_decorating (h : serviceSections.Runs k s task answer s') :
    (sections wrappedService modelID).Runs k ⟨s, mu⟩ (.decorating task)
      (decorateResponse modelID answer) ⟨s', mu⟩ := by
  induction h with
  | ended ran => exact .ended (by simp only [sections, wrappedService, ran])
  | continued ran _ ih => exact .continued (by simp only [sections, wrappedService, ran]) ih

theorem runs_submitting (h : serviceSections.Runs k s task answer s') :
    (sections wrappedService modelID).Runs k ⟨s, some k⟩ (.submitting task) answer ⟨s', none⟩ := by
  induction h with
  | ended ran => exact .ended (by simp only [sections, wrappedService, ran])
  | continued ran _ ih => exact .continued (by simp only [sections, wrappedService, ran]) ih

/-- The reading of the model ends the submission or leads on. -/
theorem runs_reading (h : serviceSections.Runs k s task answer s')
    {answer' : Except Failure Response} {t : EnvelopeState Service}
    (hfailed : ∀ e, afterReading modelID req answer = .error e → answer' = e ∧ t = ⟨s', none⟩)
    (hknown : afterReading modelID req answer = .ok true →
      (sections wrappedService modelID).Runs k ⟨s', some k⟩ (submit wrappedService c) answer' t)
    (hunknown : afterReading modelID req answer = .ok false →
      (sections wrappedService modelID).Runs k ⟨s', some k⟩ (.checking c req) answer' t) :
    (sections wrappedService modelID).Runs k ⟨s, some k⟩ (.reading c req task) answer' t := by
  induction h with
  | @ended s s' task answer ran =>
    rcases hafter : afterReading modelID req answer with e | _ | _
    · obtain ⟨rfl, rfl⟩ := hfailed e hafter
      exact .ended (by simp only [sections, wrappedService, ran, hafter])
    · exact .continued (by simp only [sections, wrappedService, ran, hafter]) (hunknown hafter)
    · exact .continued (by simp only [sections, wrappedService, ran, hafter]) (hknown hafter)
  | continued ran _ ih =>
    exact .continued (by simp only [sections, wrappedService, ran]) (ih hfailed hknown hunknown)

theorem runs_submit (k : ℕ) (s : Service) (c : Call) :
    (sections wrappedService modelID).Runs k ⟨s, some k⟩ (submit wrappedService c)
      (s.serve (submittingCall c)).1 ⟨(s.serve (submittingCall c)).2, none⟩ :=
  runs_submitting (s.runs_serve k (submittingCall c))

theorem runs_submitUpdate (k : ℕ) (s : Service) (c : Call) (req : SubmitLocalUpdateRequest) :
    (sections wrappedService modelID).Runs k ⟨s, none⟩ (.waiting c req)
      (submitUpdate modelID s c req).1 ⟨(submitUpdate modelID s c req).2, none⟩ := by
  have hreading := s.runs_serve k (readingCall c req)
  have hsame : (s.serve (readingCall c req)).2 = s := rfl
  rw [hsame] at hreading
  refine .continued rfl (runs_reading hreading (fun e he => ?_) (fun hknown => ?_)
    fun hunknown => ?_)
  · simp only [submitUpdate, he, and_self]
  · simp only [submitUpdate, hknown]
    exact runs_submit k s c
  · simp only [submitUpdate, hunknown]
    rcases hcheck : checkPendingSchema c.env.order req s.pending with e | ⟨⟨⟩⟩
    · exact .ended (by simp only [sections, wrappedService, id_eq, hcheck])
    · exact .continued (by simp only [sections, wrappedService, id_eq, hcheck]) (runs_submit k s c)

/-- The sections of a call, one after the other, serve it. -/
theorem runs_serve (modelID : String) (k : ℕ) (s : Service) (c : Call) :
    (sections wrappedService modelID).Runs k ⟨s, none⟩ (.entered c) (serve modelID s c).1
      ⟨(serve modelID s c).2, none⟩ := by
  have hpassed (hserve : serve modelID s c = s.serve c)
      (hnext : (sections wrappedService modelID).next k ⟨s, none⟩ (.entered c) =
        some (.inr (.passed (.first c)), ⟨s, none⟩)) :
      (sections wrappedService modelID).Runs k ⟨s, none⟩ (.entered c) (serve modelID s c).1
        ⟨(serve modelID s c).2, none⟩ := by
    rw [hserve]
    exact .continued hnext (runs_passed (s.runs_serve k c))
  rcases hc : c.request with req | req | req | (_ | req) | req | req
  · exact hpassed (by simp only [serve, hc])
      (by simp only [sections, wrappedService, id_eq, hc]; rfl)
  · exact hpassed (by simp only [serve, hc])
      (by simp only [sections, wrappedService, id_eq, hc]; rfl)
  · simp only [serve, hc]
    exact .continued (by simp only [sections, wrappedService, id_eq, hc]; rfl)
      (runs_decorating (s.runs_serve k c))
  · simp only [serve, hc]
    exact .ended (by simp only [sections, wrappedService, id_eq, hc])
  · simp only [serve, hc]
    rcases henvelope : validateUpdateEnvelope modelID req with e | ⟨⟨⟩⟩
    · exact .ended (by simp only [sections, wrappedService, id_eq, hc, henvelope])
    · exact .continued (by simp only [sections, wrappedService, id_eq, hc, henvelope])
        (runs_submitUpdate k s c req)
  · exact hpassed (by simp only [serve, hc])
      (by simp only [sections, wrappedService, id_eq, hc]; rfl)
  · exact hpassed (by simp only [serve, hc])
      (by simp only [sections, wrappedService, id_eq, hc]; rfl)

end Runs

end EnvelopeService

/-! ## Reachable states -/

namespace Service

/-- Neither registrations nor heartbeats, readings or rotations touch the round. -/
theorem round_serve_other {s : Service} {c : Call}
    (hsubmit : ∀ req, c.request ≠ .submitLocalUpdate req)
    (hrevoke : ∀ req, c.request ≠ .revokeRegistration req) :
    (s.serve c).2.model = s.model ∧ (s.serve c).2.pending = s.pending := by
  obtain ⟨p, hout, hprepared⟩ := s.serve_completed c
  generalize s.serve c = result at hout hprepared
  cases hout with
  | failed same => exact ⟨same.model, same.pending⟩
  | rejected same => exact ⟨same.model, same.pending⟩
  | read => exact ⟨rfl, rfl⟩
  | registered => exact ⟨rfl, rfl⟩
  | refreshed => exact ⟨rfl, rfl⟩
  | waiting => exact absurd (hprepared rfl).1 (hsubmit _)
  | closing => exact absurd (hprepared rfl).1 (hsubmit _)
  | rotated same => exact ⟨same.model, same.pending⟩
  | revoked => exact absurd (hprepared rfl).1 (hrevoke _)

/-- What holds of the round in every reachable state. -/
structure Orderly (settings : Settings) (s : Service) : Prop where
  settings : s.settings = settings
  quorum : (s.pending.size : ℤ) < s.settings.minUpdates
  keyed : s.pending.Keyed PendingUpdate.nodeID
  finite : ∀ u ∈ s.pending.values, ∀ v ∈ u.values, isNonFinite v = false
  payload : s.model.weightsPayload ≠ [] → ReadsPayload s.model
  length : s.model.weightsPayload ≠ [] →
    ∀ values, decodeNPYFloat32 s.model.weightsPayload = .ok values →
      ∀ u ∈ s.pending.values, u.values.length = values.length

theorem orderly_new {registry : RegistrationStore} {cfg : Config} {clock : Clock}
    {service : Service} (h : newService registry cfg clock = .ok service) :
    service.Orderly service.settings := by
  have hpending := (newService_ok h).2.1
  have hempty {P : PendingUpdate → Prop} : ∀ u ∈ service.pending.values, P u := by
    rw [hpending]
    exact fun u hu => by cases hu
  refine ⟨rfl, ?_, ?_, hempty, readsPayload_newService h, fun _ _ _ => hempty⟩
  · rw [hpending]
    exact service.settings.minUpdates_pos
  · intro k u hu
    rw [hpending] at hu
    cases hu

theorem size_le_of_get? {m m' : OrdMap String PendingUpdate}
    (h : ∀ k u, m'.get? k = some u → m.get? k = some u) : m'.size ≤ m.size := by
  refine (m'.nodup_entries.subperm fun e he => ?_).length_le
  exact (OrdMap.get?_eq_some_iff m).1 (h e.1 e.2 ((OrdMap.get?_eq_some_iff m').2 he))

/-- A section that is no submission only takes updates away. -/
theorem Orderly.calm {settings : Settings} {s : Service} (h : s.Orderly settings) {p : Prepared}
    (env : Env) (hp : ∀ req prepared, p ≠ .submitLocalUpdate req prepared) :
    (s.complete env p).2.Orderly settings := by
  have hcalm := calm_complete (s := s) hp env
  have hsub : ∀ k u, (s.complete env p).2.pending.get? k = some u → s.pending.get? k = some u := by
    intro k u hu
    rcases pending_complete hu with hold | ⟨id, req, prepared, heq, -⟩
    · exact hold
    · exact absurd heq (hp req prepared)
  have hsize := size_le_of_get? hsub
  refine ⟨hcalm.settings.trans h.settings, ?_, fun k u hu => h.keyed k u (hsub k u hu),
    fun u hu => h.finite u (hcalm.pending u hu), fun hne => ?_, fun hne values hd u hu => ?_⟩
  · have hquorum := h.quorum
    rw [hcalm.settings]
    omega
  · rw [hcalm.model] at hne ⊢
    exact h.payload hne
  · rw [hcalm.model] at hne hd
    exact h.length hne values hd u (hcalm.pending u hu)

/-- The locked part of a submission of a decoded vector. -/
theorem Orderly.submit {settings : Settings} {s : Service} (h : s.Orderly settings)
    {req : SubmitLocalUpdateRequest} {update : PreparedUpdate} (env : Env)
    (hd : decodeNPYFloat32 req.weightsPayload = .ok update.values) :
    (s.complete env (.submitLocalUpdate req update)).2.Orderly settings := by
  obtain ⟨-, hfits, hfinite⟩ := decodeNPYFloat32_ok hd
  have hout := s.complete_completed env (.submitLocalUpdate req update)
  generalize s.complete env (.submitLocalUpdate req update) = result at hout
  cases hout with
  | failed same =>
    refine ⟨same.settings.trans h.settings, ?_, ?_, ?_, ?_, ?_⟩
    · rw [same.pending, same.settings]
      exact h.quorum
    · rw [same.pending]
      exact h.keyed
    · rw [same.pending]
      exact h.finite
    · rw [same.model]
      exact h.payload
    · rw [same.model, same.pending]
      exact h.length
  | rejected _ run => cases run
  | @waiting _ _ updateID currentValues passes few =>
    have same := s.sameRound_afterChecks req update.now
    have hfresh := passes.admits.fresh
    refine ⟨same.settings.trans h.settings, ?_, ?_, ?_, ?_, ?_⟩
    · simp only [same.settings, OrdMap.size_insert_of_none s.pending _ hfresh]
      exact_mod_cast few
    · intro k u hu
      simp only [OrdMap.get?_insert] at hu
      split_ifs at hu with hk
      · cases hu
        exact hk.symm
      · exact h.keyed k u hu
    · intro u hu
      rcases mem_values_insert hu with rfl | hu
      · exact hfinite
      · exact h.finite u hu
    · simp only [same.model]
      exact h.payload
    · simp only [same.model]
      intro hne values hvalues u hu
      rcases mem_values_insert hu with rfl | hu
      · exact (length_of_currentModelVector hne passes.admits.current hvalues).symm
      · exact h.length hne values hvalues u hu
  | @closing _ _ updateID currentValues aggregated values payload passes enough closes =>
    have same := s.sameRound_afterChecks req update.now
    obtain ⟨hne, hlength⟩ := length_currentModelVector passes.admits.current
    obtain ⟨-, -, -, hdecode⟩ := closes.payload (hlength ▸ hne) (hlength ▸ hfits)
    refine ⟨same.settings.trans h.settings, ?_, fun k u hu => (by cases hu), fun u hu =>
      (by cases hu), fun _ => ⟨rfl, rfl, values, hdecode⟩, fun _ _ _ u hu => (by cases hu)⟩
    simp only [same.settings]
    exact s.settings.minUpdates_pos

end Service

/-- A submission in its second part brings what its payload decodes to. -/
def Task.Decoded (task : Task) : Prop :=
  ∀ req update env, task = .second (.submitLocalUpdate req update) env →
    decodeNPYFloat32 req.weightsPayload = .ok update.values

namespace Service

theorem orderly_invariant (settings : Settings) :
    serviceSections.Invariant (fun _ => True) (Orderly settings) fun _ _ task => task.Decoded where
  start _ _ req update env heq := by cases heq
  shared {k s task r s'} hs htask ran := by
    rcases task with c | ⟨prepared, env⟩
    · simp only [serviceSections] at ran
      rcases hp : s.prepare c with e | prepared <;> rw [hp] at ran <;> cases ran
      · exact hs
      · exact hs
    · cases ran
      by_cases hsubmit : ∃ req update, prepared = .submitLocalUpdate req update
      · obtain ⟨req, update, rfl⟩ := hsubmit
        exact hs.submit env (htask req update env rfl)
      · exact hs.calm env fun req update heq => hsubmit ⟨req, update, heq⟩
  own {k s task task' s'} hs htask ran := by
    rcases task with c | ⟨prepared, env⟩
    · simp only [serviceSections] at ran
      rcases hp : s.prepare c with e | prepared <;> rw [hp] at ran <;> cases ran
      intro req update env heq
      cases heq
      exact (prepareUpdate_ok (preparedAs_of_prepare hp).2).decode
    · cases ran
  other _ _ _ h _ := h

/-- Every reachable state of the service behind its envelope is orderly. -/
theorem orderly_reachable {registry : RegistrationStore} {cfg : Config} {clock : Clock}
    {service : Service} (h : newService registry cfg clock = .ok service) (modelID : String)
    (events : List (ThreadEvent Call)) :
    (final (EnvelopeService.sections wrappedService modelID).step ⟨⟨service, none⟩, fun _ => none⟩
      events).shared.inner.Orderly service.settings :=
  ((@EnvelopeService.lift_invariant _ _ _ wrappedService modelID
    _ _ (orderly_invariant service.settings)).final
    (t := ⟨⟨service, none⟩, fun _ => none⟩) (Sections.holds_empty (orderly_new h)) events
    fun _ _ _ => trivial).shared

end Service

end ZeroTrustFL
