import Mathlib.Tactic
import ZeroTrustFL.Lib.Run
import ZeroTrustFL.Coordinator.ServiceProof

/-!
# The round protocol

Along every run of calls fewer updates than the quorum are pending, each was accepted under the
current model and its node has not been revoked since, and the model only moves on at the submission
that completes the quorum.
-/

namespace ZeroTrustFL

namespace Service

/-- The call is an accepted submission of the update, for the current model. -/
def Submits (s : Service) (c : Call) (u : PendingUpdate) : Prop :=
  ∃ req resp, c.request = .submitLocalUpdate (some req) ∧
    (s.serve c).1 = .ok (.submitLocalUpdate resp) ∧
    req.baseModelVersion = s.model.modelVersion ∧ req.roundID = s.model.roundID ∧
    decodeNPYFloat32 req.weightsPayload = .ok u.values ∧ u = updateOf req resp.updateID u.values

/-- The call is a successful revocation of the node. -/
def Revokes (s : Service) (c : Call) (n : String) : Prop :=
  ∃ resp, (s.serve c).1 = .ok (.revokeRegistration resp) ∧ resp.targetNodeID = n

/-- The call closes the round: the update it submits completes the quorum, and the model vector
grows by the aggregate of exactly the pending updates and the new one. -/
structure ClosesRound (s : Service) (c : Call) (s' : Service) (u : PendingUpdate) : Prop where
  submits : s.Submits c u
  fresh : s.pending.get? u.nodeID = none
  quorum : (s.pending.size + 1 : ℤ) = s.settings.minUpdates
  emptied : s'.pending = ∅
  round : s'.model.roundID = s.model.roundID + 1
  vector : ∃ old aggregated, currentModelVector s.model u.values.length = .ok old ∧
    aggregatePendingUpdates c.env.order (s.pending.insert u.nodeID u) old.length
      s.settings.aggregationMethod = .ok aggregated ∧
    currentModelVector s'.model old.length = .ok (List.zipWith (· + ·) old aggregated)

/-- The update was submitted in the run under the model that is still current, and since then its
node neither was revoked nor had another update accepted. -/
def PendingSince (s₀ : Service) (calls : List Call) (u : PendingUpdate) : Prop :=
  ∃ before c after, calls = before ++ c :: after ∧
    (final serve s₀ before).Submits c u ∧
    (final serve s₀ before).model = (final serve s₀ calls).model ∧
    ∀ mid d rest, after = mid ++ d :: rest →
      ¬ (final serve s₀ (before ++ c :: mid)).Revokes d u.nodeID ∧
      ∀ v, (final serve s₀ (before ++ c :: mid)).Submits d v → v.nodeID ≠ u.nodeID

/-! ## One call -/

/-- What a call can do to the round. -/
inductive RoundStep (s : Service) (c : Call) (s' : Service) : Prop where
  | idle (noSubmit : ∀ u, ¬ s.Submits c u) (noRevoke : ∀ n, ¬ s.Revokes c n)
      (model : s'.model = s.model) (pending : s'.pending = s.pending)
  | revoked (n : String) (noSubmit : ∀ u, ¬ s.Submits c u) (only : ∀ m, s.Revokes c m → m = n)
      (model : s'.model = s.model) (pending : s'.pending = s.pending.erase n)
  | waiting (u : PendingUpdate) (submits : s.Submits c u)
      (only : ∀ v, s.Submits c v → v.nodeID = u.nodeID) (noRevoke : ∀ n, ¬ s.Revokes c n)
      (fresh : s.pending.get? u.nodeID = none)
      (few : (s.pending.size + 1 : ℤ) < s.settings.minUpdates)
      (model : s'.model = s.model) (pending : s'.pending = s.pending.insert u.nodeID u)
  | closing (u : PendingUpdate) (submits : s.Submits c u) (fresh : s.pending.get? u.nodeID = none)
      (enough : s.settings.minUpdates ≤ s.pending.size + 1) (emptied : s'.pending = ∅)
      (round : s'.model.roundID = s.model.roundID + 1)
      (vector : ∃ old aggregated, currentModelVector s.model u.values.length = .ok old ∧
        aggregatePendingUpdates c.env.order (s.pending.insert u.nodeID u) old.length
          s.settings.aggregationMethod = .ok aggregated ∧
        currentModelVector s'.model old.length = .ok (List.zipWith (· + ·) old aggregated))

variable {c : Call} {s s₀ : Service}

theorem not_submits_of_request (h : ∀ req, c.request ≠ .submitLocalUpdate (some req))
    (u : PendingUpdate) : ¬ s.Submits c u := by
  rintro ⟨req, resp, hreq, -⟩
  exact h req hreq

/-- An accepted submission submits its update. -/
theorem Accepts.submits {r : SubmitLocalUpdateRequest} {prepared : PreparedUpdate}
    {updateID message version : String} {currentValues : List Float32} {s' : Service}
    (accepts : s.Accepts c.identity r c.env prepared updateID currentValues)
    (request : c.request = .submitLocalUpdate (some r))
    (hserve : s.serve c = (.ok (.submitLocalUpdate ⟨true, updateID, message, version⟩), s')) :
    s.Submits c (updateOf r updateID prepared.values) :=
  ⟨r, _, request, by rw [hserve], accepts.admits.version, accepts.admits.round,
    (prepareUpdate_ok accepts.prepare).decode, rfl⟩

theorem idle_of_error {e : Failure} {s' : Service} (hserve : s.serve c = (.error e, s'))
    (model : s'.model = s.model) (pending : s'.pending = s.pending) : s.RoundStep c s' := by
  refine .idle ?_ ?_ model pending
  · rintro u ⟨req, resp, -, hresp, -⟩
    rw [hserve] at hresp
    cases hresp
  · rintro n ⟨resp, hresp, -⟩
    rw [hserve] at hresp
    cases hresp

theorem idle_of_response {response : Response} {s' : Service}
    (hserve : s.serve c = (.ok response, s'))
    (hreq : ∀ req, c.request ≠ .submitLocalUpdate (some req))
    (hkind : ∀ resp, response ≠ .revokeRegistration resp) (model : s'.model = s.model)
    (pending : s'.pending = s.pending) : s.RoundStep c s' := by
  refine .idle (not_submits_of_request hreq) ?_ model pending
  rintro n ⟨resp, hresp, -⟩
  rw [hserve] at hresp
  exact hkind resp (Except.ok.inj hresp)

theorem serve_roundStep (s : Service) (c : Call) : s.RoundStep c (s.serve c).2 := by
  obtain ⟨p, hout, hprepared⟩ := s.serve_completed c
  generalize hserve : s.serve c = result at hout hprepared
  cases hout with
  | failed same => exact idle_of_error hserve same.model same.pending
  | rejected same => exact idle_of_error hserve same.model same.pending
  | read =>
    obtain ⟨_, request⟩ := hprepared rfl
    exact idle_of_response hserve (by simp [request]) (by simp) rfl rfl
  | registered =>
    obtain ⟨_, request, -⟩ := hprepared rfl
    exact idle_of_response hserve (by simp [request]) (by simp) rfl rfl
  | refreshed =>
    exact idle_of_response hserve (by simp [(hprepared rfl).1]) (by simp) rfl rfl
  | @waiting r prepared updateID currentValues passes few =>
    obtain ⟨request, prepare⟩ := hprepared rfl
    have accepts := passes.accepts prepare
    refine .waiting _ (accepts.submits request hserve) ?_ ?_ accepts.admits.fresh few
      (s.sameRound_afterChecks r prepared.now).model rfl
    · rintro v ⟨r', resp, hr', -, -, -, -, hv⟩
      cases request.symm.trans hr'
      rw [hv]
      rfl
    · rintro n ⟨resp, hresp, -⟩
      rw [hserve] at hresp
      cases hresp
  | @closing r prepared updateID currentValues aggregated values payload passes enough closes =>
    obtain ⟨request, prepare⟩ := hprepared rfl
    have accepts := passes.accepts prepare
    have hdecode := (prepareUpdate_ok accepts.prepare).decode
    have hvector := currentModelVector_nextModel (decodeNPYFloat32_ok hdecode).2.1
      accepts.admits.current closes prepared.now
    exact .closing _ (accepts.submits request hserve) accepts.admits.fresh enough rfl rfl
      ⟨currentValues, aggregated, accepts.admits.current, closes.aggregate, hvector⟩
  | rotated same =>
    exact idle_of_response hserve (by simp [(hprepared rfl).1]) (by simp) same.model same.pending
  | revoked same =>
    refine .revoked _ (not_submits_of_request (by simp [(hprepared rfl).1])) ?_ same.model rfl
    rintro m ⟨resp, hresp, rfl⟩
    rw [hserve] at hresp
    cases hresp
    rfl

/-! ## Runs -/

theorem pendingSince_concat {calls : List Call} {u : PendingUpdate} (h : PendingSince s₀ calls u)
    (model : ((final serve s₀ calls).serve c).2.model = (final serve s₀ calls).model)
    (noRevoke : ¬ (final serve s₀ calls).Revokes c u.nodeID)
    (noSubmit : ∀ v, (final serve s₀ calls).Submits c v → v.nodeID ≠ u.nodeID) :
    PendingSince s₀ (calls ++ [c]) u := by
  obtain ⟨before, c₀, after, rfl, hsubmits, hmodel, hafter⟩ := h
  refine ⟨before, c₀, after ++ [c], by simp, hsubmits, ?_, fun mid d rest hmid => ?_⟩
  · rw [final_concat, model, hmodel]
  · rcases List.eq_nil_or_concat rest with rfl | ⟨rest, e, rfl⟩
    · obtain ⟨rfl, hd⟩ := List.append_inj' hmid rfl
      obtain rfl : c = d := by simpa using hd
      exact ⟨noRevoke, noSubmit⟩
    · have hmid' : after ++ [c] = (mid ++ d :: rest) ++ [e] := by simpa using hmid
      exact hafter mid d rest (List.append_inj' hmid' rfl).1

/-- What holds of the pending updates between calls. -/
structure RoundInvariant (s₀ : Service) (calls : List Call) (s : Service) : Prop where
  few : (s.pending.size : ℤ) < s.settings.minUpdates
  keyed : ∀ n u, s.pending.get? n = some u → u.nodeID = n
  since : ∀ n u, s.pending.get? n = some u → PendingSince s₀ calls u

theorem roundInvariant_new {registry : RegistrationStore} {cfg : Config} {clock : Clock}
    (h : newService registry cfg clock = .ok s₀) : RoundInvariant s₀ [] s₀ := by
  have hpending : s₀.pending = ∅ := by
    unfold newService at h
    split at h
    · cases h
    · split at h
      · cases h
      · cases h
        rfl
  refine ⟨?_, ?_, ?_⟩ <;> rw [hpending]
  · exact s₀.settings.minUpdates_pos
  · exact fun n u hu => by cases hu
  · exact fun n u hu => by cases hu

/-- Every call keeps the invariant. -/
theorem roundInvariant_step {calls : List Call} (c : Call)
    (h : RoundInvariant s₀ calls (final serve s₀ calls)) :
    RoundInvariant s₀ (calls ++ [c]) ((final serve s₀ calls).serve c).2 := by
  have hsettings := (final serve s₀ calls).settings_serve c
  rcases (final serve s₀ calls).serve_roundStep c with
    ⟨noSubmit, noRevoke, model, pending⟩ | ⟨n, noSubmit, only, model, pending⟩ |
    ⟨u, submits, only, noRevoke, fresh, few, model, pending⟩ | ⟨u, -, -, -, emptied, -⟩
  · refine ⟨by rw [pending, hsettings]; exact h.few, by rw [pending]; exact h.keyed,
      fun m v hv => ?_⟩
    rw [pending] at hv
    exact pendingSince_concat (h.since m v hv) model (noRevoke _) fun w hw => absurd hw (noSubmit w)
  · have hget : ∀ {m v}, ((final serve s₀ calls).serve c).2.pending.get? m = some v →
        m ≠ n ∧ (final serve s₀ calls).pending.get? m = some v := by
      intro m v hv
      rw [pending, OrdMap.get?_erase] at hv
      split_ifs at hv with hm
      exact ⟨hm, hv⟩
    refine ⟨?_, fun m v hv => h.keyed m v (hget hv).2, fun m v hv => ?_⟩
    · have := OrdMap.size_erase_le (final serve s₀ calls).pending n
      rw [pending, hsettings]
      exact lt_of_le_of_lt (by exact_mod_cast this) h.few
    · have hkey := h.keyed m v (hget hv).2
      refine pendingSince_concat (h.since m v (hget hv).2) model (fun hrev => ?_)
        fun w hw => absurd hw (noSubmit w)
      exact (hget hv).1 (hkey.symm.trans (only _ hrev))
  · refine ⟨?_, fun m v hv => ?_, fun m v hv => ?_⟩
    · rw [pending, hsettings, OrdMap.size_insert_of_none _ _ fresh]
      exact_mod_cast few
    · rw [pending, OrdMap.get?_insert] at hv
      split_ifs at hv with hm
      · cases hv
        exact hm.symm
      · exact h.keyed m v hv
    · rw [pending, OrdMap.get?_insert] at hv
      split_ifs at hv with hm
      · cases hv
        exact ⟨calls, c, [], rfl, submits, by rw [final_concat, model],
          fun mid d rest hmid => by simp at hmid⟩
      · have hkey := h.keyed m v hv
        exact pendingSince_concat (h.since m v hv) model (noRevoke _) fun w hw heq =>
          hm (by rw [← hkey, ← heq, only w hw])
  · have hnone : ∀ {m v}, ((final serve s₀ calls).serve c).2.pending.get? m ≠ some v := by
      intro m v hv
      rw [emptied] at hv
      cases hv
    refine ⟨?_, fun m v hv => absurd hv hnone, fun m v hv => absurd hv hnone⟩
    rw [emptied]
    exact Settings.minUpdates_pos _

theorem roundInvariant_final (h : RoundInvariant s₀ [] s₀) (calls : List Call) :
    RoundInvariant s₀ calls (final serve s₀ calls) :=
  final_induction (P := RoundInvariant s₀) h (fun _ c hc => roundInvariant_step c hc) calls

/-- Between any calls of a run fewer updates than the quorum are pending, at most one of each node;
each was accepted under the current model and its node was not revoked since; and a call leaves the
model as it is unless it closes the round. -/
theorem round_protocol (registry : RegistrationStore) (cfg : Config) (clock : Clock) (s₀ : Service)
    (h : newService registry cfg clock = .ok s₀) (calls : List Call) :
    ((final serve s₀ calls).pending.size : ℤ) < (final serve s₀ calls).settings.minUpdates ∧
    (∀ n u, (final serve s₀ calls).pending.get? n = some u → u.nodeID = n ∧
      PendingSince s₀ calls u) ∧
    ∀ c, ((final serve s₀ calls).serve c).2.model = (final serve s₀ calls).model ∨
      ∃ u, (final serve s₀ calls).ClosesRound c ((final serve s₀ calls).serve c).2 u := by
  have hinv := roundInvariant_final (roundInvariant_new h) calls
  refine ⟨hinv.few, fun n u hu => ⟨hinv.keyed n u hu, hinv.since n u hu⟩, fun c => ?_⟩
  rcases (final serve s₀ calls).serve_roundStep c with
    ⟨-, -, model, -⟩ | ⟨n, -, -, model, -⟩ | ⟨u, -, -, -, -, -, model, -⟩ |
    ⟨u, submits, fresh, enough, emptied, round, vector⟩
  · exact .inl model
  · exact .inl model
  · exact .inl model
  · have hfew := hinv.few
    exact .inr ⟨u, submits, fresh, by omega, emptied, round, vector⟩

/-! ## A round of one worker -/

theorem sampleTime_pos (seconds : ℕ) : 0 < unixTime 1700000000 + seconds * second :=
  add_pos_of_pos_of_nonneg (by decide) (mul_nonneg (Int.natCast_nonneg seconds) (by decide))

/-- The environment of a call some seconds after a fixed time, with random bytes that are all
alike. -/
def sampleEnv (seconds : ℕ) (byte : UInt8) : Env where
  clock := .still (unixTime 1700000000 + seconds * second) (sampleTime_pos seconds)
  random := some (Vector.replicate 24 byte)
  order := .listed

/-- A service that closes a round with every update. -/
def sampleService : Service where
  settings :=
    { leaseTTL := 5 * minute
      maxUpdateBytes := defaultMaxUpdateBytes
      minUpdates := 1
      maxUpdatesPerMinute := defaultMaxUpdatesPerMinute
      aggregationMethod := "median"
      leaseTTL_pos := by decide
      maxUpdateBytes_pos := by decide
      minUpdates_pos := by decide
      maxUpdatesPerMinute_pos := by decide
      method := .inl rfl }
  registry := newRegistrationStore
  model := bootstrapModel (unixTime 1700000000)
  pending := ∅
  rates := ∅
  nonces := ∅

def sampleWorker (name : String) : PeerIdentity := ⟨name, name, "worker", "ab12"⟩

/-- The worker registers; its registration id consists of the random byte. -/
def sampleRegistration (name : String) (seconds : ℕ) (byte : UInt8) : Call where
  identity := some (sampleWorker name)
  request := .registerNode (some ⟨name, name, true⟩)
  env := sampleEnv seconds byte

/-- The worker submits a vector to the bootstrap round. -/
def sampleSubmission (name : String) (seconds : ℕ) (byte : UInt8) (values : List Float32) :
    Call where
  identity := some (sampleWorker name)
  request :=
    let payload := (encodeNPYFloat32 values).toOption.getD []
    .submitLocalUpdate (some
      { nodeID := name
        registrationID := hexEncode (List.replicate 24 byte)
        roundID := 0
        baseModelVersion := "bootstrap"
        weightsPayload := payload
        weightsFormat := networkWeightsFormat
        updateSha256 := sha256 payload
        metrics := some ⟨1, 0, [], 1⟩
        security := some ⟨1700000000, List.replicate 16 byte⟩
        protocolVersion := 1
        modelID := "global-model"
        schemaSha256 := []
        tensorManifest := [] })
  env := sampleEnv seconds byte

theorem newService_sampleService :
    newService newRegistrationStore ⟨0, 0, none, 1, 0, ""⟩ (sampleEnv 0 0).clock =
      .ok sampleService := by
  rfl

theorem round_protocol_sampleService :
    ∃ u, (final serve sampleService [sampleRegistration "worker-1" 0 7]).ClosesRound
      (sampleSubmission "worker-1" 1 7 [1])
      ((final serve sampleService [sampleRegistration "worker-1" 0 7]).serve
        (sampleSubmission "worker-1" 1 7 [1])).2 u := by
  have h := round_protocol _ _ _ _ newService_sampleService [sampleRegistration "worker-1" 0 7]
  exact (h.2.2 (sampleSubmission "worker-1" 1 7 [1])).resolve_left (by decide +kernel)

end Service

end ZeroTrustFL
