import Mathlib.Tactic
import ZeroTrustFL.Lib.Run
import ZeroTrustFL.Coordinator.Round

/-!
# Replay protection

A nonce is forgotten two minutes after it was seen, and a request is accepted up to two minutes
after the time of issue that it states.  The two windows cover each other for requests that were not
issued in the future of the server's clock; a request with a later time of issue can be replayed.
-/

namespace ZeroTrustFL

namespace Service

/-- The node and the security metadata when the nonce of the metadata is accepted. -/
def passedNonce (s : Service) (nodeID : String) (security : Option SecurityMetadata) (now : ℤ) :
    Option (String × SecurityMetadata) :=
  match security with
  | none => none
  | some metadata =>
    if (s.acceptNonceLocked nodeID metadata.nonce now).1 then some (nodeID, metadata) else none

/-- The node and the security metadata of a submission, rotation or revocation that passes both
`validateSecurityMetadata` and `acceptNonceLocked`. -/
def passed (s : Service) (c : Call) : Option (String × SecurityMetadata) :=
  match c.request with
  | .submitLocalUpdate (some req) =>
    match s.prepareUpdate c.identity req c.env with
    | .error _ => none
    | .ok prepared =>
      match s.registry.validate prepared.identity req.registrationID (c.env.clock.read 2) with
      | .error _ => none
      | .ok _ => s.passedNonce req.nodeID req.security prepared.now
  | .rotateRegistration (some req) =>
    match s.prepareRotation c.identity req c.env with
    | .error _ => none
    | .ok (identity, now, _) =>
      match s.registry.validate identity req.registrationID (c.env.clock.read 2) with
      | .error _ => none
      | .ok _ => s.passedNonce req.nodeID req.security now
  | .revokeRegistration (some req) =>
    match s.prepareRevocation c.identity req c.env with
    | .error _ => none
    | .ok (identity, now) =>
      match s.registry.validate identity req.registrationID (c.env.clock.read 2) with
      | .error _ => none
      | .ok _ => s.passedNonce req.nodeID req.security now
  | _ => none

/-- The requests of a run that pass both checks, in order. -/
def passedRequests (s : Service) : List Call → List (String × SecurityMetadata)
  | [] => []
  | c :: calls => (s.passed c).toList ++ passedRequests (s.serve c).2 calls

/-- The security metadata that a submission, rotation or revocation carries. -/
def metadataOf : Request → Option SecurityMetadata
  | .submitLocalUpdate (some req) => req.security
  | .rotateRegistration (some req) => req.security
  | .revokeRegistration (some req) => req.security
  | _ => none

/-- The metadata of the request do not state a time of issue after the clock reading they are
compared with. -/
def IssuedInPast (c : Call) : Prop :=
  ∀ metadata ∈ metadataOf c.request, unixTime metadata.issuedAtUnix ≤ c.env.clock.read 1

instance (c : Call) : Decidable (IssuedInPast c) := inferInstanceAs (Decidable (∀ _ ∈ _, _))

/-- The calls follow one another in time. -/
def Ordered (calls : List Call) : Prop := (calls.map fun c => c.env.clock).Pairwise Clock.Before

instance (calls : List Call) : Decidable (Ordered calls) :=
  inferInstanceAs (Decidable (List.Pairwise _ _))

/-! ## What is remembered of a nonce -/

/-- Whether a nonce was used, and what is remembered of it afterwards. -/
theorem get?_acceptNonceLocked (s : Service) (nodeID : String) (nonce : Bytes) (now : ℤ)
    (key : String) {t : ℤ} (h : s.nonces.get? key = some t) :
    (s.acceptNonceLocked nodeID nonce now).2.nonces.get? key = some t ∨
      t + requestReplayWindow < now := by
  by_cases ht : t < now - requestReplayWindow
  · right
    omega
  · left
    have hkeep : (s.nonces.filter fun _ seenAt =>
      !decide (seenAt < now - requestReplayWindow)).get? key = some t := by
      rw [OrdMap.get?_filter, h]
      simp [ht]
    simp only [acceptNonceLocked]
    split_ifs with hsome
    · exact hkeep
    · have hne : key ≠ nonceKey nodeID nonce := by
        rintro rfl
        rw [hkeep] at hsome
        exact hsome rfl
      rw [OrdMap.get?_insert_of_ne _ _ hne, hkeep]

theorem get?_nonceKey_of_accept {s : Service} {nodeID : String} {nonce : Bytes} {now : ℤ}
    (h : (s.acceptNonceLocked nodeID nonce now).1 = true) :
    (s.acceptNonceLocked nodeID nonce now).2.nonces.get? (nonceKey nodeID nonce) = some now := by
  simp only [acceptNonceLocked] at h ⊢
  split_ifs at h ⊢ with hsome
  simp

theorem lt_of_accept {s : Service} {nodeID : String} {nonce : Bytes} {now t : ℤ}
    (h : (s.acceptNonceLocked nodeID nonce now).1 = true)
    (ht : s.nonces.get? (nonceKey nodeID nonce) = some t) : t + requestReplayWindow < now := by
  simp only [acceptNonceLocked] at h
  split_ifs at h with hsome
  rw [OrdMap.get?_filter, ht] at hsome
  by_contra hlt
  exact hsome (by simp [show ¬ t < now - requestReplayWindow by omega])

theorem nonces_allowUpdateLocked (s : Service) (nodeID : String) (now : ℤ) :
    (s.allowUpdateLocked nodeID now).2.nonces = s.nonces := by
  simp only [allowUpdateLocked]
  split_ifs <;> rfl

theorem nonces_admitUpdate (s : Service) (req : SubmitLocalUpdateRequest) (values : List Float32)
    (now : ℤ) (env : Env) : (s.admitUpdate req values now env).2.nonces = s.nonces := by
  rcases s.admitUpdate_cases req values now env with
    ⟨e, he⟩ | ⟨_, _, _, ⟨_, he⟩ | ⟨_, _, _, _, _, he⟩⟩ <;> rw [he]

section Locked

variable {s : Service} {env : Env} {entry : Registration}

theorem nonces_submitLocalUpdateLocked {req : SubmitLocalUpdateRequest} {prepared : PreparedUpdate}
    (hv : s.registry.validate prepared.identity req.registrationID (env.clock.read 2) = .ok entry) :
    (s.submitLocalUpdateLocked req prepared env).2.nonces =
      (s.acceptNonceLocked req.nodeID (nonceOf req.security) prepared.now).2.nonces := by
  simp only [submitLocalUpdateLocked, hv]
  rcases s.acceptNonceLocked req.nodeID (nonceOf req.security) prepared.now with ⟨_ | _, s₁⟩
  · rfl
  · have hr := s₁.nonces_allowUpdateLocked req.nodeID prepared.now
    simp only
    generalize s₁.allowUpdateLocked req.nodeID prepared.now = result at hr
    rcases result with ⟨_ | _, s₂⟩
    · exact hr
    · exact (s₂.nonces_admitUpdate req prepared.values prepared.now env).trans hr

theorem nonces_rotateRegistrationLocked {req : RotateRegistrationRequest} {i : PeerIdentity}
    {now : ℤ} {id : String}
    (hv : s.registry.validate i req.registrationID (env.clock.read 2) = .ok entry) :
    (s.rotateRegistrationLocked req i now id env).2.nonces =
      (s.acceptNonceLocked req.nodeID (nonceOf req.security) now).2.nonces := by
  simp only [rotateRegistrationLocked, hv]
  rcases s.acceptNonceLocked req.nodeID (nonceOf req.security) now with ⟨_ | _, s₁⟩
  · rfl
  · simp only
    rcases s₁.registry.rotate i req.registrationID id s₁.settings.leaseTTL (env.clock.read 3) with
      ⟨_ | _, _⟩ <;> rfl

theorem nonces_revokeRegistrationLocked {req : RevokeRegistrationRequest} {i : PeerIdentity}
    {now : ℤ} (hv : s.registry.validate i req.registrationID (env.clock.read 2) = .ok entry) :
    (s.revokeRegistrationLocked req i now env).2.nonces =
      (s.acceptNonceLocked req.nodeID (nonceOf req.security) now).2.nonces := by
  simp only [revokeRegistrationLocked, hv]
  rcases s.acceptNonceLocked req.nodeID (nonceOf req.security) now with ⟨_ | _, s₁⟩
  · rfl
  · simp only
    rcases s₁.registry.revoke req.targetNodeID req.reason (env.clock.read 3) with ⟨_ | _, _⟩ <;> rfl

end Locked

/-- A call leaves the remembered nonces as they are or runs `acceptNonceLocked` once, for its caller
and at its second clock reading; a request that passes is one whose metadata were valid and whose
nonce was accepted there. -/
theorem nonces_serve (s : Service) (c : Call) :
    ((s.serve c).2.nonces = s.nonces ∧ s.passed c = none) ∨
    ∃ i security, c.identity = some i ∧ trimSpace i.nodeID ≠ "" ∧
      validateSecurityMetadata security (c.env.clock.read 1) = .ok () ∧
      (s.serve c).2.nonces =
        (s.acceptNonceLocked i.nodeID (nonceOf security) (c.env.clock.read 1)).2.nonces ∧
      s.passed c = s.passedNonce i.nodeID security (c.env.clock.read 1) := by
  rcases hc : c.request with req | req | req | req | req | req
  · left
    obtain ⟨registry, heq⟩ := serve_eq_withRegistry (s := s) (.inl ⟨req, hc⟩)
    simp only [heq, passed, hc, and_self]
  · left
    obtain ⟨registry, heq⟩ := serve_eq_withRegistry (s := s) (.inr ⟨req, hc⟩)
    simp only [heq, passed, hc, and_self]
  · left
    simp only [serve, hc, passed, and_self]
  · rcases req with _ | req
    · left
      simp only [serve, hc, passed, submitLocalUpdate, Prod.map_snd, id_eq, and_self]
    · rcases hp : s.prepareUpdate c.identity req c.env with e | prepared
      · left
        simp only [serve, hc, passed, submitLocalUpdate, hp, Prod.map_snd, id_eq, and_self]
      · rcases hv : s.registry.validate prepared.identity req.registrationID
          (c.env.clock.read 2) with
          e | entry
        · left
          simp only [serve, hc, passed, submitLocalUpdate, submitLocalUpdateLocked, hp, hv,
            Prod.map_snd, id_eq, and_self]
        · right
          obtain ⟨hreq, -, -, hnow, hsec⟩ := prepareUpdate_ok hp
          obtain ⟨hi, hnode, heq, -⟩ := requireIdentityAndRegistration_ok hreq
          rw [hnow] at hsec
          refine ⟨prepared.identity, req.security, hi, heq ▸ hnode, hsec, ?_⟩
          rw [← heq]
          constructor
          · simp only [serve, hc, submitLocalUpdate, hp, Prod.map_snd, id_eq]
            rw [nonces_submitLocalUpdateLocked hv, hnow]
          · simp only [passed, hc, hp, hv, hnow]
  · rcases req with _ | req
    · left
      simp only [serve, hc, passed, rotateRegistration, Prod.map_snd, id_eq, and_self]
    · rcases hp : s.prepareRotation c.identity req c.env with e | ⟨i, now, id⟩
      · left
        simp only [serve, hc, passed, rotateRegistration, hp, Prod.map_snd, id_eq, and_self]
      · rcases hv : s.registry.validate i req.registrationID (c.env.clock.read 2) with e | entry
        · left
          simp only [serve, hc, passed, rotateRegistration, rotateRegistrationLocked, hp, hv,
            Prod.map_snd, id_eq, and_self]
        · right
          obtain ⟨hreq, hnow, hsec, -⟩ := prepareRotation_ok hp
          obtain ⟨hi, hnode, heq, -⟩ := requireIdentityAndRegistration_ok hreq
          rw [hnow] at hsec
          refine ⟨i, req.security, hi, heq ▸ hnode, hsec, ?_⟩
          rw [← heq]
          constructor
          · simp only [serve, hc, rotateRegistration, hp, Prod.map_snd, id_eq]
            rw [nonces_rotateRegistrationLocked hv, hnow]
          · simp only [passed, hc, hp, hv, hnow]
  · rcases req with _ | req
    · left
      simp only [serve, hc, passed, revokeRegistration, Prod.map_snd, id_eq, and_self]
    · rcases hp : s.prepareRevocation c.identity req c.env with e | ⟨i, now⟩
      · left
        simp only [serve, hc, passed, revokeRegistration, hp, Prod.map_snd, id_eq, and_self]
      · rcases hv : s.registry.validate i req.registrationID (c.env.clock.read 2) with e | entry
        · left
          simp only [serve, hc, passed, revokeRegistration, revokeRegistrationLocked, hp, hv,
            Prod.map_snd, id_eq, and_self]
        · right
          obtain ⟨hreq, -, hnow, hsec⟩ := prepareRevocation_ok hp
          obtain ⟨hi, hnode, heq, -⟩ := requireIdentityAndRegistration_ok hreq
          rw [hnow] at hsec
          refine ⟨i, req.security, hi, heq ▸ hnode, hsec, ?_⟩
          rw [← heq]
          constructor
          · simp only [serve, hc, revokeRegistration, hp, Prod.map_snd, id_eq]
            rw [nonces_revokeRegistrationLocked hv, hnow]
          · simp only [passed, hc, hp, hv, hnow]

variable {metadata : SecurityMetadata} {nodeID : String}

theorem le_of_validateSecurityMetadata {now : ℤ}
    (h : validateSecurityMetadata (some metadata) now = .ok ()) :
    now ≤ unixTime metadata.issuedAtUnix + requestReplayWindow := by
  simp only [validateSecurityMetadata] at h
  split_ifs at h with _ hwindow
  push Not at hwindow
  omega

/-- What a request that passes says about its metadata, and what is remembered of it. -/
theorem of_passed {s : Service} {c : Call} (h : s.passed c = some (nodeID, metadata)) :
    c.env.clock.read 1 ≤ unixTime metadata.issuedAtUnix + requestReplayWindow ∧
      (s.acceptNonceLocked nodeID metadata.nonce (c.env.clock.read 1)).1 = true ∧
      (s.serve c).2.nonces.get? (nonceKey nodeID metadata.nonce) = some (c.env.clock.read 1) := by
  rcases s.nonces_serve c with ⟨-, hnone⟩ | ⟨i, _ | security, -, -, hsec, hnonces, hpassed⟩
  · rw [hnone] at h
    cases h
  · cases hsec
  · rw [hpassed, passedNonce] at h
    split_ifs at h with haccept
    cases h
    refine ⟨le_of_validateSecurityMetadata hsec, haccept, ?_⟩
    rw [hnonces]
    exact get?_nonceKey_of_accept haccept

theorem metadataOf_of_passed {s : Service} {c : Call} (h : s.passed c = some (nodeID, metadata)) :
    metadata ∈ metadataOf c.request := by
  have key : ∀ {id security now}, s.passedNonce id security now = some (nodeID, metadata) →
      metadata ∈ security := by
    intro id security now hn
    unfold passedNonce at hn
    split at hn
    · cases hn
    · split_ifs at hn
      cases hn
      rfl
  unfold passed at h
  split at h
  all_goals
    rename_i hc
    first
      | cases h
      | simp only [hc, metadataOf]
        split at h
        · cases h
        · split at h
          · cases h
          · exact key h

/-- A call keeps what is remembered of a nonce or comes after the replay window. -/
theorem get?_nonces_serve (s : Service) (c : Call) {key : String} {t : ℤ}
    (h : s.nonces.get? key = some t) :
    (s.serve c).2.nonces.get? key = some t ∨ t + requestReplayWindow < c.env.clock.read 1 := by
  rcases s.nonces_serve c with ⟨hnonces, -⟩ | ⟨i, security, -, -, -, hnonces, -⟩
  · rw [hnonces]
    exact .inl h
  · rw [hnonces]
    exact s.get?_acceptNonceLocked i.nodeID _ _ key h

/-! ## Runs -/

/-- Metadata that were issued before they were seen do not pass while they are remembered, nor
later. -/
theorem notMem_passedRequests {t : ℤ} (hissued : unixTime metadata.issuedAtUnix ≤ t)
    (calls : List Call) (hord : Ordered calls) (s : Service)
    (hseen : s.nonces.get? (nonceKey nodeID metadata.nonce) = some t ∨
      ∀ c ∈ calls, t + requestReplayWindow < c.env.clock.read 1) :
    (nodeID, metadata) ∉ s.passedRequests calls := by
  induction calls generalizing s with
  | nil => simp [passedRequests]
  | cons c calls ih =>
    obtain ⟨hfirst, hrest⟩ := List.pairwise_cons.1 hord
    have hlater : t + requestReplayWindow < c.env.clock.read 1 →
        ∀ d ∈ calls, t + requestReplayWindow < d.env.clock.read 1 := fun hlt d hd =>
      hlt.trans_le ((hfirst _ (List.mem_map_of_mem hd)).read_le_read 1 1)
    simp only [passedRequests, List.mem_append, Option.mem_toList, not_or]
    constructor
    · intro hpassed
      obtain ⟨hwindow, haccept, -⟩ := of_passed hpassed
      have hlt : t + requestReplayWindow < c.env.clock.read 1 :=
        hseen.elim (lt_of_accept haccept) fun h => h c List.mem_cons_self
      omega
    · refine ih hrest _ ?_
      rcases hseen with hseen | hseen
      · exact (s.get?_nonces_serve c hseen).imp_right hlater
      · exact .inr (hlater (hseen c List.mem_cons_self))

/-- Replay protection: as long as no request was issued in the future of the server's clock, no two
requests of a node that pass carry the same nonce and time of issue. -/
theorem nodup_passedRequests (s : Service) (calls : List Call) (hord : Ordered calls)
    (hissued : ∀ c ∈ calls, IssuedInPast c) : (s.passedRequests calls).Nodup := by
  induction calls generalizing s with
  | nil => exact List.nodup_nil
  | cons c calls ih =>
    have hrest := (List.pairwise_cons.1 hord).2
    have htail := ih (s.serve c).2 hrest fun d hd => hissued d (List.mem_cons_of_mem _ hd)
    rcases hpassed : s.passed c with _ | ⟨nodeID, metadata⟩
    · simpa only [passedRequests, hpassed, Option.toList_none, List.nil_append] using htail
    · simp only [passedRequests, hpassed, Option.toList_some, List.singleton_append,
        List.nodup_cons]
      have hpast := hissued c List.mem_cons_self metadata (metadataOf_of_passed hpassed)
      exact ⟨notMem_passedRequests hpast calls hrest _ (.inl (of_passed hpassed).2.2), htail⟩

/-- An admin revokes the registration of a worker, with metadata that state the given time of
issue. -/
def sampleRevocation (seconds : ℕ) (issuedAtUnix : Int64) : Call where
  identity := some ⟨"admin-1", "admin-1", "admin", "cd34"⟩
  request := .revokeRegistration (some
    { nodeID := "admin-1"
      registrationID := hexEncode (List.replicate 24 9)
      targetNodeID := "worker-1"
      reason := "compromised"
      security := some ⟨issuedAtUnix, List.replicate 16 9⟩ })
  env := sampleEnv seconds 9

/-- An admin and a worker register and the worker is revoked; the revocation is sent again after the
given number of seconds. -/
def replayedRevocation (seconds : ℕ) (issuedAtUnix : Int64) : List Call :=
  [⟨some ⟨"admin-1", "admin-1", "admin", "cd34"⟩,
      .registerNode (some ⟨"admin-1", "admin-1", true⟩), sampleEnv 0 9⟩,
    sampleRegistration "worker-1" 0 7, sampleRevocation 0 issuedAtUnix,
    sampleRevocation seconds issuedAtUnix]

theorem nodup_replayedRevocation :
    (sampleService.passedRequests (replayedRevocation 121 1700000000)).Nodup :=
  nodup_passedRequests sampleService _ (by decide +kernel) (by decide +kernel)

/-- A revocation that states a time of issue two minutes ahead passes twice. -/
theorem replayedRevocation_passes_twice :
    newService newRegistrationStore ⟨0, 0, none, 1, 0, ""⟩ (sampleEnv 0 0).clock =
      .ok sampleService ∧
      Ordered (replayedRevocation 121 1700000120) ∧
      sampleService.passedRequests (replayedRevocation 121 1700000120) =
        [("admin-1", ⟨1700000120, List.replicate 16 9⟩),
          ("admin-1", ⟨1700000120, List.replicate 16 9⟩)] := by
  refine ⟨rfl, ?_, ?_⟩ <;> decide +kernel

end Service

end ZeroTrustFL
