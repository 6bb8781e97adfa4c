import Mathlib
import ZeroTrustFL.Security.Resemblance
import ZeroTrustFL.Coordinator.Agreement

/-!
# A service and the restarted service

A restart drops registrations, nonces and rate windows that have expired.  The service and the
restarted one then answer every call alike, up to the credential generation of the nodes whose
registration has been dropped, and go through the same rounds.
-/

namespace ZeroTrustFL

/-- The answers differ in the credential generation only. -/
inductive Response.Renewed : Response → Response → Prop where
  | registerNode {x : RegisterNodeResponse} {g : UInt64} (pos : x.credentialGeneration ≠ 0)
      (pos' : g ≠ 0) :
      Renewed (.registerNode x) (.registerNode { x with credentialGeneration := g })
  | heartbeat {x : HeartbeatResponse} {g : UInt64} (pos : x.credentialGeneration ≠ 0)
      (pos' : g ≠ 0) : Renewed (.heartbeat x) (.heartbeat { x with credentialGeneration := g })
  | rotateRegistration {x : RotateRegistrationResponse} {g : UInt64}
      (pos : x.credentialGeneration ≠ 0)
      (pos' : g ≠ 0) : Renewed (.rotateRegistration x)
      (.rotateRegistration { x with credentialGeneration := g })
  | revokeRegistration {x : RevokeRegistrationResponse} {g : UInt64} (pos : x.revokedGeneration ≠ 0)
      (pos' : g ≠ 0) : Renewed (.revokeRegistration x)
      (.revokeRegistration { x with revokedGeneration := g })

/-- The status code of a failure; a panic has none. -/
def Failure.code : Failure → Option Code
  | .status code _ => some code
  | .crash _ => none

/-- Both calls fail with the same status code, or both succeed with the same answer, up to the
credential generation when the call is about a node of which `renewed` holds. -/
inductive SameAnswer (renewed : Prop) :
    Except Failure Response → Except Failure Response → Prop where
  | error {e e' : Failure} (code : e'.code = e.code) : SameAnswer renewed (.error e) (.error e')
  | ok {x : Response} : SameAnswer renewed (.ok x) (.ok x)
  | renewed {x y : Response} (hrenewed : renewed) (responses : x.Renewed y) :
      SameAnswer renewed (.ok x) (.ok y)

/-- The node whose registration a call is about. -/
def Call.subject (c : Call) : String :=
  match c.request with
  | .revokeRegistration (some req) => trimSpace req.targetNodeID
  | _ => (c.identity.map PeerIdentity.nodeID).getD ""

namespace Service

/-- An expired target and one that is not registered are reported alike. -/
theorem mapRegistrationRevocationError_expired :
    mapRegistrationRevocationError "target node is not registered" =
      mapRegistrationRevocationError "target node registration has expired" := by decide

/-- A service and the service after a restart at `t`, with `b` calls to come. -/
structure Resembles (dropped : String → Prop) (t : ℤ) (b : ℕ) (s r : Service) : Prop where
  settings : r.settings = s.settings
  model : r.model = s.model
  pending : r.pending = s.pending
  registry : s.registry.Resembles dropped t b r.registry
  others : s.OthersKept r none t

/-- The restart itself. -/
theorem resembles_pruned {s : Service} (hs : s.registry.WellFormed) {clock : Clock} {b : ℕ}
    (hspare : ∀ n e, s.registry.entries.get? n = some e → e.expiresAt ≤ clock.read 1 →
      e.generation.toNat + b < 2 ^ 64) :
    s.Resembles (fun n => ∃ e, s.registry.entries.get? n = some e ∧ e.expiresAt ≤ clock.read 1)
      (clock.read 1) b (s.pruned clock) :=
  ⟨rfl, rfl, rfl, RegistrationStore.resembles_unexpired hs hspare,
    s.othersKept_pruned clock none (clock.read_le_read zero_le_one)⟩

section

variable {dropped : String → Prop} {t : ℤ} {b : ℕ} {s r : Service}

/-- Settings, model and pending updates are the same. -/
theorem Resembles.exists_eq (h : s.Resembles dropped t b r) :
    ∃ registry rates nonces,
      r = { s with registry := registry, rates := rates, nonces := nonces } :=
  ⟨r.registry, r.rates, r.nonces, by rw [← h.settings, ← h.model, ← h.pending]⟩

theorem Resembles.mono {b' : ℕ} (h : s.Resembles dropped t b r) (hb : b' ≤ b) :
    s.Resembles dropped t b' r :=
  { h with registry := h.registry.mono hb }

theorem Resembles.withRegistry (h : s.Resembles dropped t b r) {b' : ℕ}
    {registry registry' : RegistrationStore}
    (hregistry : registry.Resembles dropped t b' registry') :
    Resembles dropped t b' { s with registry := registry } { r with registry := registry' } :=
  ⟨h.settings, h.model, h.pending, hregistry, ⟨h.others.nonces, h.others.rates⟩⟩

/-- Both services revoke a node. -/
theorem Resembles.revoked (h : s.Resembles dropped t b r) {b' : ℕ}
    {registry registry' : RegistrationStore} (hregistry : registry.Resembles dropped t b' registry')
    (n : String) :
    Resembles dropped t b'
      { s with registry := registry, pending := s.pending.erase n, rates := s.rates.erase n }
      { r with registry := registry', pending := r.pending.erase n, rates := r.rates.erase n } := by
  refine ⟨h.settings, h.model, congrArg (OrdMap.erase · n) h.pending, hregistry, h.others.nonces,
    fun m w hm hzero hlive => ?_⟩
  simp only [OrdMap.get?_erase]
  split_ifs
  · rfl
  · exact h.others.rates m w hm hzero hlive

/-- Both services drop what has expired. -/
theorem Resembles.pruned (h : s.Resembles dropped t b r) (clock : Clock) :
    (s.pruned clock).Resembles dropped t b (r.pruned clock) := by
  refine ⟨h.settings, h.model, h.pending, h.registry.unexpired _, ?_, ?_⟩
  · intro key seenAt hkey hlive
    simp only [Service.pruned, OrdMap.get?_filter, Option.filter_eq_some_iff,
      h.others.nonces key seenAt hkey hlive]
  · intro n w hn hzero hlive
    simp only [Service.pruned, OrdMap.get?_filter, Option.filter_eq_some_iff,
      h.others.rates n w hn hzero hlive]

/-! ## Checks -/

section

variable (hs : s.registry.WellFormed) (hr : r.registry.WellFormed)
include hs hr

theorem requireIdentityAndRegistration_resembles (h : s.registry.Resembles dropped t b r.registry)
    (identity : Option PeerIdentity) (nodeID registrationID : String) {now : ℤ} (ht : t ≤ now) :
    requireIdentityAndRegistration identity r.registry nodeID registrationID now =
      requireIdentityAndRegistration identity s.registry nodeID registrationID now := by
  rcases identity with _ | i
  · rfl
  simp only [requireIdentityAndRegistration]
  rcases RegistrationStore.validate_resembles hs hr h i registrationID ht with
    ⟨e, e', he, he'⟩ | ⟨x, y, hx, hy, -⟩
  · rw [he, he']
  · rw [hx, hy]

end

/-- Nonces are accepted alike. -/
theorem acceptNonceLocked_resembles (h : s.Resembles dropped t b r) (nodeID : String)
    (nonce : Bytes) {now : ℤ} (ht : t ≤ now) :
    ∃ accepted s₁ r₁, s.acceptNonceLocked nodeID nonce now = (accepted, s₁) ∧
      r.acceptNonceLocked nodeID nonce now = (accepted, r₁) ∧ s₁.Resembles dropped t b r₁ ∧
      s₁.registry = s.registry ∧ r₁.registry = r.registry := by
  have hlive : (r.nonces.filter fun _ seenAt => !decide (seenAt < now - requestReplayWindow)) =
      s.nonces.filter fun _ seenAt => !decide (seenAt < now - requestReplayWindow) := by
    refine OrdMap.ext_get? fun key => Option.ext fun seenAt => ?_
    simp only [OrdMap.get?_filter, Option.filter_eq_some_iff, Bool.not_eq_true',
      decide_eq_false_iff_not]
    refine and_congr_left fun hseen => h.others.nonces key seenAt (by simp) (by omega)
  simp only [acceptNonceLocked, hlive]
  split_ifs
  · exact ⟨false, _, _, rfl, rfl, ⟨h.settings, h.model, h.pending, h.registry,
      fun _ _ _ _ => Iff.rfl, h.others.rates⟩, rfl, rfl⟩
  · exact ⟨true, _, _, rfl, rfl, ⟨h.settings, h.model, h.pending, h.registry,
      fun _ _ _ _ => Iff.rfl, h.others.rates⟩, rfl, rfl⟩

/-- Storing the same window of a node keeps the rate windows alike. -/
theorem Resembles.insertRate (h : s.Resembles dropped t b r) (nodeID : String)
    (window : UpdateRateWindow) :
    Resembles dropped t b { s with rates := s.rates.insert nodeID window }
      { r with rates := r.rates.insert nodeID window } := by
  refine ⟨h.settings, h.model, h.pending, h.registry, h.others.nonces, fun n w hn hzero hlive => ?_⟩
  simp only [OrdMap.get?_insert]
  split_ifs
  · rfl
  · exact h.others.rates n w hn hzero hlive

/-- The rate limit applies alike. -/
theorem allowUpdateLocked_resembles (h : s.Resembles dropped t b r) (nodeID : String) {now : ℤ}
    (ht : t ≤ now) :
    (r.allowUpdateLocked nodeID now).1 = (s.allowUpdateLocked nodeID now).1 ∧
      (s.allowUpdateLocked nodeID now).2.Resembles dropped t b
      (r.allowUpdateLocked nodeID now).2 := by
  have hrates : ∀ w, isZeroTime w.startedAt = false → now - w.startedAt < minute →
      (r.rates.get? nodeID = some w ↔ s.rates.get? nodeID = some w) := fun w hzero hlive =>
    h.others.rates nodeID w (by simp) hzero (by omega)
  -- a window that is over counts as none
  have hover : ∀ window : UpdateRateWindow,
      ¬ (isZeroTime window.startedAt = true ∨ minute ≤ now - window.startedAt) →
      isZeroTime window.startedAt = false ∧ now - window.startedAt < minute :=
      fun window hwindow => by
    rw [not_or, Bool.not_eq_true, not_le] at hwindow
    exact hwindow
  have hnone : isZeroTime (⟨0, 0⟩ : UpdateRateWindow).startedAt = true := rfl
  rcases hw : s.rates.get? nodeID with _ | w
  · rcases hv : r.rates.get? nodeID with _ | v
    · simp only [allowUpdateLocked, hw, hv, Option.getD_none, hnone, true_or, if_true]
      exact ⟨trivial, h.insertRate nodeID _⟩
    · by_cases hlive : isZeroTime v.startedAt = true ∨ minute ≤ now - v.startedAt
      · simp only [allowUpdateLocked, hw, hv, Option.getD_none, Option.getD_some, hnone, true_or,
          if_true, if_pos hlive]
        exact ⟨trivial, h.insertRate nodeID _⟩
      · obtain ⟨hzero, hlt⟩ := hover v hlive
        rw [(hrates v hzero hlt).1 hv] at hw
        cases hw
  · by_cases hlive : isZeroTime w.startedAt = true ∨ minute ≤ now - w.startedAt
    · have hlive' : isZeroTime ((r.rates.get? nodeID).getD ⟨0, 0⟩).startedAt = true ∨
          minute ≤ now - ((r.rates.get? nodeID).getD ⟨0, 0⟩).startedAt := by
        rcases hv : r.rates.get? nodeID with _ | v
        · exact .inl rfl
        · by_contra hnot
          obtain ⟨hzero, hlt⟩ := hover v hnot
          rw [(hrates v hzero hlt).1 hv] at hw
          cases hw
          exact hnot hlive
      simp only [allowUpdateLocked, hw, Option.getD_some, if_pos hlive, if_pos hlive']
      exact ⟨trivial, h.insertRate nodeID _⟩
    · obtain ⟨hzero, hlt⟩ := hover w hlive
      have hv := (hrates w hzero hlt).2 hw
      obtain ⟨registry, rates, nonces, rfl⟩ := h.exists_eq
      simp only [allowUpdateLocked, hw, hv, Option.getD_some, if_neg hlive]
      split_ifs
      · exact ⟨rfl, h⟩
      · exact ⟨rfl, h.insertRate nodeID _⟩

/-- Taking an update into the round involves neither registrations nor nonces nor rate windows. -/
theorem admitUpdate_with (s : Service) (registry : RegistrationStore)
    (rates : OrdMap String UpdateRateWindow) (nonces : OrdMap String ℤ)
    (req : SubmitLocalUpdateRequest) (values : List Float32) (now : ℤ) (env : Env) :
    admitUpdate { s with registry := registry, rates := rates, nonces := nonces }
        req values now env =
      ((s.admitUpdate req values now env).1,
        { (s.admitUpdate req values now env).2 with
          registry := registry, rates := rates, nonces := nonces }) := by
  simp only [admitUpdate]
  split_ifs
  · rfl
  · rfl
  · rfl
  · rcases currentModelVector s.model values.length with (e | e) | currentValues
    · rfl
    · rfl
    · rcases secureIdentifier env with e | updateID
      · rfl
      · simp only
        split_ifs
        · rfl
        · unfold closeRound
          simp only
          rcases aggregatePendingUpdates env.order _ currentValues.length
            s.settings.aggregationMethod with
            e | aggregated
          · rfl
          · simp only
            rcases addVectors currentValues aggregated with _ | values
            · rfl
            · simp only
              rcases encodeNPYFloat32 values with e | payload <;> rfl

theorem admitUpdate_fields (s : Service) (req : SubmitLocalUpdateRequest) (values : List Float32)
    (now : ℤ) (env : Env) : (s.admitUpdate req values now env).2 =
      { (s.admitUpdate req values now env).2 with
        settings := s.settings, registry := s.registry, rates := s.rates, nonces := s.nonces } := by
  rcases s.admitUpdate_cases req values now env with
    ⟨e, he⟩ | ⟨_, _, _, ⟨_, he⟩ | ⟨_, _, _, _, _, he⟩⟩ <;> rw [he]

theorem admitUpdate_resembles (h : s.Resembles dropped t b r) (req : SubmitLocalUpdateRequest)
    (values : List Float32) (now : ℤ) (env : Env) :
    (r.admitUpdate req values now env).1 = (s.admitUpdate req values now env).1 ∧
      (s.admitUpdate req values now env).2.Resembles dropped t b
      (r.admitUpdate req values now env).2 := by
  obtain ⟨registry, rates, nonces, rfl⟩ := h.exists_eq
  rw [admitUpdate_with, s.admitUpdate_fields]
  exact ⟨rfl, rfl, rfl, rfl, h.registry, h.others.nonces, h.others.rates⟩

/-! ## Calls -/

/-- The answers and the services that a call leaves. -/
structure Alike (dropped : String → Prop) (t : ℤ) (b : ℕ) (subject : String)
    (result result' : Except Failure Response × Service) : Prop where
  answers : SameAnswer (dropped subject) result.1 result'.1
  services : result.2.Resembles dropped t b result'.2

theorem Alike.failed {subject : String} {e : Failure} (h : s.Resembles dropped t b r) :
    Alike dropped t b subject (.error e, s) (.error e, r) := ⟨.error rfl, h⟩

variable (hs : s.registry.WellFormed) (hr : r.registry.WellFormed)
  (h : s.Resembles dropped t (b + 1) r) include hs hr h

theorem registerNode_resembles (i : PeerIdentity) (req : Option RegisterNodeRequest) (env : Env)
    (ht : t ≤ env.clock.read 0) :
    Alike dropped t b i.nodeID ((s.registerNode (some i) req env).map (Except.map .registerNode) id)
      ((r.registerNode (some i) req env).map (Except.map .registerNode) id) := by
  have hmono := h.mono (Nat.le_succ b)
  obtain ⟨registry', rates, nonces, rfl⟩ := h.exists_eq
  rcases req with _ | req
  · exact .failed hmono
  simp only [registerNode]
  split_ifs
  · exact .failed hmono
  · exact .failed hmono
  · exact .failed hmono
  · rcases secureIdentifier env with e | id
    · exact .failed hmono
    · simp only
      have hout := RegistrationStore.register_resembles hs hr h.registry i id s.settings.leaseTTL ht
      generalize s.registry.register i id s.settings.leaseTTL (env.clock.read 0) = result at hout
      generalize registry'.register i id s.settings.leaseTTL (env.clock.read 0) = result' at hout
      cases hout with
      | error stores => exact .failed (h.withRegistry stores)
      | ok entries stores =>
        refine ⟨?_, h.withRegistry stores⟩
        cases entries with
        | same => exact .ok
        | renewed hdropped spare spare' =>
          exact .renewed hdropped (.registerNode spare.ne_zero spare'.ne_zero)

theorem heartbeat_resembles (i : PeerIdentity) (req : Option HeartbeatRequest) (env : Env)
    (ht : t ≤ env.clock.read 0) :
    Alike dropped t b i.nodeID ((s.heartbeat (some i) req env).map (Except.map .heartbeat) id)
      ((r.heartbeat (some i) req env).map (Except.map .heartbeat) id) := by
  have hmono := h.mono (Nat.le_succ b)
  obtain ⟨registry', rates, nonces, rfl⟩ := h.exists_eq
  rcases req with _ | req
  · exact .failed hmono
  have hsame := requireIdentityAndRegistration_resembles hs hr h.registry (some i) req.nodeID
    req.registrationID ht
  simp only [heartbeat, hsame]
  rcases hi : requireIdentityAndRegistration (some i) s.registry req.nodeID req.registrationID
    (env.clock.read 0) with e | i'
  · exact .failed hmono
  · obtain ⟨heq, -⟩ := requireIdentityAndRegistration_ok hi
    cases heq
    simp only
    have hout := RegistrationStore.refresh_resembles hs hr hmono.registry i req.registrationID
      s.settings.leaseTTL (ht.trans (env.clock.read_le_read zero_le_one))
    generalize s.registry.refresh i req.registrationID s.settings.leaseTTL (env.clock.read 1) =
      result at hout
    generalize registry'.refresh i req.registrationID s.settings.leaseTTL (env.clock.read 1) =
      result' at hout
    cases hout with
    | error stores => exact .failed (h.withRegistry stores)
    | ok entries stores =>
      refine ⟨?_, h.withRegistry stores⟩
      cases entries with
      | same => exact .ok
      | renewed hdropped spare spare' =>
        exact .renewed hdropped (.heartbeat spare.ne_zero spare'.ne_zero)

theorem prepareUpdate_resembles (identity : Option PeerIdentity) (req : SubmitLocalUpdateRequest)
    (env : Env) (ht : t ≤ env.clock.read 0) :
    r.prepareUpdate identity req env = s.prepareUpdate identity req env := by
  have hsame := requireIdentityAndRegistration_resembles hs hr h.registry identity req.nodeID
    req.registrationID ht
  simp only [prepareUpdate, h.settings, hsame]

theorem submitLocalUpdateLocked_resembles (req : SubmitLocalUpdateRequest)
    (prepared : PreparedUpdate) (env : Env) (ht : t ≤ env.clock.read 2) (hnow : t ≤ prepared.now) :
    (r.submitLocalUpdateLocked req prepared env).1 =
      (s.submitLocalUpdateLocked req prepared env).1 ∧
      (s.submitLocalUpdateLocked req prepared env).2.Resembles dropped t b
        (r.submitLocalUpdateLocked req prepared env).2 := by
  have hmono := h.mono (Nat.le_succ b)
  simp only [submitLocalUpdateLocked]
  rcases RegistrationStore.validate_resembles hs hr h.registry prepared.identity
    req.registrationID ht with
    ⟨e, e', he, he'⟩ | ⟨x, y, hx, hy, -⟩
  · rw [he, he']
    exact ⟨rfl, hmono⟩
  · rw [hx, hy]
    simp only
    obtain ⟨accepted, s₁, r₁, haccept, haccept', hafter, -⟩ :=
      acceptNonceLocked_resembles hmono req.nodeID (nonceOf req.security) hnow
    rw [haccept, haccept']
    cases accepted
    · exact ⟨rfl, hafter⟩
    · simp only at hafter ⊢
      obtain ⟨hallow, hallowed⟩ := allowUpdateLocked_resembles hafter req.nodeID hnow
      generalize s₁.allowUpdateLocked req.nodeID prepared.now = result at hallow hallowed
      generalize r₁.allowUpdateLocked req.nodeID prepared.now = result' at hallow hallowed
      obtain ⟨allowed, s₂⟩ := result
      obtain ⟨allowed', r₂⟩ := result'
      obtain rfl : allowed' = allowed := hallow
      cases allowed'
      · exact ⟨rfl, hallowed⟩
      · exact admitUpdate_resembles hallowed req prepared.values prepared.now env

theorem submitLocalUpdate_resembles (identity : Option PeerIdentity)
    (req : Option SubmitLocalUpdateRequest) (env : Env) (ht : t ≤ env.clock.read 0)
    (subject : String) :
    Alike dropped t b subject
      ((s.submitLocalUpdate identity req env).map (Except.map .submitLocalUpdate) id)
      ((r.submitLocalUpdate identity req env).map (Except.map .submitLocalUpdate) id) := by
  have hmono := h.mono (Nat.le_succ b)
  rcases req with _ | req
  · exact .failed hmono
  simp only [submitLocalUpdate, prepareUpdate_resembles hs hr h identity req env ht]
  rcases hp : s.prepareUpdate identity req env with e | prepared
  · exact .failed hmono
  have hnow : t ≤ prepared.now := by
    rw [(prepareUpdate_ok hp).now]
    exact ht.trans (env.clock.read_le_read zero_le_one)
  obtain ⟨hanswer, hlocked⟩ := submitLocalUpdateLocked_resembles hs hr h req prepared env
    (ht.trans (env.clock.read_le_read (Nat.zero_le 2))) hnow
  refine ⟨?_, hlocked⟩
  simp only [Prod.map_fst]
  rw [hanswer]
  rcases (s.submitLocalUpdateLocked req prepared env).1 with e | response
  · exact .error rfl
  · exact .ok

theorem rotateRegistration_resembles (i : PeerIdentity) (req : Option RotateRegistrationRequest)
    (env : Env) (ht : t ≤ env.clock.read 0) :
    Alike dropped t b i.nodeID
      ((s.rotateRegistration (some i) req env).map (Except.map .rotateRegistration) id)
      ((r.rotateRegistration (some i) req env).map (Except.map .rotateRegistration) id) := by
  have hmono := h.mono (Nat.le_succ b)
  have hle : ∀ n, t ≤ env.clock.read n := fun n => ht.trans (env.clock.start_le_read n)
  rcases req with _ | req
  · exact .failed hmono
  have hrequire := requireIdentityAndRegistration_resembles hs hr h.registry (some i) req.nodeID
    req.registrationID ht
  have hprepare : r.prepareRotation (some i) req env = s.prepareRotation (some i) req env := by
    simp only [prepareRotation, hrequire]
  simp only [rotateRegistration, hprepare]
  rcases hp : s.prepareRotation (some i) req env with e | ⟨i', now, nextID⟩
  · exact .failed hmono
  obtain ⟨hok, rfl, -⟩ := prepareRotation_ok hp
  obtain ⟨heq, -⟩ := requireIdentityAndRegistration_ok hok
  cases heq
  simp only [rotateRegistrationLocked]
  rcases RegistrationStore.validate_resembles hs hr h.registry i req.registrationID (hle 2) with
    ⟨e, e', he, he'⟩ | ⟨x, y, hx, hy, -⟩
  · rw [he, he']
    exact .failed hmono
  · rw [hx, hy]
    simp only
    obtain ⟨accepted, s₁, r₁, haccept, haccept', hafter, hregistry, hregistry'⟩ :=
      acceptNonceLocked_resembles h req.nodeID (nonceOf req.security) (hle 1)
    rw [haccept, haccept']
    cases accepted
    · exact .failed (hafter.mono (Nat.le_succ b))
    · simp only at hafter ⊢
      have hs₁ : s₁.registry.WellFormed := hregistry.symm ▸ hs
      have hr₁ : r₁.registry.WellFormed := hregistry'.symm ▸ hr
      have hout := RegistrationStore.rotate_resembles hs₁ hr₁ hafter.registry i
        req.registrationID nextID s₁.settings.leaseTTL (hle 3)
      obtain ⟨registry', rates, nonces, rfl⟩ := hafter.exists_eq
      generalize s₁.registry.rotate i req.registrationID nextID s₁.settings.leaseTTL
        (env.clock.read 3) = result at hout
      generalize registry'.rotate i req.registrationID nextID s₁.settings.leaseTTL
        (env.clock.read 3) = result' at hout
      cases hout with
      | error stores => exact .failed (hafter.withRegistry stores)
      | ok entries stores =>
        refine ⟨?_, hafter.withRegistry stores⟩
        cases entries with
        | same => exact .ok
        | renewed hdropped spare spare' =>
          exact .renewed hdropped (.rotateRegistration spare.ne_zero spare'.ne_zero)

theorem revokeRegistration_resembles (identity : Option PeerIdentity)
    (req : RevokeRegistrationRequest) (env : Env) (ht : t ≤ env.clock.read 0) :
    Alike dropped t b (trimSpace req.targetNodeID)
      ((s.revokeRegistration identity (some req) env).map (Except.map .revokeRegistration) id)
      ((r.revokeRegistration identity (some req) env).map (Except.map .revokeRegistration) id) := by
  have hmono := h.mono (Nat.le_succ b)
  have hle : ∀ n, t ≤ env.clock.read n := fun n => ht.trans (env.clock.start_le_read n)
  have hrequire := requireIdentityAndRegistration_resembles hs hr h.registry identity req.nodeID
    req.registrationID ht
  have hprepare : r.prepareRevocation identity req env = s.prepareRevocation identity req env := by
    simp only [prepareRevocation, hrequire]
  simp only [revokeRegistration, hprepare]
  rcases hp : s.prepareRevocation identity req env with e | ⟨i, now⟩
  · exact .failed hmono
  obtain ⟨-, -, rfl, -⟩ := prepareRevocation_ok hp
  simp only [revokeRegistrationLocked]
  rcases RegistrationStore.validate_resembles hs hr h.registry i req.registrationID (hle 2) with
    ⟨e, e', he, he'⟩ | ⟨x, y, hx, hy, -⟩
  · rw [he, he']
    exact .failed hmono
  · rw [hx, hy]
    simp only
    obtain ⟨accepted, s₁, r₁, haccept, haccept', hafter, hregistry, hregistry'⟩ :=
      acceptNonceLocked_resembles hmono req.nodeID (nonceOf req.security) (hle 1)
    rw [haccept, haccept']
    cases accepted
    · exact .failed hafter
    · simp only at hafter ⊢
      have hs₁ : s₁.registry.WellFormed := hregistry.symm ▸ hs
      have hr₁ : r₁.registry.WellFormed := hregistry'.symm ▸ hr
      obtain ⟨hout, herror⟩ := RegistrationStore.revoke_resembles hs₁ hr₁ hafter.registry
        req.targetNodeID req.reason (hle 3)
      generalize s₁.registry.revoke req.targetNodeID req.reason (env.clock.read 3) = result
        at hout herror
      generalize r₁.registry.revoke req.targetNodeID req.reason (env.clock.read 3) = result'
        at hout herror
      cases hout with
      | error stores =>
        refine ⟨.error ?_, hafter.withRegistry stores⟩
        rcases herror _ _ rfl rfl with rfl | ⟨rfl, rfl⟩
        · rfl
        · exact congrArg Failure.code mapRegistrationRevocationError_expired
      | ok entries stores =>
        cases entries with
        | same => exact ⟨.ok, hafter.revoked stores _⟩
        | renewed hdropped spare spare' =>
          exact ⟨.renewed hdropped (.revokeRegistration spare.ne_zero spare'.ne_zero),
            hafter.revoked stores _⟩

/-- Every call is answered alike. -/
theorem serve_resembles (c : Call) (ht : t ≤ c.env.clock.start) :
    Alike dropped t b c.subject (s.serve c) (r.serve c) := by
  have hmono := h.mono (Nat.le_succ b)
  rcases hi : c.identity with _ | i
  · rcases hc : c.request with req | req | req | req | req | req <;> rcases req with _ | req <;>
      simp only [serve, hc, hi] <;> exact .failed hmono
  rcases hc : c.request with req | req | req | req | req | req <;>
    simp only [serve, hc, hi, Call.subject, Option.map_some, Option.getD_some]
  · exact registerNode_resembles hs hr h i req c.env ht
  · exact heartbeat_resembles hs hr h i req c.env ht
  · rcases req with _ | req
    · exact .failed hmono
    · have hrequire := requireIdentityAndRegistration_resembles hs hr h.registry (some i) req.nodeID
        req.registrationID (show t ≤ c.env.clock.read 0 from ht)
      simp only [getGlobalModel, hrequire, h.model]
      rcases requireIdentityAndRegistration (some i) s.registry req.nodeID req.registrationID
        (c.env.clock.read 0) with e | i'
      · exact .failed hmono
      · exact ⟨.ok, hmono⟩
  · exact submitLocalUpdate_resembles hs hr h (some i) req c.env ht i.nodeID
  · exact rotateRegistration_resembles hs hr h i req c.env ht
  · rcases req with _ | req
    · exact .failed hmono
    · exact revokeRegistration_resembles hs hr h (some i) req c.env ht

end

end Service

end ZeroTrustFL
