import Mathlib
import ZeroTrustFL.Coordinator.SnapshotProof
import ZeroTrustFL.Coordinator.Replay
import ZeroTrustFL.Security.RegistrationProof

/-!
# What the calls leave of a service

The invariant of the service that a snapshot needs: `Service.Sound` says of each part of the state
what the checks on snapshots ask for, apart from the lengths of the pending vectors, which a
submission to a model without payload can make differ.
-/

namespace ZeroTrustFL

namespace RegistrationStore

/-- The registrations that are live after `t` have an id. -/
def Identified (r : RegistrationStore) (t : ℤ) : Prop :=
  ∀ n e, r.entries.get? n = some e → t < e.expiresAt → trimSpace e.registrationID ≠ ""

theorem Identified.insert {r : RegistrationStore} {t : ℤ} (h : r.Identified t) {n : String}
    {e : Registration} (he : t < e.expiresAt → trimSpace e.registrationID ≠ "") :
    Identified ⟨r.entries.insert n e⟩ t := by
  intro m x hx
  rw [OrdMap.get?_insert] at hx
  split_ifs at hx with hm
  · cases hx
    exact he
  · exact h m x hx

theorem Identified.filter {r : RegistrationStore} {t : ℤ} (h : r.Identified t)
    (p : String → Registration → Bool) : Identified ⟨r.entries.filter p⟩ t := by
  intro m x hx
  rw [OrdMap.get?_filter, Option.filter_eq_some_iff] at hx
  exact h m x hx.1

theorem Identified.mono {r : RegistrationStore} {t t' : ℤ} (h : r.Identified t) (htt : t ≤ t') :
    r.Identified t' := fun n e he hlt => h n e he (lt_of_le_of_lt htt hlt)

section

variable {r : RegistrationStore} {t : ℤ} (hr : r.WellFormed) (h : r.Identified t)
include hr h

theorem identified_register (i : PeerIdentity) {id : String} (hid : trimSpace id ≠ "")
    (lease now : ℤ) : (r.register i id lease now).2.Identified t := by
  rcases register_cases hr i id lease now with ⟨err, he⟩ | ⟨e, he, hreg⟩ <;> rw [he]
  · exact h
  · exact h.insert fun _ => hreg.id_eq ▸ hid

theorem identified_refresh (i : PeerIdentity) (id : String) (lease : ℤ) {now : ℤ} (hnow : t ≤ now) :
    (r.refresh i id lease now).2.Identified t := by
  rcases refresh_cases hr i id lease now with ⟨err, he⟩ | ⟨x, hx, hadm, -, he⟩ <;> rw [he]
  · exact h
  · exact h.insert fun _ => h _ x hx (lt_of_le_of_lt hnow hadm.live)

theorem identified_rotate (i : PeerIdentity) (id id' : String) (lease now : ℤ) :
    (r.rotate i id id' lease now).2.Identified t := by
  rcases rotate_cases hr i id id' lease now with
    ⟨err, he⟩ | ⟨x, -, -, -, -, hnext, -, he⟩ <;> rw [he]
  · exact h
  · exact h.insert fun _ => hnext

theorem identified_revoke (n reason : String) (now : ℤ) :
    (r.revoke n reason now).2.Identified t := by
  rcases revoke_cases hr n reason now with
    ⟨err, he⟩ | ⟨x, err, -, -, he⟩ | ⟨x, -, -, -, he⟩ | ⟨x, hx, -, -, -, -, he⟩ <;> rw [he]
  · exact h
  · exact h.filter _
  · exact h
  · exact h.insert fun hlt => h _ x hx hlt

end

/-- The snapshot of a store whose live registrations have an id is restored later, into any
store. -/
theorem restoreSnapshot_snapshot {r : RegistrationStore} (hr : r.WellFormed) {t now later : ℤ}
    (hid : r.Identified t) (ht : t ≤ now) (hle : now ≤ later) (r' : RegistrationStore) :
    r'.restoreSnapshot (r.snapshot now) later = (.ok (), r.unexpired later) := by
  have hmem : ∀ e ∈ (r.unexpired now).entries.values,
      e.WellFormed e.nodeID ∧ trimSpace e.registrationID ≠ "" := by
    intro e he
    obtain ⟨n, hn⟩ := (OrdMap.mem_values_iff _).1 he
    have hw := hr.unexpired now n e hn
    obtain ⟨hget, hlive⟩ := (get?_unexpired r now n e).1 hn
    exact ⟨hw.node_eq ▸ hw, hid n e hget (lt_of_le_of_lt ht hlive)⟩
  have hgen : ∀ e ∈ (r.unexpired now).entries.values, e.generation ≠ 0 := fun e he =>
    (hmem e he).1.generation
  obtain ⟨m, hm⟩ := restoreEntries_succeeds later (m := ∅)
    (fun e he => checkSnapshotEntry_ok (hmem e he).1 (hmem e he).2) hgen
    (hr.unexpired now).keyed.nodup_values (fun _ _ => rfl)
  rw [restoreSnapshot, snapshot_eq hr, hm, restoreEntries_ok hgen hm,
    foldl_insert_values (hr.unexpired now), unexpired_unexpired r hle]

/-- A revocation that fails drops at most a registration that has expired. -/
theorem unexpired_revoke_error {r : RegistrationStore} (hr : r.WellFormed) (n reason : String)
    (now : ℤ) {err : String} (h : (r.revoke n reason now).1 = .error err) :
    (r.revoke n reason now).2.unexpired now = r.unexpired now := by
  rcases revoke_cases hr n reason now with
    ⟨_, he⟩ | ⟨x, _, hx, hexp, he⟩ | ⟨_, -, -, -, he⟩ | ⟨_, -, -, -, -, -, he⟩ <;> rw [he] at h ⊢
  · refine congrArg RegistrationStore.mk (OrdMap.ext_get? fun m => ?_)
    simp only [OrdMap.get?_filter, OrdMap.get?_erase]
    split_ifs with hm
    · subst hm
      rw [hx]
      simp only [Option.filter_none, Option.filter_some]
      rw [if_neg (by simpa using hexp)]
    · rfl
  · cases h

end RegistrationStore

namespace Service

/-- The model and the pending updates are as the checks on snapshots want them. -/
structure RoundSound (s : Service) : Prop where
  model : ∃ n, validateSnapshotModel s.model = .ok n
  quorum : (s.pending.size : ℤ) < s.settings.minUpdates
  pending : ∀ k u, s.pending.get? k = some u → u.nodeID = k ∧ u.Persistable

/-- The parts of the state that snapshots hold are as their checks want them. -/
structure Sound (s : Service) (t : ℤ) : Prop extends RoundSound s where
  wellFormed : s.registry.WellFormed
  identified : s.registry.Identified t
  nonces : ∀ k seenAt, s.nonces.get? k = some seenAt → trimSpace k ≠ "" ∧ seenAt ≠ 0
  rates : ∀ n w, s.rates.get? n = some w →
    trimSpace n ≠ "" ∧ 0 < w.count ∧ w.count ≤ s.settings.maxUpdatesPerMinute

variable {s s' : Service} {t : ℤ} {c : Call}

theorem RoundSound.keyed (h : s.RoundSound) : s.pending.Keyed PendingUpdate.nodeID :=
  fun k u hu => (h.pending k u hu).1

theorem Sound.mono {t' : ℤ} (h : s.Sound t) (htt : t ≤ t') : s.Sound t' :=
  { h with identified := h.identified.mono htt }

/-! ## Updates and models -/

theorem Accepts.persistable {identity : Option PeerIdentity} {req : SubmitLocalUpdateRequest}
    {env : Env} {prepared : PreparedUpdate} {updateID : String} {currentValues : List Float32}
    (h : s.Accepts identity req env prepared updateID currentValues) :
    (updateOf req updateID prepared.values).Persistable := by
  have hprep := prepareUpdate_ok h.prepare
  obtain ⟨-, hnode, -⟩ := requireIdentityAndRegistration_ok hprep.require
  obtain ⟨m, hm, hsamples, hsamplesLe⟩ := validateMetrics_ok hprep.metrics
  obtain ⟨hne, -, hfinite⟩ := decodeNPYFloat32_ok hprep.decode
  exact
    { node := hnode
      update := secureIdentifier_ok h.admits.identifier
      samples := by simpa only [updateOf, hm, Option.map_some, Option.getD_some] using hsamples
      samples_le := by simpa only [updateOf, hm, Option.map_some, Option.getD_some] using hsamplesLe
      nonempty := by simpa [updateOf] using hne
      finite := hfinite }

theorem trimSpace_modelVersion_nextModel (model : GlobalModel) (payload : Bytes) (now : ℤ) :
    trimSpace (nextModel model payload now).modelVersion ≠ "" := by
  have hr : 'r' ∈ (nextModel model payload now).modelVersion.toList := by
    simp only [nextModel, String.toList_append, List.mem_append]
    exact Or.inl (Or.inl (Or.inl (by decide)))
  exact trimSpace_ne_empty_of_mem hr (by decide)

theorem validateSnapshotModel_nextModel {settings : Settings}
    {updates : OrdMap String PendingUpdate} {order : IterOrder} {model : GlobalModel} {n : ℕ}
    {currentValues aggregated values : List Float32} {payload : Bytes} (hn : n * 4 < 2 ^ 63)
    (hcurrent : currentModelVector model n = .ok currentValues)
    (hcloses : Closes settings updates order currentValues aggregated values payload) (now : ℤ) :
    validateSnapshotModel (nextModel model payload now) = .ok n := by
  obtain ⟨hn0, rfl⟩ := length_currentModelVector hcurrent
  obtain ⟨-, hvlen, hpne, hdecode⟩ := hcloses.payload hn0 hn
  have hplen : 0 < (nextModel model payload now).weightsPayload.length :=
    List.length_pos_iff_ne_nil.2 hpne
  have hdec : decodeNPYFloat32 (nextModel model payload now).weightsPayload = .ok values := hdecode
  have hsha : (nextModel model payload now).sha256 = ZeroTrustFL.sha256 payload := rfl
  rw [validateSnapshotModel, if_neg (trimSpace_modelVersion_nextModel model payload now),
    if_neg (by simp [nextModel]), if_pos hplen, hdec]
  simp only
  rw [if_neg, hvlen]
  rw [hsha, length_sha256]
  simp [nextModel]

/-! ## Rate windows -/

theorem rates_acceptNonceLocked (s : Service) (nodeID : String) (nonce : Bytes) (now : ℤ) :
    (s.acceptNonceLocked nodeID nonce now).2.rates = s.rates := by
  simp only [acceptNonceLocked]
  split_ifs <;> rfl

theorem rates_admitUpdate (s : Service) (req : SubmitLocalUpdateRequest) (values : List Float32)
    (now : ℤ) (env : Env) : (s.admitUpdate req values now env).2.rates = s.rates := by
  rcases s.admitUpdate_cases req values now env with
    ⟨e, he⟩ | ⟨_, _, _, ⟨_, he⟩ | ⟨_, _, _, _, _, he⟩⟩ <;> rw [he]

/-- The rate windows after `allowUpdateLocked`. -/
def allowedRates (s : Service) (nodeID : String) (now : ℤ) : OrdMap String UpdateRateWindow :=
  (s.allowUpdateLocked nodeID now).2.rates

theorem allowedRates_congr (hsettings : s'.settings = s.settings) (hrates : s'.rates = s.rates)
    (nodeID : String) (now : ℤ) : s'.allowedRates nodeID now = s.allowedRates nodeID now := by
  simp only [allowedRates, allowUpdateLocked, hsettings, hrates]
  split_ifs
  · rfl
  · exact hrates
  · rfl

/-- `allowUpdateLocked` changes at most the window of its node. -/
theorem get?_allowedRates (s : Service) (nodeID : String) (now : ℤ) {n : String} (hn : n ≠ nodeID) :
    (s.allowedRates nodeID now).get? n = s.rates.get? n := by
  simp only [allowedRates, allowUpdateLocked]
  split_ifs
  · exact OrdMap.get?_insert_of_ne _ _ hn
  · rfl
  · exact OrdMap.get?_insert_of_ne _ _ hn

/-- The window of the node of `allowUpdateLocked` keeps to the limit. -/
theorem count_allowedRates {nodeID : String} {now : ℤ}
    (h : ∀ w, s.rates.get? nodeID = some w → 0 < w.count ∧ w.count ≤ s.settings.maxUpdatesPerMinute)
    {w : UpdateRateWindow} (hw : (s.allowedRates nodeID now).get? nodeID = some w) :
    0 < w.count ∧ w.count ≤ s.settings.maxUpdatesPerMinute := by
  have hmax := s.settings.maxUpdatesPerMinute_pos
  simp only [allowedRates, allowUpdateLocked] at hw
  rcases hg : s.rates.get? nodeID with _ | v
  · rw [hg] at hw
    simp only [Option.getD_none, isZeroTime, decide_true, true_or, if_true, OrdMap.get?_insert_self,
      Option.some.injEq] at hw
    subst hw
    exact ⟨one_pos, hmax⟩
  · obtain ⟨hpos, hle⟩ := h v hg
    rw [hg, Option.getD_some] at hw
    split_ifs at hw with h₁ h₂
    · rw [OrdMap.get?_insert_self, Option.some.injEq] at hw
      subst hw
      exact ⟨one_pos, hmax⟩
    · rw [hg, Option.some.injEq] at hw
      exact hw ▸ ⟨hpos, hle⟩
    · rw [OrdMap.get?_insert_self, Option.some.injEq] at hw
      subst hw
      dsimp only
      omega

theorem rates_submitLocalUpdateLocked (s : Service) (req : SubmitLocalUpdateRequest)
    (prepared : PreparedUpdate) (env : Env) :
    (s.submitLocalUpdateLocked req prepared env).2.rates = s.rates ∨
      (s.submitLocalUpdateLocked req prepared env).2.rates =
      s.allowedRates req.nodeID prepared.now := by
  simp only [submitLocalUpdateLocked]
  rcases s.registry.validate prepared.identity req.registrationID (env.clock.read 2) with e | entry
  · exact .inl rfl
  have hrates := s.rates_acceptNonceLocked req.nodeID (nonceOf req.security) prepared.now
  have hsettings := (s.sameRound_acceptNonceLocked req.nodeID
    (nonceOf req.security) prepared.now).settings
  simp only
  generalize s.acceptNonceLocked req.nodeID (nonceOf req.security) prepared.now = result
    at hrates hsettings
  rcases result with ⟨_ | _, s₁⟩
  · exact .inl hrates
  · right
    rw [← allowedRates_congr hsettings hrates, allowedRates]
    simp only
    generalize s₁.allowUpdateLocked req.nodeID prepared.now = result
    rcases result with ⟨_ | _, s₂⟩
    · rfl
    · exact s₂.rates_admitUpdate req prepared.values prepared.now env

theorem rates_rotateRegistration (s : Service) (identity : Option PeerIdentity)
    (req : Option RotateRegistrationRequest) (env : Env) :
    (s.rotateRegistration identity req env).2.rates = s.rates := by
  rcases req with _ | req
  · rfl
  rcases hp : s.prepareRotation identity req env with e | ⟨i, now, id⟩
  · simp only [rotateRegistration, hp]
  simp only [rotateRegistration, hp, rotateRegistrationLocked]
  rcases s.registry.validate i req.registrationID (env.clock.read 2) with e | entry
  · rfl
  have hrates := s.rates_acceptNonceLocked req.nodeID (nonceOf req.security) now
  simp only
  generalize s.acceptNonceLocked req.nodeID (nonceOf req.security) now = result at hrates
  rcases result with ⟨_ | _, s₁⟩
  · exact hrates
  · simp only
    rcases s₁.registry.rotate i req.registrationID id s₁.settings.leaseTTL (env.clock.read 3) with
      ⟨_ | _, _⟩ <;> exact hrates

theorem rates_revokeRegistration (s : Service) (identity : Option PeerIdentity)
    (req : Option RevokeRegistrationRequest) (env : Env) :
    (s.revokeRegistration identity req env).2.rates = s.rates ∨
      ∃ response, (s.revokeRegistration identity req env).1 = .ok response ∧
        (s.revokeRegistration identity req env).2.rates = s.rates.erase response.targetNodeID := by
  rcases req with _ | req
  · exact .inl rfl
  rcases hp : s.prepareRevocation identity req env with e | ⟨i, now⟩
  · simp only [revokeRegistration, hp]
    exact .inl trivial
  simp only [revokeRegistration, hp, revokeRegistrationLocked]
  rcases s.registry.validate i req.registrationID (env.clock.read 2) with e | entry
  · exact .inl rfl
  have hrates := s.rates_acceptNonceLocked req.nodeID (nonceOf req.security) now
  simp only
  generalize s.acceptNonceLocked req.nodeID (nonceOf req.security) now = result at hrates
  rcases result with ⟨_ | _, s₁⟩
  · exact .inl hrates
  · simp only at hrates ⊢
    rcases s₁.registry.revoke req.targetNodeID req.reason (env.clock.read 3) with
      ⟨_ | entry, registry⟩
    · exact .inl hrates
    · right
      rw [← hrates]
      exact ⟨_, rfl, rfl⟩

/-- A call leaves the rate windows as they are, counts a submission of its caller, or removes a
window in a revocation that succeeds. -/
theorem rates_serve (s : Service) (c : Call) :
    (s.serve c).2.rates = s.rates ∨
    (∃ i, c.identity = some i ∧ trimSpace i.nodeID ≠ "" ∧
      (s.serve c).2.rates = s.allowedRates i.nodeID (c.env.clock.read 1)) ∨
    ∃ response, (s.serve c).1 = .ok (.revokeRegistration response) ∧
      (s.serve c).2.rates = s.rates.erase response.targetNodeID := by
  rcases hc : c.request with req | req | req | req | req | req
  · obtain ⟨registry, heq⟩ := serve_eq_withRegistry (s := s) (.inl ⟨req, hc⟩)
    exact .inl (by rw [heq])
  · obtain ⟨registry, heq⟩ := serve_eq_withRegistry (s := s) (.inr ⟨req, hc⟩)
    exact .inl (by rw [heq])
  all_goals simp only [serve, hc, Prod.map_snd, Prod.map_fst, id_eq]
  · exact .inl trivial
  · rcases req with _ | req
    · exact .inl rfl
    rcases hp : s.prepareUpdate c.identity req c.env with e | prepared <;>
      simp only [submitLocalUpdate, hp]
    · exact .inl trivial
    obtain ⟨hreq, -, -, hnow, -⟩ := prepareUpdate_ok hp
    obtain ⟨hi, hnode, heq, -⟩ := requireIdentityAndRegistration_ok hreq
    rw [← hnow]
    rcases s.rates_submitLocalUpdateLocked req prepared c.env with h | h
    · exact .inl h
    · exact .inr (.inl ⟨prepared.identity, hi, heq ▸ hnode, heq ▸ h⟩)
  · exact .inl (s.rates_rotateRegistration c.identity req c.env)
  · rcases s.rates_revokeRegistration c.identity req c.env with h | ⟨response, hok, h⟩
    · exact .inl h
    · refine .inr (.inr ⟨response, ?_, h⟩)
      rw [hok]
      rfl

/-! ## Nonces -/

theorem trimSpace_nonceKey (nodeID : String) (nonce : Bytes) :
    trimSpace (nonceKey nodeID nonce) ≠ "" := by
  have hmem : ':' ∈ (nonceKey nodeID nonce).toList := by
    simp only [nonceKey, String.toList_append, List.mem_append]
    exact Or.inl (Or.inr (by decide))
  exact trimSpace_ne_empty_of_mem hmem (by decide)

/-- The nonces that `acceptNonceLocked` leaves were there before or are the new one. -/
theorem of_get?_acceptNonceLocked {nodeID : String} {nonce : Bytes} {now : ℤ} {key : String}
    (h : (s.acceptNonceLocked nodeID nonce now).2.nonces.get? key = some t) :
    s.nonces.get? key = some t ∨ key = nonceKey nodeID nonce ∧ t = now := by
  have hold : (s.nonces.filter fun _ seenAt => !decide (seenAt < now - requestReplayWindow)).get?
      key = some t → s.nonces.get? key = some t := by
    intro hf
    rw [OrdMap.get?_filter, Option.filter_eq_some_iff] at hf
    exact hf.1
  simp only [acceptNonceLocked] at h
  split_ifs at h with hsome
  · exact .inl (hold h)
  · rw [OrdMap.get?_insert] at h
    split_ifs at h with hkey
    · exact .inr ⟨hkey, (Option.some.inj h).symm⟩
    · exact .inl (hold h)

/-! ## Calls -/

theorem RoundSound.congr (h : s.RoundSound) (hsettings : s'.settings = s.settings)
    (hmodel : s'.model = s.model) (hpending : s'.pending = s.pending) : s'.RoundSound :=
  ⟨hmodel ▸ h.model, hpending ▸ hsettings ▸ h.quorum, hpending ▸ h.pending⟩

theorem RoundSound.serve (h : s.RoundSound) (c : Call) : (s.serve c).2.RoundSound := by
  obtain ⟨p, hout, hprepared⟩ := s.serve_completed c
  generalize s.serve c = result at hout hprepared
  cases hout with
  | failed same => exact h.congr same.settings same.model same.pending
  | rejected same => exact h.congr same.settings same.model same.pending
  | read => exact h
  | registered => exact h.congr rfl rfl rfl
  | refreshed => exact h.congr rfl rfl rfl
  | @waiting r prepared updateID currentValues passes few =>
    have accepts := passes.accepts (hprepared rfl).2
    have same := s.sameRound_afterChecks r prepared.now
    refine ⟨by simpa only [same.model] using h.model, ?_, ?_⟩
    · simpa only [same.settings, OrdMap.size_insert_of_none _ _ accepts.admits.fresh, Nat.cast_add,
        Nat.cast_one] using few
    · intro k u hu
      rw [OrdMap.get?_insert] at hu
      split_ifs at hu with hk
      · cases hu
        exact ⟨hk.symm, accepts.persistable⟩
      · exact h.pending k u hu
  | @closing r prepared updateID currentValues aggregated values payload passes enough closes =>
    have accepts := passes.accepts (hprepared rfl).2
    have same := s.sameRound_afterChecks r prepared.now
    obtain ⟨-, hlt, -⟩ := decodeNPYFloat32_ok (prepareUpdate_ok accepts.prepare).decode
    refine ⟨⟨_, validateSnapshotModel_nextModel hlt accepts.admits.current closes _⟩, ?_, ?_⟩
    · simpa only [same.settings, OrdMap.size_empty, Nat.cast_zero] using s.settings.minUpdates_pos
    · intro k u hu
      simp at hu
  | rotated same => exact h.congr same.settings same.model same.pending
  | @revoked r i now entry s₁ registry same _ =>
    refine ⟨by simpa only [same.model] using h.model, ?_, ?_⟩
    · have hle := s.pending.size_erase_le entry.nodeID
      have hquorum := h.quorum
      simp only [same.settings]
      omega
    · intro k u hu
      rw [OrdMap.get?_erase] at hu
      split_ifs at hu
      exact h.pending k u hu

theorem RegistryRun.wellFormed {env : Env} {p : Prepared}
    {result : Except String Registration × RegistrationStore} (run : s.RegistryRun env result p)
    (hs : s.registry.WellFormed) : result.2.WellFormed := by
  cases run with
  | register ran => exact ran ▸
      RegistrationStore.wellFormed_register hs _ _ _ (env.clock.read_pos 0)
  | refresh ran => exact ran ▸ RegistrationStore.wellFormed_refresh hs _ _ _ (env.clock.read_pos 1)
  | rotate ran => exact ran ▸ RegistrationStore.wellFormed_rotate hs _ _ _ _ (env.clock.read_pos 3)
  | revoke ran => exact ran ▸ RegistrationStore.wellFormed_revoke hs _ _ (env.clock.read_pos 3)

/-- Every call keeps a sound service sound. -/
theorem Sound.serve (h : s.Sound t) (ht : t ≤ c.env.clock.start) :
    (s.serve c).2.Sound t where
  toRoundSound := h.toRoundSound.serve c
  wellFormed := registry_serve h.wellFormed fun _ run => run.wellFormed h.wellFormed
  identified := registry_serve (P := fun r => r.Identified t) h.identified fun hprepared run => by
    have hs := h.wellFormed
    have hi := h.identified
    cases run with
    | register ran =>
      obtain ⟨_, -, -, -, identifier⟩ := hprepared
      exact ran ▸ RegistrationStore.identified_register hs hi _ (secureIdentifier_ok identifier) _ _
    | refresh ran =>
      have hlater := ht.trans (c.env.clock.start_le_read 1)
      exact ran ▸ RegistrationStore.identified_refresh hs hi _ _ _ hlater
    | rotate ran => exact ran ▸ RegistrationStore.identified_rotate hs hi _ _ _ _ _
    | revoke ran => exact ran ▸ RegistrationStore.identified_revoke hs hi _ _ _
  nonces := by
    intro key seenAt hkey
    rcases s.nonces_serve c with ⟨heq, -⟩ | ⟨i, security, -, -, -, heq, -⟩ <;> rw [heq] at hkey
    · exact h.nonces key seenAt hkey
    · rcases of_get?_acceptNonceLocked hkey with hold | ⟨rfl, rfl⟩
      · exact h.nonces key seenAt hold
      · exact ⟨trimSpace_nonceKey _ _, ne_of_gt (c.env.clock.read_pos 1)⟩
  rates := by
    intro n w hw
    rw [settings_serve]
    rcases s.rates_serve c with heq | ⟨i, -, hnode, heq⟩ | ⟨response, -, heq⟩ <;> rw [heq] at hw
    · exact h.rates n w hw
    · by_cases hn : n = i.nodeID
      · subst hn
        exact ⟨hnode, count_allowedRates (fun v hv => (h.rates _ v hv).2) hw⟩
      · rw [get?_allowedRates _ _ _ hn] at hw
        exact h.rates n w hw
    · rw [OrdMap.get?_erase] at hw
      split_ifs at hw
      exact h.rates n w hw

/-! ## Calls that fail -/

/-- The model, the pending updates and the registrations that are live at `t` are the same. -/
structure SameState (s s' : Service) (t : ℤ) : Prop where
  model : s'.model = s.model
  pending : s'.pending = s.pending
  registry : s'.registry.unexpired t = s.registry.unexpired t

theorem SameRound.sameState (h : s.SameRound s') (t : ℤ) : s.SameState s' t :=
  ⟨h.model, h.pending, by rw [h.registry]⟩

/-- A call that fails has changed neither the round nor the live registrations. -/
theorem sameState_of_error (hs : s.registry.WellFormed) {e : Failure}
    (h : (s.serve c).1 = .error e) : s.SameState (s.serve c).2 (c.env.clock.read 3) := by
  obtain ⟨p, hout, -⟩ := s.serve_completed c
  generalize s.serve c = result at h hout
  cases hout with
  | failed same => exact same.sameState _
  | rejected same run =>
    refine ⟨same.model, same.pending, ?_⟩
    cases run with
    | @register i id ran =>
      rcases RegistrationStore.register_cases hs i id s.settings.leaseTTL (c.env.clock.read 0) with
        ⟨_, he⟩ | ⟨_, he, -⟩ <;> cases he.symm.trans ran
      rfl
    | @refresh i r ran =>
      rcases RegistrationStore.refresh_cases hs i r.registrationID s.settings.leaseTTL
        (c.env.clock.read 1) with ⟨_, he⟩ | ⟨_, -, -, -, he⟩ <;> cases he.symm.trans ran
      rfl
    | @rotate r i _ id ran =>
      rcases RegistrationStore.rotate_cases hs i r.registrationID id s.settings.leaseTTL
        (c.env.clock.read 3) with ⟨_, he⟩ | ⟨_, -, -, -, -, -, -, he⟩ <;> cases he.symm.trans ran
      rfl
    | @revoke r _ _ ran =>
      have hkept := RegistrationStore.unexpired_revoke_error hs r.targetNodeID r.reason
        (c.env.clock.read 3) (by rw [ran])
      rwa [ran] at hkept
  | _ => cases h

end Service

end ZeroTrustFL
