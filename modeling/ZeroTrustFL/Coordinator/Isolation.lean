import Mathlib
import ZeroTrustFL.Coordinator.Round
import ZeroTrustFL.Coordinator.Sound

/-!
# Isolation between nodes

Everything the coordinator keeps about a node is kept in maps, and a caller that is not an admin
writes only under its own name.  The nonces of all nodes share one map, whose keys are texts made of
the name of the node and the nonce; a name can contain any text, but a key has one reading.
-/

namespace ZeroTrustFL

/-! ## Keys of nonces -/

/-- The last occurrence of a separator splits a list in one way. -/
theorem append_cons_inj_last {α : Type} {a : α} {xs xs' ys ys' : List α} (h : a ∉ ys) (h' : a ∉ ys')
    (heq : xs ++ a :: ys = xs' ++ a :: ys') : xs = xs' ∧ ys = ys' := by
  rcases List.append_eq_append_iff.1 heq with ⟨between, hxs, hys⟩ | ⟨between, hxs, hys⟩
  · rcases between with _ | ⟨x, between⟩
    · rw [List.append_nil] at hxs
      exact ⟨hxs.symm, (List.cons.inj hys).2⟩
    · rw [(List.cons.inj hys).2] at h
      exact absurd (List.mem_append_right _ List.mem_cons_self) h
  · rcases between with _ | ⟨x, between⟩
    · rw [List.append_nil] at hxs
      exact ⟨hxs, (List.cons.inj hys).2.symm⟩
    · rw [(List.cons.inj hys).2] at h'
      exact absurd (List.mem_append_right _ List.mem_cons_self) h'

namespace Service

/-- A key belongs to one node and one nonce, whatever the name of the node contains. -/
theorem nonceKey_inj {a b : String} {nonce nonce' : Bytes}
    (h : nonceKey a nonce = nonceKey b nonce') : a = b ∧ nonce = nonce' := by
  have hcolon (bytes : Bytes) : ':' ∉ hexChars bytes := fun hc =>
    absurd (mem_hexChars hc) (by decide)
  have hchars (n : String) (bytes : Bytes) :
      (nonceKey n bytes).toList = n.toList ++ ':' :: hexChars bytes := by
    rw [nonceKey, String.toList_append, String.toList_append, List.append_assoc, hexEncode,
      String.toList_ofList (l := hexChars bytes)]
    rfl
  have hlists := congrArg String.toList h
  rw [hchars, hchars] at hlists
  obtain ⟨hnode, hnonce⟩ := append_cons_inj_last (hcolon nonce) (hcolon nonce') hlists
  exact ⟨String.toList_inj.1 hnode, hexChars_injective hnonce⟩

end Service

/-! ## Registrations of other nodes -/

namespace RegistrationStore

variable (s : RegistrationStore) {i : PeerIdentity} {n : String} (hn : n ≠ i.nodeID)
include hn

theorem register_frame (id : String) (lease now : ℤ) :
    (s.register i id lease now).2.entries.get? n = s.entries.get? n := by
  unfold register
  split_ifs
  · rfl
  · rfl
  · rfl
  rcases s.nextGeneration i now with e | generation
  · rfl
  · exact OrdMap.get?_insert_of_ne _ _ hn

theorem refresh_frame (id : String) (lease now : ℤ) :
    (s.refresh i id lease now).2.entries.get? n = s.entries.get? n := by
  unfold refresh
  split_ifs
  · rfl
  rcases s.validate i id now with e | entry
  · rfl
  · exact OrdMap.get?_insert_of_ne _ _ hn

theorem rotate_frame (id id' : String) (lease now : ℤ) :
    (s.rotate i id id' lease now).2.entries.get? n = s.entries.get? n := by
  unfold rotate
  split_ifs
  · rfl
  · rfl
  · rfl
  rcases s.validate i id now with e | entry
  · rfl
  simp only
  split_ifs
  · rfl
  · exact OrdMap.get?_insert_of_ne _ _ hn

end RegistrationStore

namespace Service

section

variable {s : Service} {c : Call} {a : PeerIdentity} (hidentity : c.identity = some a)
include hidentity

/-- An update is submitted under the name of its caller. -/
theorem nodeID_of_submits {u : PendingUpdate} (h : s.Submits c u) : u.nodeID = a.nodeID := by
  obtain ⟨req, resp, hc, hserve, -, -, -, hu⟩ := h
  have hnode {prepared : PreparedUpdate}
      (hp : s.prepareUpdate c.identity req c.env = .ok prepared) : u.nodeID = a.nodeID := by
    obtain ⟨hi, -, heq, -⟩ := requireIdentityAndRegistration_ok (prepareUpdate_ok hp).require
    cases hidentity.symm.trans hi
    rw [hu]
    exact heq
  obtain ⟨p, hout, hprepared⟩ := s.serve_completed c
  generalize s.serve c = result at hserve hout hprepared
  cases hout with
  | waiting =>
    obtain ⟨request, prepare⟩ := hprepared rfl
    cases request.symm.trans hc
    exact hnode prepare
  | closing =>
    obtain ⟨request, prepare⟩ := hprepared rfl
    cases request.symm.trans hc
    exact hnode prepare
  | _ => cases hserve

variable (hrole : a.role ≠ "admin")
include hrole

/-- Only an admin revokes. -/
theorem not_prepares_revocation {req : RevokeRegistrationRequest} {result : PeerIdentity × ℤ}
    (h : s.prepareRevocation c.identity req c.env = .ok result) : False := by
  obtain ⟨hrequire, hadmin, -⟩ := prepareRevocation_ok h
  cases hidentity.symm.trans (requireIdentityAndRegistration_ok hrequire).1
  exact hrole hadmin

variable {b : String} (hb : b ≠ a.nodeID)
include hb

/-- The registration of another node stays. -/
theorem registration_of_other : (s.serve c).2.registry.entries.get? b =
    s.registry.entries.get? b := by
  refine registry_serve (P := fun r => r.entries.get? b = s.registry.entries.get? b) rfl
    fun hprepared run => ?_
  cases run with
  | register ran =>
    obtain ⟨_, -, identity, -⟩ := hprepared
    cases hidentity.symm.trans identity
    exact ran ▸ s.registry.register_frame hb _ _ _
  | refresh ran =>
    cases hidentity.symm.trans (requireIdentityAndRegistration_ok hprepared.2).1
    exact ran ▸ s.registry.refresh_frame hb _ _ _
  | rotate ran =>
    have hrequire := (prepareRotation_ok hprepared.2).1
    cases hidentity.symm.trans (requireIdentityAndRegistration_ok hrequire).1
    exact ran ▸ s.registry.rotate_frame hb _ _ _ _
  | revoke => exact (not_prepares_revocation hidentity hrole hprepared.2).elim

/-- The rate window of another node stays. -/
theorem rateWindow_of_other : (s.serve c).2.rates.get? b = s.rates.get? b := by
  rcases s.rates_serve c with hrates | ⟨i, hi, -, hrates⟩ | ⟨response, hrevoked, -⟩
  · rw [hrates]
  · rw [hidentity] at hi
    cases hi
    rw [hrates, get?_allowedRates _ _ _ hb]
  · obtain ⟨p, hout, hprepared⟩ := s.serve_completed c
    generalize s.serve c = result at hout hprepared hrevoked
    cases hout with
    | revoked => exact (not_prepares_revocation hidentity hrole (hprepared rfl).2).elim
    | _ => cases hrevoked

/-- The pending update of another node stays until the round is closed. -/
theorem pending_of_other : (s.serve c).2.pending.get? b = s.pending.get? b ∨
    ∃ u, s.Submits c u ∧ u.nodeID = a.nodeID ∧ (s.serve c).2.pending = ∅ ∧
      (s.serve c).2.model.roundID = s.model.roundID + 1 := by
  obtain ⟨p, hout, hprepared⟩ := s.serve_completed c
  generalize hserve : s.serve c = result at hout hprepared
  cases hout with
  | failed same => exact .inl (congrArg (OrdMap.get? · b) same.pending)
  | rejected same => exact .inl (congrArg (OrdMap.get? · b) same.pending)
  | read => exact .inl rfl
  | registered => exact .inl rfl
  | refreshed => exact .inl rfl
  | @waiting r prepared updateID _ passes _ =>
    obtain ⟨request, prepare⟩ := hprepared rfl
    have hnode : r.nodeID = a.nodeID :=
      nodeID_of_submits hidentity ((passes.accepts prepare).submits request hserve)
    exact .inl (OrdMap.get?_insert_of_ne _ _ (hnode ▸ hb))
  | closing passes =>
    obtain ⟨request, prepare⟩ := hprepared rfl
    have hsubmits := (passes.accepts prepare).submits request hserve
    exact .inr ⟨_, hsubmits, nodeID_of_submits hidentity hsubmits, rfl, rfl⟩
  | rotated same => exact .inl (congrArg (OrdMap.get? · b) same.pending)
  | revoked => exact (not_prepares_revocation hidentity hrole (hprepared rfl).2).elim

omit hrole

/-- What is remembered of a nonce of another node stays, unless it is older than the replay
window. -/
theorem nonce_of_other (nonce : Bytes) :
    (s.serve c).2.nonces.get? (nonceKey b nonce) = s.nonces.get? (nonceKey b nonce) ∨
      ∃ t, s.nonces.get? (nonceKey b nonce) = some t ∧
      t + requestReplayWindow < c.env.clock.read 1 ∧
        (s.serve c).2.nonces.get? (nonceKey b nonce) = none := by
  rcases s.nonces_serve c with ⟨hnonces, -⟩ | ⟨i, security, hi, -, -, hnonces, -⟩
  · exact .inl (by rw [hnonces])
  rw [hidentity] at hi
  cases hi
  have hkey : nonceKey b nonce ≠ nonceKey a.nodeID (nonceOf security) := fun h =>
    hb (nonceKey_inj h).1
  have hfiltered : (s.serve c).2.nonces.get? (nonceKey b nonce) =
      (s.nonces.filter fun _ seenAt =>
        !decide (seenAt < c.env.clock.read 1 - requestReplayWindow)).get? (nonceKey b nonce) := by
    rw [hnonces]
    simp only [acceptNonceLocked]
    split_ifs
    · rfl
    · exact OrdMap.get?_insert_of_ne _ _ hkey
  rw [hfiltered, OrdMap.get?_filter]
  rcases s.nonces.get? (nonceKey b nonce) with _ | t
  · exact .inl rfl
  by_cases ht : t + requestReplayWindow < c.env.clock.read 1
  · exact .inr ⟨t, rfl, ht, by simp [lt_sub_iff_add_lt, ht]⟩
  · exact .inl (by simp [lt_sub_iff_add_lt, ht])

end

/-- Whether a nonce is accepted depends on what is remembered of it. -/
theorem acceptNonceLocked_iff (s : Service) (nodeID : String) (nonce : Bytes) (now : ℤ) :
    (s.acceptNonceLocked nodeID nonce now).1 = true ↔
      ∀ t, s.nonces.get? (nonceKey nodeID nonce) = some t → t + requestReplayWindow < now := by
  simp only [acceptNonceLocked, OrdMap.get?_filter]
  rcases s.nonces.get? (nonceKey nodeID nonce) with _ | t
  · simp
  · by_cases ht : t + requestReplayWindow < now
    · simp [lt_sub_iff_add_lt, ht]
    · simp [lt_sub_iff_add_lt, ht]

/-- No later nonce of another node is accepted or refused because of a call. -/
theorem acceptance_of_other {s : Service} {c : Call} {a : PeerIdentity}
    (hidentity : c.identity = some a) {b : String} (hb : b ≠ a.nodeID) (nonce : Bytes) {now : ℤ}
    (hnow : c.env.clock.read 1 ≤ now) :
    ((s.serve c).2.acceptNonceLocked b nonce now).1 = (s.acceptNonceLocked b nonce now).1 := by
  rw [Bool.eq_iff_iff, acceptNonceLocked_iff, acceptNonceLocked_iff]
  rcases nonce_of_other hidentity hb nonce with hsame | ⟨t, hseen, hold, hpruned⟩
  · rw [hsame]
  · rw [hseen, hpruned]
    constructor
    · rintro - u hu
      cases hu
      omega
    · rintro - u hu
      cases hu

/-- However many calls the other nodes make, a node keeps its registration and its rate window, and
its next nonce is judged as before. -/
theorem final_isolates (s : Service) (calls : List Call) (b : String)
    (hcalls : ∀ c ∈ calls, ∃ a, c.identity = some a ∧ a.role ≠ "admin" ∧ b ≠ a.nodeID) :
    (final serve s calls).registry.entries.get? b = s.registry.entries.get? b ∧
      (final serve s calls).rates.get? b = s.rates.get? b ∧
      ∀ nonce now, (∀ c ∈ calls, c.env.clock.read 1 ≤ now) →
        ((final serve s calls).acceptNonceLocked b nonce now).1 =
        (s.acceptNonceLocked b nonce now).1 := by
  induction calls generalizing s with
  | nil => exact ⟨rfl, rfl, fun _ _ _ => rfl⟩
  | cons c calls ih =>
    obtain ⟨a, hidentity, hrole, hb⟩ := hcalls c List.mem_cons_self
    obtain ⟨hregistration, hrate, haccept⟩ := ih (s.serve c).2 fun d hd =>
      hcalls d (List.mem_cons_of_mem c hd)
    rw [final_cons]
    refine ⟨hregistration.trans (registration_of_other hidentity hrole hb),
      hrate.trans (rateWindow_of_other hidentity hrole hb), fun nonce now hnow => ?_⟩
    rw [haccept nonce now fun d hd => hnow d (List.mem_cons_of_mem c hd)]
    exact acceptance_of_other hidentity hb nonce (hnow c List.mem_cons_self)

/-- A call of a node that is not an admin leaves the registration and the rate window of every other
node as they were, and its pending update unless the call closes the round, which consumes all of
them; it changes what is remembered of a nonce of the other node only once it is older than the
replay window, and so no later acceptance. -/
theorem serve_isolates (s : Service) (c : Call) (a : PeerIdentity) (hidentity : c.identity = some a)
    (hrole : a.role ≠ "admin") (b : String) (hb : b ≠ a.nodeID) :
    (s.serve c).2.registry.entries.get? b = s.registry.entries.get? b ∧
      (s.serve c).2.rates.get? b = s.rates.get? b ∧
      ((s.serve c).2.pending.get? b = s.pending.get? b ∨
        ∃ u, s.Submits c u ∧ u.nodeID = a.nodeID ∧ (s.serve c).2.pending = ∅ ∧
          (s.serve c).2.model.roundID = s.model.roundID + 1) ∧
      (∀ nonce, (s.serve c).2.nonces.get? (nonceKey b nonce) = s.nonces.get? (nonceKey b nonce) ∨
        ∃ t, s.nonces.get? (nonceKey b nonce) = some t ∧
        t + requestReplayWindow < c.env.clock.read 1 ∧
          (s.serve c).2.nonces.get? (nonceKey b nonce) = none) ∧
      ∀ nonce now, c.env.clock.read 1 ≤ now →
        ((s.serve c).2.acceptNonceLocked b nonce now).1 = (s.acceptNonceLocked b nonce now).1 := by
  refine ⟨registration_of_other hidentity hrole hb, rateWindow_of_other hidentity hrole hb,
    pending_of_other hidentity hrole hb, nonce_of_other hidentity hb, fun nonce now hnow =>
    acceptance_of_other hidentity hb nonce hnow⟩

/-- The name of the second worker is a key of the nonces of the first. -/
theorem serve_isolates_sampleService :
    let s := final serve sampleService
      [sampleRegistration "worker-1" 0 7, sampleRegistration "worker-1:0a" 0 8]
    let s' := (s.serve (sampleSubmission "worker-1" 1 7 [1])).2
    s'.registry.entries.get? "worker-1:0a" = s.registry.entries.get? "worker-1:0a" ∧
      s'.rates.get? "worker-1:0a" = s.rates.get? "worker-1:0a" := by
  have hisolated := serve_isolates (final serve sampleService
      [sampleRegistration "worker-1" 0 7, sampleRegistration "worker-1:0a" 0 8])
    (sampleSubmission "worker-1" 1 7 [1]) (sampleWorker "worker-1") rfl (by decide) "worker-1:0a"
    (by decide)
  exact ⟨hisolated.1, hisolated.2.1⟩

end Service

end ZeroTrustFL
