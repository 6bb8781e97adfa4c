import Mathlib
import ZeroTrustFL.Coordinator.Snapshot

/-!
# Valid snapshots

What the checks of `validateStateSnapshot` amount to: a snapshot passes them exactly when its parts
have the properties of `StateSnapshot.Valid`.
-/

namespace ZeroTrustFL

/-- An update that passes the checks on its own fields. -/
structure PendingUpdate.Persistable (u : PendingUpdate) : Prop where
  node : trimSpace u.nodeID ≠ ""
  update : trimSpace u.updateID ≠ ""
  samples : u.sampleCount ≠ 0
  samples_le : u.sampleCount ≤ maxReportedSampleCount
  nonempty : u.values.length ≠ 0
  finite : ∀ x ∈ u.values, isNonFinite x = false

/-- The updates have one length, that of the model's vector if it has one. -/
def CommonLength (n : ℕ) (updates : List PendingUpdate) : Prop :=
  ∃ k, (n ≠ 0 → k = n) ∧ ∀ u ∈ updates, u.values.length = k

theorem commonLength_nil (n : ℕ) : CommonLength n [] := ⟨n, fun _ => rfl, by simp⟩

theorem commonLength_cons {n : ℕ} {u : PendingUpdate} (hu : u.values.length ≠ 0)
    (us : List PendingUpdate) :
    CommonLength n (u :: us) ↔
      u.values.length = (if n = 0 then u.values.length else n) ∧
        CommonLength (if n = 0 then u.values.length else n) us := by
  by_cases hn : n = 0
  · subst hn
    simp only [CommonLength, ne_eq, not_true_eq_false, false_implies, true_and, List.mem_cons,
      forall_eq_or_imp, if_true]
    constructor
    · rintro ⟨k, rfl, hus⟩
      exact ⟨_, fun _ => rfl, hus⟩
    · rintro ⟨k, hk, hus⟩
      exact ⟨k, (hk hu).symm, hus⟩
  · simp only [CommonLength, List.mem_cons, forall_eq_or_imp, hn, ne_eq, not_false_eq_true,
      true_implies, if_false]
    constructor
    · rintro ⟨k, rfl, hu, hus⟩
      exact ⟨hu, _, rfl, hus⟩
    · rintro ⟨hu, k, rfl, hus⟩
      exact ⟨_, rfl, hu, hus⟩

theorem CommonLength.subset {n : ℕ} {us vs : List PendingUpdate} (h : CommonLength n us)
    (hvs : vs ⊆ us) : CommonLength n vs := by
  obtain ⟨k, hk, hus⟩ := h
  exact ⟨k, hk, fun u hu => hus u (hvs hu)⟩

theorem validatePendingUpdates_ok_iff (seen : List String) (n : ℕ) (us : List PendingUpdate) :
    validatePendingUpdates seen n us = .ok () ↔
      (∀ u ∈ us, u.Persistable) ∧ (us.map PendingUpdate.nodeID).Nodup ∧
      (∀ u ∈ us, u.nodeID ∉ seen) ∧ CommonLength n us := by
  induction us generalizing seen n with
  | nil => simp [validatePendingUpdates, commonLength_nil]
  | cons u us ih =>
    simp only [validatePendingUpdates]
    constructor
    · intro h
      generalize hk : (if n = 0 then u.values.length else n) = k at h
      split_ifs at h with h₁ h₂ h₃ h₄ h₅ h₆
      rw [not_or] at h₁ h₃
      rw [not_not, ← hk] at h₅
      rw [← hk] at h
      obtain ⟨hp, hnodup, hseen, hlen⟩ := (ih _ _).1 h
      have hu : u.Persistable := ⟨h₁.1, h₁.2, h₃.1, UInt64.not_lt.1 h₃.2, h₄, fun x hx => by
        simpa using fun hx' => h₆ (List.any_eq_true.2 ⟨x, hx, hx'⟩)⟩
      refine ⟨List.forall_mem_cons.2 ⟨hu, hp⟩, ?_, List.forall_mem_cons.2 ⟨h₂, fun v hv hvs => ?_⟩,
        (commonLength_cons h₄ us).2 ⟨h₅, hlen⟩⟩
      · refine List.nodup_cons.2 ⟨fun hmem => ?_, hnodup⟩
        obtain ⟨v, hv, heq⟩ := List.mem_map.1 hmem
        exact hseen v hv (heq ▸ List.mem_cons_self)
      · exact hseen v hv (List.mem_cons_of_mem _ hvs)
    · rintro ⟨hp, hnodup, hseen, hlen⟩
      have hu := hp u List.mem_cons_self
      obtain ⟨hmem, hnodup⟩ := List.nodup_cons.1 hnodup
      obtain ⟨hlenu, hlen⟩ := (commonLength_cons hu.nonempty us).1 hlen
      rw [if_neg (not_or.2 ⟨hu.node, hu.update⟩), if_neg (hseen u List.mem_cons_self),
        if_neg (not_or.2 ⟨hu.samples, UInt64.not_lt.2 hu.samples_le⟩), if_neg hu.nonempty,
        if_neg (not_not.2 hlenu), if_neg (by simpa using hu.finite)]
      refine (ih _ _).2 ⟨fun v hv => hp v (List.mem_cons_of_mem _ hv), hnodup,
        fun v hv hvs => ?_, hlen⟩
      rcases List.mem_cons.1 hvs with heq | hvs
      · exact hmem (List.mem_map.2 ⟨v, hv, heq⟩)
      · exact hseen v (List.mem_cons_of_mem _ hv) hvs

theorem validateDistinct_ok_iff {α : Type} (check : α → Except String Unit) (key : α → String)
    (duplicate : String → String) (seen : List String) (l : List α) :
    validateDistinct check key duplicate seen l = .ok () ↔
      (∀ x ∈ l, check x = .ok ()) ∧ (l.map key).Nodup ∧ ∀ x ∈ l, key x ∉ seen := by
  induction l generalizing seen with
  | nil => simp [validateDistinct]
  | cons x l ih =>
    simp only [validateDistinct]
    rcases hx : check x with e | ⟨⟨⟩⟩
    · simp [hx]
    · simp only
      split_ifs with hseen
      · simp [hseen]
      · rw [ih]
        simp only [List.mem_cons, not_or, forall_eq_or_imp, hx, true_and, List.map_cons,
          List.nodup_cons, hseen, not_false_eq_true, List.mem_map, not_exists, not_and]
        constructor
        · rintro ⟨hc, hn, hs⟩
          exact ⟨hc, ⟨fun y hy h => (hs y hy).1 h, hn⟩, fun y hy => (hs y hy).2⟩
        · rintro ⟨hc, ⟨hk, hn⟩, hs⟩
          exact ⟨hc, hn, fun y hy => ⟨fun h => hk y hy h, hs y hy⟩⟩

theorem checkPersistedRegistration_ok_iff (r : Registration) :
    checkPersistedRegistration r = .ok () ↔ trimSpace r.nodeID ≠ "" ∧ trimSpace r.role ≠ "" ∧
      trimSpace r.certificateFingerprint ≠ "" ∧ trimSpace r.registrationID ≠ "" ∧
      r.expiresAt ≠ 0 := by
  simp only [checkPersistedRegistration, isZeroTime, decide_eq_true_eq]
  constructor
  · intro h
    split_ifs at h with h₁ h₂
    push Not at h₁
    exact ⟨h₁.1, h₁.2.1, h₁.2.2.1, h₁.2.2.2, h₂⟩
  · rintro ⟨h₁, h₂, h₃, h₄, h₅⟩
    rw [if_neg (by simp only [h₁, h₂, h₃, h₄, or_self, not_false_eq_true]), if_neg h₅]

theorem checkPersistedNonce_ok_iff (n : PersistedNonce) :
    checkPersistedNonce n = .ok () ↔ trimSpace n.key ≠ "" ∧ n.seenAt ≠ 0 := by
  simp only [checkPersistedNonce, isZeroTime, decide_eq_true_eq]
  constructor
  · intro h
    split_ifs at h with h₁
    exact not_or.1 h₁
  · rintro ⟨h₁, h₂⟩
    rw [if_neg (not_or.2 ⟨h₁, h₂⟩)]

theorem checkPersistedRateWindow_ok_iff (max : ℤ) (w : PersistedRateWindow) :
    checkPersistedRateWindow max w = .ok () ↔
      trimSpace w.nodeID ≠ "" ∧ w.startedAt ≠ 0 ∧ 0 < w.count ∧ w.count ≤ max := by
  simp only [checkPersistedRateWindow, isZeroTime, decide_eq_true_eq]
  constructor
  · intro h
    split_ifs at h with h₁ h₂
    rw [not_or] at h₁
    exact ⟨h₁.1, h₁.2, by omega, by omega⟩
  · rintro ⟨h₁, h₂, h₃, h₄⟩
    rw [if_neg (not_or.2 ⟨h₁, h₂⟩), if_neg (by omega)]

/-- What a snapshot has to satisfy to be committed and restored. -/
structure StateSnapshot.Valid (s : StateSnapshot) : Prop where
  policy : validateStatePolicy s.policy = .ok ()
  model : ∃ n, validateSnapshotModel s.model = .ok n ∧ CommonLength n s.pending
  quorum : (s.pending.length : ℤ) < s.policy.minUpdates
  updates : ∀ u ∈ s.pending, u.Persistable
  updates_nodup : (s.pending.map PendingUpdate.nodeID).Nodup
  registrations : validateRegistrations s.registrations = .ok ()
  nonces : validateNonces s.nonces = .ok ()
  rateWindows : validateRateWindows s.policy.maxUpdatesPerMinute s.rateWindows = .ok ()

theorem validateStateSnapshot_ok_iff (s : StateSnapshot) :
    validateStateSnapshot s = .ok () ↔ s.Valid := by
  constructor
  · intro h
    unfold validateStateSnapshot at h
    rcases hp : validateStatePolicy s.policy with e | ⟨⟨⟩⟩ <;> simp only [hp, reduceCtorEq] at h
    rcases hm : validateSnapshotModel s.model with e | n <;> simp only [hm, reduceCtorEq] at h
    split_ifs at h with hq
    rcases hu : validatePendingUpdates [] n s.pending with e | ⟨⟨⟩⟩ <;>
      simp only [hu, reduceCtorEq] at h
    rcases hr : validateRegistrations s.registrations with e | ⟨⟨⟩⟩ <;>
      simp only [hr, reduceCtorEq] at h
    rcases hn : validateNonces s.nonces with e | ⟨⟨⟩⟩ <;> simp only [hn, reduceCtorEq] at h
    rcases hw : validateRateWindows s.policy.maxUpdatesPerMinute s.rateWindows with e | ⟨⟨⟩⟩ <;>
      simp only [hw, reduceCtorEq] at h
    obtain ⟨hpers, hnodup, -, hlen⟩ := (validatePendingUpdates_ok_iff _ _ _).1 hu
    exact ⟨hp, ⟨n, hm, hlen⟩, not_le.1 hq, hpers, hnodup, hr, hn, hw⟩
  · rintro ⟨hp, ⟨n, hm, hlen⟩, hq, hpers, hnodup, hr, hn, hw⟩
    have hu : validatePendingUpdates [] n s.pending = .ok () :=
      (validatePendingUpdates_ok_iff _ _ _).2 ⟨hpers, hnodup, by simp, hlen⟩
    simp only [validateStateSnapshot, hp, hm, hu, hr, hn, hw, if_neg (not_le.2 hq)]

/-- With a model that decodes, the checks never panic. -/
theorem validateStateSnapshot_ne_crash {s : StateSnapshot} {n : ℕ}
    (hm : validateSnapshotModel s.model = .ok n) (e : String) :
    validateStateSnapshot s ≠ .error (.crash e) := by
  intro h
  unfold validateStateSnapshot at h
  rcases hp : validateStatePolicy s.policy with e | ⟨⟨⟩⟩ <;> simp only [hp] at h
  · cases h
  simp only [hm] at h
  split_ifs at h with hq
  · cases h
  rcases hu : validatePendingUpdates [] n s.pending with e | ⟨⟨⟩⟩ <;> simp only [hu] at h
  · cases h
  rcases hr : validateRegistrations s.registrations with e | ⟨⟨⟩⟩ <;> simp only [hr] at h
  · cases h
  rcases hn : validateNonces s.nonces with e | ⟨⟨⟩⟩ <;> simp only [hn] at h
  · cases h
  rcases hw : validateRateWindows s.policy.maxUpdatesPerMinute s.rateWindows with e | ⟨⟨⟩⟩ <;>
    simp only [hw] at h
  · cases h
  · cases h

end ZeroTrustFL
