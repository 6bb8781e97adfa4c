import Mathlib.Tactic
import ZeroTrustFL.Security.Registration

/-!
# What the operations of the registration store do

Well-formed registrations are those that the operations can create.  On a well-formed store each
operation either answers with an error and leaves the store as it is, or changes one entry in the
way its `_cases` theorem says; `revoke` also drops the entry of an expired target.
-/

namespace ZeroTrustFL

/-- What the operations guarantee of the entry stored under the node `n`. -/
structure Registration.WellFormed (n : String) (e : Registration) : Prop where
  node_eq : e.nodeID = n
  node : trimSpace e.nodeID ≠ ""
  role : trimSpace e.role ≠ ""
  fingerprint : trimSpace e.certificateFingerprint ≠ ""
  generation : e.generation ≠ 0
  expires : 0 < e.expiresAt
  reason_size : e.revocationReason.utf8ByteSize ≤ maxRegistrationRevocationReasonBytes
  no_reason : e.revokedAt = 0 → e.revocationReason = ""
  reason : e.revokedAt ≠ 0 → trimSpace e.revocationReason ≠ ""
  revoked_le : e.revokedAt ≠ 0 → e.revokedAt ≤ e.expiresAt

/-- The entry accepts a credential at a time. -/
structure Registration.Admits (e : Registration) (identity : PeerIdentity) (registrationID : String)
    (now : ℤ) : Prop where
  live : now < e.expiresAt
  not_revoked : e.revokedAt = 0
  id : e.registrationID = registrationID
  fingerprint : e.certificateFingerprint = identity.certificateFingerprint
  role : e.role = identity.role

/-- The generation counter wraps around at its largest value only. -/
theorem add_one_ne_zero_of_ne_max {g : UInt64} (hg : g ≠ maxGeneration) : g + 1 ≠ 0 := by
  intro h0
  apply hg
  have : g = 0 - 1 := by rw [← h0, UInt64.add_sub_cancel]
  rw [this]
  decide

theorem Registration.WellFormed.normalize {n : String} {e : Registration} (h : e.WellFormed n) :
    normalizeLegacyRegistration e = e := by
  simp [normalizeLegacyRegistration, h.generation]

theorem validateRegistrationEntry_ok_iff (e : Registration) (identity : PeerIdentity)
    (registrationID : String) (now : ℤ) :
    validateRegistrationEntry e identity registrationID now = .ok () ↔
      e.Admits identity registrationID now := by
  unfold validateRegistrationEntry
  constructor
  · intro h
    split_ifs at h with h₁ h₂ h₃ h₄ h₅
    exact ⟨h₁, by simpa [isZeroTime] using h₂, not_not.1 h₃, not_not.1 h₄, not_not.1 h₅⟩
  · rintro ⟨h₁, h₂, h₃, h₄, h₅⟩
    simp [h₁, h₂, h₃, h₄, h₅, isZeroTime]

namespace RegistrationStore

/-- Every entry is well formed. -/
def WellFormed (s : RegistrationStore) : Prop :=
  ∀ n e, s.entries.get? n = some e → e.WellFormed n

theorem wellFormed_new : newRegistrationStore.WellFormed := by
  intro n e h
  cases h

variable {s : RegistrationStore} {e : Registration}

theorem WellFormed.insert (hs : s.WellFormed) {n : String} (he : e.WellFormed n) :
    WellFormed ⟨s.entries.insert n e⟩ := by
  intro m x hx
  rw [OrdMap.get?_insert] at hx
  split_ifs at hx with h
  · cases hx
    exact h ▸ he
  · exact hs m x hx

theorem WellFormed.filter (hs : s.WellFormed) (p : String → Registration → Bool) :
    WellFormed ⟨s.entries.filter p⟩ := by
  intro m x hx
  rw [OrdMap.get?_filter, Option.filter_eq_some_iff] at hx
  exact hs m x hx.1

/-! ## Validation -/

theorem validate_ok_iff (hs : s.WellFormed) (identity : PeerIdentity) (registrationID : String)
    (now : ℤ) (e : Registration) :
    s.validate identity registrationID now = .ok e ↔
      s.entries.get? identity.nodeID = some e ∧ e.Admits identity registrationID now := by
  unfold validate
  rcases hg : s.entries.get? identity.nodeID with _ | x
  · simp
  · have hx := (hs _ _ hg).normalize
    simp only [hx, Option.some.injEq]
    rcases hv : validateRegistrationEntry x identity registrationID now with err | ⟨⟨⟩⟩
    · have hn : ¬ x.Admits identity registrationID now := fun h => by
        rw [(validateRegistrationEntry_ok_iff _ _ _ _).2 h] at hv
        cases hv
      simp only [reduceCtorEq, false_iff, not_and]
      rintro rfl
      exact hn
    · have ha := (validateRegistrationEntry_ok_iff _ _ _ _).1 hv
      simp only [Except.ok.injEq]
      constructor
      · rintro rfl
        exact ⟨rfl, ha⟩
      · exact fun h => h.1

theorem isRegistered_iff (hs : s.WellFormed) (identity : PeerIdentity) (now : ℤ) :
    s.isRegistered identity now = true ↔
      ∃ e, s.entries.get? identity.nodeID = some e ∧ e.Admits identity e.registrationID now := by
  unfold isRegistered
  rcases hg : s.entries.get? identity.nodeID with _ | x
  · simp
  · have hx := (hs _ _ hg).normalize
    simp only [hx, Option.some.injEq, exists_eq_left']
    simp only [isZeroTime, Bool.and_eq_true, decide_eq_true_eq, beq_iff_eq]
    constructor
    · rintro ⟨⟨⟨h₁, h₂⟩, h₃⟩, h₄⟩
      exact ⟨h₁, h₂, rfl, h₃, h₄⟩
    · rintro ⟨h₁, h₂, -, h₃, h₄⟩
      exact ⟨⟨⟨h₁, h₂⟩, h₃⟩, h₄⟩

/-! ## Registration -/

/-- What a successful `register` did: the entry it stored. -/
structure Registered (s : RegistrationStore) (identity : PeerIdentity) (registrationID : String)
    (lease now : ℤ) (e : Registration) : Prop where
  node_eq : e.nodeID = identity.nodeID
  role_eq : e.role = identity.role
  fingerprint_eq : e.certificateFingerprint = identity.certificateFingerprint
  id_eq : e.registrationID = registrationID
  expires_eq : e.expiresAt = now + lease
  not_revoked : e.revokedAt = 0
  no_reason : e.revocationReason = ""
  lease_pos : 0 < lease
  id_ne : registrationID ≠ ""
  node : trimSpace identity.nodeID ≠ ""
  role : trimSpace identity.role ≠ ""
  fingerprint : trimSpace identity.certificateFingerprint ≠ ""
  fresh : s.entries.get? identity.nodeID = none → e.generation = 1
  existing : ∀ x, s.entries.get? identity.nodeID = some x →
    (now < x.expiresAt → x.revokedAt = 0 ∧ x.role = identity.role ∧
      x.certificateFingerprint = identity.certificateFingerprint) ∧
    x.generation ≠ maxGeneration ∧ e.generation = x.generation + 1

theorem register_cases (hs : s.WellFormed) (identity : PeerIdentity) (registrationID : String)
    (lease now : ℤ) :
    (∃ err, s.register identity registrationID lease now = (.error err, s)) ∨
    ∃ e, s.register identity registrationID lease now =
        (.ok e, ⟨s.entries.insert identity.nodeID e⟩) ∧
      s.Registered identity registrationID lease now e := by
  unfold register
  split_ifs with h₁ h₂ h₃
  · exact .inl ⟨_, rfl⟩
  · exact .inl ⟨_, rfl⟩
  · exact .inl ⟨_, rfl⟩
  · rcases hg : s.nextGeneration identity now with err | g
    · exact .inl ⟨_, rfl⟩
    · right
      simp only [not_or] at h₁
      refine ⟨_, rfl, rfl, rfl, rfl, rfl, rfl, rfl, rfl, by omega, h₂, h₁.1, h₁.2.1, h₁.2.2, ?_, ?_⟩
      · intro hn
        rw [nextGeneration, hn] at hg
        cases hg
        rfl
      · intro x hx
        rw [nextGeneration, hx] at hg
        simp only [(hs _ _ hx).normalize] at hg
        split_ifs at hg with g₁ g₂ g₃
        cases hg
        simp only [not_and, not_or, not_not, isZeroTime, Bool.not_eq_true', decide_eq_false_iff_not]
          at g₁ g₂
        exact ⟨fun hl => ⟨g₁ hl, g₂ hl⟩, g₃, rfl⟩

/-! ## Renewal, rotation and revocation -/

theorem refresh_cases (hs : s.WellFormed) (identity : PeerIdentity) (registrationID : String)
    (lease now : ℤ) :
    (∃ err, s.refresh identity registrationID lease now = (.error err, s)) ∨
    ∃ x, s.entries.get? identity.nodeID = some x ∧ x.Admits identity registrationID now ∧
      0 < lease ∧
      s.refresh identity registrationID lease now =
        (.ok { x with expiresAt := now + lease },
          ⟨s.entries.insert identity.nodeID { x with expiresAt := now + lease }⟩) := by
  unfold refresh
  split_ifs with h₁
  · exact .inl ⟨_, rfl⟩
  · rcases hv : s.validate identity registrationID now with err | x
    · exact .inl ⟨_, rfl⟩
    · obtain ⟨hx, ha⟩ := (validate_ok_iff hs identity registrationID now x).1 hv
      exact .inr ⟨x, hx, ha, by omega, rfl⟩

/-- The entry a rotation stores. -/
def rotated (x : Registration) (nextRegistrationID : String) (expiresAt : ℤ) : Registration :=
  { x with
    registrationID := nextRegistrationID
    generation := x.generation + 1
    expiresAt := expiresAt
    revokedAt := 0
    revocationReason := "" }

theorem rotate_cases (hs : s.WellFormed) (identity : PeerIdentity) (current next : String)
    (lease now : ℤ) :
    (∃ err, s.rotate identity current next lease now = (.error err, s)) ∨
    ∃ x, s.entries.get? identity.nodeID = some x ∧ x.Admits identity current now ∧ 0 < lease ∧
      x.generation ≠ maxGeneration ∧ trimSpace next ≠ "" ∧ current ≠ next ∧
      s.rotate identity current next lease now =
        (.ok (rotated x next (now + lease)),
          ⟨s.entries.insert identity.nodeID (rotated x next (now + lease))⟩) := by
  unfold rotate
  split_ifs with h₁ h₂ h₃
  · exact .inl ⟨_, rfl⟩
  · exact .inl ⟨_, rfl⟩
  · exact .inl ⟨_, rfl⟩
  · rcases hv : s.validate identity current now with err | x
    · exact .inl ⟨_, rfl⟩
    · obtain ⟨hx, ha⟩ := (validate_ok_iff hs identity current now x).1 hv
      by_cases hg : x.generation = maxGeneration
      · exact .inl ⟨_, by simp only [if_pos hg]; rfl⟩
      · exact .inr ⟨x, hx, ha, by omega, hg, h₁, h₂, by simp only [if_neg hg, rotated]⟩

theorem revoke_cases (hs : s.WellFormed) (nodeID reason : String) (now : ℤ) :
    (∃ err, s.revoke nodeID reason now = (.error err, s)) ∨
    (∃ x err, s.entries.get? (trimSpace nodeID) = some x ∧ x.expiresAt ≤ now ∧
      s.revoke nodeID reason now = (.error err, ⟨s.entries.erase (trimSpace nodeID)⟩)) ∨
    (∃ x, s.entries.get? (trimSpace nodeID) = some x ∧ now < x.expiresAt ∧ x.revokedAt ≠ 0 ∧
      s.revoke nodeID reason now = (.ok x, s)) ∨
    ∃ x, s.entries.get? (trimSpace nodeID) = some x ∧ now < x.expiresAt ∧ x.revokedAt = 0 ∧
      trimSpace reason ≠ "" ∧ (trimSpace reason).utf8ByteSize ≤
      maxRegistrationRevocationReasonBytes ∧
      s.revoke nodeID reason now =
        (.ok { x with revokedAt := now, revocationReason := trimSpace reason },
          ⟨s.entries.insert (trimSpace nodeID)
            { x with revokedAt := now, revocationReason := trimSpace reason }⟩) := by
  unfold revoke
  dsimp only
  split_ifs with h₁ h₂ h₃
  · exact .inl ⟨_, rfl⟩
  · exact .inl ⟨_, rfl⟩
  · exact .inl ⟨_, rfl⟩
  · rcases hx : s.entries.get? (trimSpace nodeID) with _ | x
    · exact .inl ⟨_, rfl⟩
    · right
      simp only [(hs _ _ hx).normalize]
      split_ifs with h₄ h₅
      · exact .inr (.inl ⟨x, rfl, h₄, by simpa [isZeroTime] using h₅, rfl⟩)
      · exact .inr (.inr ⟨x, rfl, h₄, by simpa [isZeroTime] using h₅, h₂, by omega, rfl⟩)
      · exact .inl ⟨x, _, rfl, by omega, rfl⟩

/-! ## Well-formedness is kept -/

theorem Registered.wellFormed {identity : PeerIdentity} {registrationID : String} {lease now : ℤ}
    (hnow : 0 < now) (h : s.Registered identity registrationID lease now e) :
    e.WellFormed identity.nodeID where
  node_eq := h.node_eq
  node := h.node_eq ▸ h.node
  role := h.role_eq ▸ h.role
  fingerprint := h.fingerprint_eq ▸ h.fingerprint
  generation := by
    rcases hg : s.entries.get? identity.nodeID with _ | x
    · rw [h.fresh hg]
      decide
    · obtain ⟨-, hm, he⟩ := h.existing x hg
      rw [he]
      exact add_one_ne_zero_of_ne_max hm
  expires := by
    have := h.lease_pos
    rw [h.expires_eq]
    omega
  reason_size := by
    rw [h.no_reason]
    decide
  no_reason _ := h.no_reason
  reason hr := absurd h.not_revoked hr
  revoked_le hr := absurd h.not_revoked hr

theorem wellFormed_register (hs : s.WellFormed) (identity : PeerIdentity) (registrationID : String)
    (lease : ℤ) {now : ℤ} (hnow : 0 < now) :
    (s.register identity registrationID lease now).2.WellFormed := by
  rcases register_cases hs identity registrationID lease now with ⟨err, h⟩ | ⟨e, h, he⟩
  · rw [h]
    exact hs
  · rw [h]
    exact hs.insert (he.wellFormed hnow)

theorem wellFormed_refresh (hs : s.WellFormed) (identity : PeerIdentity) (registrationID : String)
    (lease : ℤ) {now : ℤ} (hnow : 0 < now) :
    (s.refresh identity registrationID lease now).2.WellFormed := by
  rcases refresh_cases hs identity registrationID lease now with ⟨err, h⟩ | ⟨x, hx, ha, hl, h⟩
  · rw [h]
    exact hs
  · rw [h]
    have hw := hs _ _ hx
    exact hs.insert
      { hw with
        expires := by dsimp only; omega
        revoked_le := fun hr => absurd ha.not_revoked hr }

theorem wellFormed_rotate (hs : s.WellFormed) (identity : PeerIdentity) (current next : String)
    (lease : ℤ) {now : ℤ} (hnow : 0 < now) :
    (s.rotate identity current next lease now).2.WellFormed := by
  rcases rotate_cases hs identity current next lease now with ⟨err, h⟩ | ⟨x, hx, -, hl, hg, -, -, h⟩
  · rw [h]
    exact hs
  · rw [h]
    have hw := hs _ _ hx
    exact hs.insert
      { node_eq := hw.node_eq
        node := hw.node
        role := hw.role
        fingerprint := hw.fingerprint
        generation := add_one_ne_zero_of_ne_max hg
        expires := by dsimp only [rotated]; omega
        reason_size := (by decide : "".utf8ByteSize ≤ maxRegistrationRevocationReasonBytes)
        no_reason := fun _ => rfl
        reason := fun hr => absurd rfl hr
        revoked_le := fun hr => absurd rfl hr }

theorem wellFormed_revoke (hs : s.WellFormed) (nodeID reason : String) {now : ℤ} (hnow : 0 < now) :
    (s.revoke nodeID reason now).2.WellFormed := by
  rcases revoke_cases hs nodeID reason now with
    ⟨err, h⟩ | ⟨x, err, -, -, h⟩ | ⟨x, -, -, -, h⟩ | ⟨x, hx, hl, -, hr, hrs, h⟩
  · rw [h]
    exact hs
  · rw [h]
    exact hs.filter _
  · rw [h]
    exact hs
  · rw [h]
    have hw := hs _ _ hx
    exact hs.insert
      { hw with
        reason_size := hrs
        no_reason := fun h0 => absurd h0 (ne_of_gt hnow)
        reason := fun _ => by rwa [trimSpace_trimSpace]
        revoked_le := fun _ => le_of_lt hl }

/-! ## Snapshot and restore -/

/-- The store without the registrations that have expired. -/
def unexpired (s : RegistrationStore) (now : ℤ) : RegistrationStore :=
  ⟨s.entries.filter fun _ entry => now < entry.expiresAt⟩

theorem get?_unexpired (s : RegistrationStore) (now : ℤ) (n : String) (e : Registration) :
    (s.unexpired now).entries.get? n = some e ↔ s.entries.get? n = some e ∧ now < e.expiresAt := by
  rw [unexpired, OrdMap.get?_filter, Option.filter_eq_some_iff, decide_eq_true_eq]

theorem WellFormed.unexpired (hs : s.WellFormed) (now : ℤ) :
    (s.unexpired now).WellFormed := hs.filter _

theorem unexpired_unexpired (s : RegistrationStore) {now later : ℤ} (h : now ≤ later) :
    (s.unexpired now).unexpired later = s.unexpired later := by
  refine congrArg RegistrationStore.mk
    (OrdMap.filter_filter s.entries _ (fun _ e => decide (now < e.expiresAt)) fun n e he => ?_)
  simp only [decide_eq_true_eq] at he ⊢
  omega

theorem WellFormed.keyed (hs : s.WellFormed) :
    s.entries.Keyed Registration.nodeID := fun n e he => (hs n e he).node_eq

theorem snapshot_eq (hs : s.WellFormed) (now : ℤ) :
    s.snapshot now = (s.unexpired now).entries.values := by
  have hmap : s.entries.values.map normalizeLegacyRegistration = s.entries.values := by
    conv_rhs => rw [← List.map_id s.entries.values]
    refine List.map_congr_left fun e he => ?_
    obtain ⟨n, hn⟩ := s.entries.mem_values_iff.1 he
    exact (hs _ _ hn).normalize
  rw [snapshot, hmap, ← OrdMap.values_filter]
  exact (hs.unexpired now).keyed.insertionSort_values

/-- What a restore that succeeds has stored. -/
theorem restoreEntries_ok {now : ℤ} {l : List Registration} {m m' : OrdMap String Registration}
    (hgen : ∀ e ∈ l, e.generation ≠ 0) (h : l.foldlM (restoreEntry now) m = .ok m') :
    m' = (l.filter fun e => now < e.expiresAt).foldl (fun m e => m.insert e.nodeID e) m := by
  induction l generalizing m with
  | nil =>
    cases h
    rfl
  | cons e l ih =>
    have hnorm : normalizeLegacyRegistration e = e := by
      simp [normalizeLegacyRegistration, hgen e (by simp)]
    rw [List.foldlM_cons] at h
    simp only [restoreEntry, hnorm] at h
    rcases hc : checkSnapshotEntry e with err | ⟨⟨⟩⟩
    · rw [hc] at h
      cases h
    · rw [hc] at h
      dsimp only at h
      have ih' := fun {m} => ih (m := m) fun x hx => hgen x (List.mem_cons_of_mem _ hx)
      split_ifs at h with h₁ h₂
      · cases h
      · rw [ih' h, List.filter_cons_of_pos (by simpa using h₂), List.foldl_cons]
      · rw [ih' h, List.filter_cons_of_neg (by simpa using h₂)]

/-- A list of distinct nodes whose entries pass the checks is restored. -/
theorem restoreEntries_succeeds (now : ℤ) {l : List Registration} {m : OrdMap String Registration}
    (hcheck : ∀ e ∈ l, checkSnapshotEntry e = .ok ()) (hgen : ∀ e ∈ l, e.generation ≠ 0)
    (hnodup : (l.map Registration.nodeID).Nodup) (hfresh : ∀ e ∈ l, m.get? e.nodeID = none) :
    ∃ m', l.foldlM (restoreEntry now) m = .ok m' := by
  induction l generalizing m with
  | nil => exact ⟨m, rfl⟩
  | cons e l ih =>
    have hnorm : normalizeLegacyRegistration e = e := by
      simp [normalizeLegacyRegistration, hgen e (by simp)]
    rw [List.map_cons, List.nodup_cons] at hnodup
    have ih' := fun {m} => ih (m := m) (fun x hx => hcheck x (List.mem_cons_of_mem _ hx))
      (fun x hx => hgen x (List.mem_cons_of_mem _ hx)) hnodup.2
    rw [List.foldlM_cons]
    simp only [restoreEntry, hnorm, hcheck e (by simp), hfresh e (by simp), Option.isSome_none,
      Bool.false_eq_true, if_false]
    split_ifs with h
    · refine ih' fun x hx => ?_
      have hne : x.nodeID ≠ e.nodeID := fun heq => hnodup.1 (List.mem_map.2 ⟨x, hx, heq⟩)
      rw [OrdMap.get?_insert_of_ne _ _ hne]
      exact hfresh x (List.mem_cons_of_mem _ hx)
    · exact ih' fun x hx => hfresh x (List.mem_cons_of_mem _ hx)

theorem checkSnapshotEntry_ok {n : String} (h : e.WellFormed n)
    (hid : trimSpace e.registrationID ≠ "") : checkSnapshotEntry e = .ok () := by
  have hr : e.revokedAt ≠ 0 → ¬ e.expiresAt < e.revokedAt := fun hr => not_lt.2 (h.revoked_le hr)
  have he := h.expires
  simp only [checkSnapshotEntry, h.node, h.role, h.fingerprint, hid, or_self, if_false, isZeroTime,
    ne_of_gt he, h.generation, not_lt.2 h.reason_size, Bool.not_eq_true', decide_eq_true_eq,
    decide_eq_false_iff_not, decide_false, Bool.false_eq_true]
  rw [if_neg fun hc => hc.2 (h.no_reason hc.1), if_neg fun hc => h.reason hc.1 hc.2,
    if_neg fun hc => hr hc.1 hc.2]

/-- Restoring the registrations of a well-formed store keeps those that have not expired. -/
theorem foldl_insert_values (hs : s.WellFormed) (now : ℤ) :
    (s.entries.values.filter fun e => now < e.expiresAt).foldl (fun m e => m.insert e.nodeID e) ∅ =
      (s.unexpired now).entries := by
  rw [← OrdMap.values_filter]
  exact (hs.unexpired now).keyed.foldl_insert_values

/-- Restoring a store's own snapshot later either changes nothing or drops what has expired. -/
theorem restoreSnapshot_snapshot_cases (hs : s.WellFormed) {now later : ℤ} (hle : now ≤ later) :
    (∃ err, s.restoreSnapshot (s.snapshot now) later = (.error err, s)) ∨
      s.restoreSnapshot (s.snapshot now) later = (.ok (), s.unexpired later) := by
  unfold restoreSnapshot
  rcases h : (s.snapshot now).foldlM (restoreEntry later) ∅ with err | m
  · exact .inl ⟨err, rfl⟩
  · right
    rw [snapshot_eq hs] at h
    have hgen : ∀ e ∈ (s.unexpired now).entries.values, e.generation ≠ 0 := fun e he => by
      obtain ⟨n, hn⟩ := OrdMap.mem_values_iff _ |>.1 he
      exact (hs.unexpired now n e hn).generation
    rw [restoreEntries_ok hgen h, foldl_insert_values (hs.unexpired now),
      unexpired_unexpired s hle]

end RegistrationStore

end ZeroTrustFL
