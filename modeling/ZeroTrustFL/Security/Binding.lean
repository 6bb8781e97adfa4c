import Mathlib.Tactic
import ZeroTrustFL.Security.StoreRun

/-!
# Bindings and tombstones

While the entry of a node has not expired no operation, by whomever, changes the role and the
certificate it is bound to, and a revoked entry does not change at all.
-/

namespace ZeroTrustFL

open RegistrationStore StoreCall

/-- What an unexpired entry keeps on its way from `x` to `y`. -/
structure Registration.Keeps (x y : Registration) : Prop where
  role : y.role = x.role
  fingerprint : y.certificateFingerprint = x.certificateFingerprint
  generation_le : x.generation ≤ y.generation
  generation_lt : y.registrationID ≠ x.registrationID → x.generation < y.generation
  tombstone : x.revokedAt ≠ 0 → y = x

theorem Registration.Keeps.refl (x : Registration) : x.Keeps x :=
  ⟨rfl, rfl, UInt64.le_refl _, fun h => absurd rfl h, fun _ => rfl⟩

variable {x : Registration} {n : String} {s : RegistrationStore}

theorem Registration.Keeps.trans {y z : Registration} (h₁ : x.Keeps y) (h₂ : y.Keeps z) :
    x.Keeps z where
  role := h₂.role.trans h₁.role
  fingerprint := h₂.fingerprint.trans h₁.fingerprint
  generation_le := UInt64.le_trans h₁.generation_le h₂.generation_le
  generation_lt hid := by
    by_cases hxy : y.registrationID = x.registrationID
    · exact UInt64.lt_of_le_of_lt h₁.generation_le (h₂.generation_lt (hxy ▸ hid))
    · exact UInt64.lt_of_lt_of_le (h₁.generation_lt hxy) h₂.generation_le
  tombstone hr := by
    obtain rfl := h₁.tombstone hr
    exact h₂.tombstone hr

theorem lt_add_one_of_ne_max {g : UInt64} (hg : g ≠ maxGeneration) : g < g + 1 := by
  have h0 : g + 1 ≠ 0 := add_one_ne_zero_of_ne_max hg
  rw [UInt64.lt_iff_toNat_lt, UInt64.toNat_add]
  have hlt := g.toNat_lt
  have hne : (g + 1).toNat ≠ 0 := fun h => h0 (UInt64.toNat_inj.1 (by simpa using h))
  rw [UInt64.toNat_add] at hne
  simp only [UInt64.reduceToNat, Nat.reducePow] at *
  omega

/-! ## One call -/

/-- The last clock reading of a call. -/
def StoreCall.lastRead (c : StoreCall) : ℤ :=
  match c.op with
  | .recycle => c.clock.read 1
  | _ => c.clock.read 0

/-- Whether an operation presents an identity of the node `n`. -/
def StoreOp.presents (op : StoreOp) (n : String) : Bool :=
  match op with
  | .register identity _ _ => identity.nodeID = n
  | .refresh identity _ _ => identity.nodeID = n
  | .rotate identity _ _ _ => identity.nodeID = n
  | .validate identity _ => identity.nodeID = n
  | .isRegistered identity => identity.nodeID = n
  | .revoke _ _ => false
  | .recycle => false

/-- Storing `y` for a node keeps the entry of `n` when it does so for the node itself. -/
theorem exists_keeps_insert {m : OrdMap String Registration} {k : String} {y : Registration}
    (hx : m.get? n = some x) (hy : m.get? k = some x → x.Keeps y) :
    ∃ z, (m.insert k y).get? n = some z ∧ x.Keeps z := by
  by_cases hk : n = k
  · subst hk
    exact ⟨y, by simp, hy hx⟩
  · exact ⟨x, by rw [OrdMap.get?_insert_of_ne _ _ hk, hx], .refl x⟩

/-- No call changes the binding or the tombstone of an entry that has not expired. -/
theorem exists_keeps_run (hs : s.WellFormed) {c : StoreCall} (hx : s.entries.get? n = some x)
    (hlive : c.lastRead < x.expiresAt) : ∃ y, (run s c).2.entries.get? n = some y ∧ x.Keeps y := by
  have hsame : ∃ y, s.entries.get? n = some y ∧ x.Keeps y := ⟨x, hx, .refl x⟩
  rcases hop : c.op with ⟨i, id, l⟩ | ⟨i, id, l⟩ | ⟨i, id, id', l⟩ | ⟨m, r⟩ | ⟨i, id⟩ | i | _ <;>
    simp only [lastRead, hop] at hlive <;> simp only [run, hop]
  · rcases register_cases hs i id l (c.clock.read 0) with ⟨err, h⟩ | ⟨e, h, he⟩
    · simpa only [h] using hsame
    · simp only [h]
      refine exists_keeps_insert hx fun hxi => ?_
      obtain ⟨hbound, hmax, hgen⟩ := he.existing x hxi
      obtain ⟨hrev, hrole, hfp⟩ := hbound hlive
      have hlt := lt_add_one_of_ne_max hmax
      exact ⟨he.role_eq.trans hrole.symm, he.fingerprint_eq.trans hfp.symm,
        hgen ▸ UInt64.le_of_lt hlt, fun _ => hgen ▸ hlt, fun h => absurd hrev h⟩
  · rcases refresh_cases hs i id l (c.clock.read 0) with ⟨err, h⟩ | ⟨e, he, ha, -, h⟩
    · simpa only [h] using hsame
    · simp only [h]
      refine exists_keeps_insert hx fun hxi => ?_
      obtain rfl : e = x := Option.some.inj (he.symm.trans hxi)
      exact ⟨rfl, rfl, UInt64.le_refl _, fun h => absurd rfl h, fun h => absurd ha.not_revoked h⟩
  · rcases rotate_cases hs i id id' l (c.clock.read 0) with ⟨err, h⟩ | ⟨e, he, ha, -, hmax, -, -, h⟩
    · simpa only [h] using hsame
    · simp only [h]
      refine exists_keeps_insert hx fun hxi => ?_
      obtain rfl : e = x := Option.some.inj (he.symm.trans hxi)
      have hlt := lt_add_one_of_ne_max hmax
      exact ⟨rfl, rfl, UInt64.le_of_lt hlt, fun _ => hlt, fun h => absurd ha.not_revoked h⟩
  · rcases revoke_cases hs m r (c.clock.read 0) with
      ⟨err, h⟩ | ⟨e, err, he, hexp, h⟩ | ⟨e, -, -, -, h⟩ | ⟨e, he, -, hrev, -, -, h⟩
    · simpa only [h] using hsame
    · -- The target that is dropped had expired, so it is another node.
      have hne : n ≠ trimSpace m := by
        rintro rfl
        obtain rfl : e = x := Option.some.inj (he.symm.trans hx)
        omega
      simpa only [h, OrdMap.get?_erase_of_ne _ hne] using hsame
    · simpa only [h] using hsame
    · simp only [h]
      refine exists_keeps_insert hx fun hxi => ?_
      obtain rfl : e = x := Option.some.inj (he.symm.trans hxi)
      exact ⟨rfl, rfl, UInt64.le_refl _, fun h => absurd rfl h, fun h => absurd hrev h⟩
  · exact hsame
  · exact hsame
  · rcases restoreSnapshot_snapshot_cases hs (c.clock.read_le_read zero_le_one) with ⟨err, h⟩ | h
    · simpa only [h] using hsame
    · exact ⟨x, by rw [h, get?_unexpired]; exact ⟨hx, hlive⟩, .refl x⟩

/-- A call that presents an identity of a revoked node fails. -/
theorem run_eq_false_of_revoked (hs : s.WellFormed) {c : StoreCall} (hx : s.entries.get? n = some x)
    (hlive : c.lastRead < x.expiresAt) (hrev : x.revokedAt ≠ 0) (hc : c.op.presents n = true) :
    (run s c).1 = false := by
  rcases hop : c.op with ⟨i, id, l⟩ | ⟨i, id, l⟩ | ⟨i, id, id', l⟩ | ⟨m, r⟩ | ⟨i, id⟩ | i | _ <;>
    simp only [StoreOp.presents, hop, decide_eq_true_eq, Bool.false_eq_true] at hc <;>
    simp only [lastRead, hop] at hlive <;> simp only [run, hop] <;> subst hc
  · rcases register_cases hs i id l (c.clock.read 0) with ⟨err, h⟩ | ⟨e, -, he⟩
    · rw [h]
      rfl
    · exact absurd ((he.existing x hx).1 hlive).1 hrev
  · rcases refresh_cases hs i id l (c.clock.read 0) with ⟨err, h⟩ | ⟨e, he, ha, -⟩
    · rw [h]
      rfl
    · obtain rfl : e = x := Option.some.inj (he.symm.trans hx)
      exact absurd ha.not_revoked hrev
  · rcases rotate_cases hs i id id' l (c.clock.read 0) with ⟨err, h⟩ | ⟨e, he, ha, -⟩
    · rw [h]
      rfl
    · obtain rfl : e = x := Option.some.inj (he.symm.trans hx)
      exact absurd ha.not_revoked hrev
  · rcases hv : s.validate i id (c.clock.read 0) with err | e
    · rfl
    · obtain ⟨he, ha⟩ := (validate_ok_iff hs _ _ _ _).1 hv
      obtain rfl : e = x := Option.some.inj (he.symm.trans hx)
      exact absurd ha.not_revoked hrev
  · rw [Bool.eq_false_iff, Ne, isRegistered_iff hs]
    rintro ⟨e, he, ha⟩
    obtain rfl : e = x := Option.some.inj (he.symm.trans hx)
    exact hrev ha.not_revoked

/-! ## Runs -/

/-- The entry of the node has not expired at any of the calls. -/
def LiveAlong (n : String) : RegistrationStore → List StoreCall → Prop
  | _, [] => True
  | s, c :: calls =>
    (∀ x, s.entries.get? n = some x → c.lastRead < x.expiresAt) ∧ LiveAlong n (run s c).2 calls

theorem exists_keeps_final (hs : s.WellFormed) {calls : List StoreCall}
    (hx : s.entries.get? n = some x) (hlive : LiveAlong n s calls) :
    ∃ y, (final run s calls).entries.get? n = some y ∧ x.Keeps y := by
  induction calls generalizing s x with
  | nil => exact ⟨x, hx, .refl x⟩
  | cons c calls ih =>
    obtain ⟨y, hy, hxy⟩ := exists_keeps_run hs hx (hlive.1 x hx)
    obtain ⟨z, hz, hyz⟩ := ih (wellFormed_run hs c) hy hlive.2
    exact ⟨z, hz, hxy.trans hyz⟩

/-- A revoked entry stays as it is until it expires. -/
theorem get?_final_of_revoked (hs : s.WellFormed) {calls : List StoreCall}
    (hx : s.entries.get? n = some x) (hrev : x.revokedAt ≠ 0)
    (hlive : ∀ c ∈ calls, c.lastRead < x.expiresAt) :
    (final run s calls).entries.get? n = some x := by
  induction calls generalizing s with
  | nil => exact hx
  | cons c calls ih =>
    obtain ⟨y, hy, hxy⟩ := exists_keeps_run hs hx (hlive c (by simp))
    obtain rfl := hxy.tombstone hrev
    exact ih (wellFormed_run hs c) hy fun d hd => hlive d (List.mem_cons_of_mem _ hd)

/-- From any reachable store: an entry keeps its binding through any calls before it expires, and
when it is revoked it stays as it is and every call that presents its node fails. -/
theorem binding_and_tombstone_kept (calls later : List StoreCall) (n : String) (e : Registration)
    (he : (final run newRegistrationStore calls).entries.get? n = some e) :
    (LiveAlong n (final run newRegistrationStore calls) later →
      ∃ y, (final run newRegistrationStore (calls ++ later)).entries.get? n = some y ∧ e.Keeps y) ∧
    (e.revokedAt ≠ 0 → (∀ c ∈ later, c.lastRead < e.expiresAt) →
      (final run newRegistrationStore (calls ++ later)).entries.get? n = some e ∧
      ∀ before c after, later = before ++ c :: after → c.op.presents n = true →
        (run (final run newRegistrationStore (calls ++ before)) c).1 = false) := by
  have hs := wellFormed_final calls
  simp only [final_append]
  refine ⟨exists_keeps_final hs he, fun hrev hlive => ⟨get?_final_of_revoked hs he hrev hlive, ?_⟩⟩
  rintro before c after rfl hc
  have hlive' : ∀ d ∈ before, d.lastRead < e.expiresAt := fun d hd => hlive d (by simp [hd])
  have hbefore := get?_final_of_revoked hs he hrev hlive'
  refine run_eq_false_of_revoked ?_ hbefore (hlive c (by simp)) hrev hc
  rw [← final_append]
  exact wellFormed_final _

/-- A worker that is registered and revoked, and what it tries afterwards. -/
def revokedWorker : PeerIdentity := ⟨"worker-1", "worker-1", "worker", "ab12"⟩

def revokingRun : List StoreCall :=
  [⟨.register revokedWorker "first" 100, .tick 9⟩,
    ⟨.revoke "worker-1" "compromised", .tick 19⟩]

def revokedAttempts : List StoreCall :=
  [⟨.recycle, .tick 29⟩, ⟨.register revokedWorker "second" 500, .tick 39⟩]

def revokedEntry : Registration :=
  ⟨"worker-1", "worker", "ab12", "first", 110, 1, 20, "compromised"⟩

theorem revokedEntry_kept :
    (final run newRegistrationStore revokingRun).entries.get? "worker-1" = some revokedEntry ∧
      (final run newRegistrationStore (revokingRun ++ revokedAttempts)).entries.get? "worker-1" =
        some revokedEntry :=
  ⟨by decide, ((binding_and_tombstone_kept revokingRun revokedAttempts "worker-1" revokedEntry
    (by decide)).2 (by decide) (by decide)).1⟩

end ZeroTrustFL
