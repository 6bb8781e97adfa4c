import Mathlib
import ZeroTrustFL.Security.RegistrationProof

/-!
# Stores that differ in expired registrations

A store that has been restarted holds the same registrations as one that has not, apart from those
that had expired; the node of such a registration counts its credential generations anew.  The
operations of two such stores give the same answers, up to the generation, as long as no generation
is exhausted.
-/

namespace ZeroTrustFL

/-- A generation from which `b` more can be counted. -/
structure Spare (b : ℕ) (g : UInt64) : Prop where
  ne_zero : g ≠ 0
  left : g.toNat + b < 2 ^ 64

theorem Spare.mono {b b' : ℕ} {g : UInt64} (h : Spare b g) (hb : b' ≤ b) : Spare b' g :=
  ⟨h.ne_zero, lt_of_le_of_lt (Nat.add_le_add_left hb _) h.left⟩

theorem Spare.ne_max {b : ℕ} {g : UInt64} (h : Spare (b + 1) g) : g ≠ maxGeneration := by
  rintro rfl
  have hleft := h.left
  have hmax : maxGeneration.toNat = 2 ^ 64 - 1 := by decide
  omega

theorem Spare.succ {b : ℕ} {g : UInt64} (h : Spare (b + 1) g) : Spare b (g + 1) := by
  have hleft := h.left
  refine ⟨add_one_ne_zero_of_ne_max h.ne_max, ?_⟩
  rw [UInt64.toNat_add, UInt64.toNat_one]
  omega

theorem Spare.one {b : ℕ} {g : UInt64} (h : Spare (b + 1) g) : Spare b 1 := by
  have hleft := h.left
  refine ⟨by decide, ?_⟩
  rw [UInt64.toNat_one]
  omega

/-- The registrations are the same, or `renewed` holds and they differ in their generations only,
from which `b` more can be counted. -/
inductive Registration.Matches (renewed : Prop) (b : ℕ) (x : Registration) :
    Registration → Prop where
  | same : Matches renewed b x x
  | renewed {g : UInt64} (hrenewed : renewed) (spare : Spare b x.generation) (spare' : Spare b g) :
      Matches renewed b x { x with generation := g }

namespace Registration.Matches

variable {renewed : Prop} {b : ℕ} {x y : Registration} (h : x.Matches renewed b y)
include h

theorem mono {b' : ℕ} (hb : b' ≤ b) : x.Matches renewed b' y := by
  cases h with
  | same => exact .same
  | renewed hrenewed spare spare' => exact .renewed hrenewed (spare.mono hb) (spare'.mono hb)

/-- A change to other fields than the generation. -/
theorem update {f : Registration → Registration}
    (hf : ∀ x g, f { x with generation := g } = { f x with generation := g }) :
    (f x).Matches renewed b (f y) := by
  cases h with
  | same => exact .same
  | @renewed g hrenewed spare spare' =>
    have hself : f x = { f x with generation := x.generation } := hf x x.generation
    have hgen : (f x).generation = x.generation := by
      have heq := congrArg Registration.generation hself
      exact heq
    have hrenew := hf x g
    rw [hrenew]
    exact .renewed hrenewed (hgen.symm ▸ spare) spare'

theorem expiresAt_eq : y.expiresAt = x.expiresAt := by cases h <;> rfl

theorem revokedAt_eq : y.revokedAt = x.revokedAt := by cases h <;> rfl

theorem admits_iff (identity : PeerIdentity) (registrationID : String) (now : ℤ) :
    y.Admits identity registrationID now ↔ x.Admits identity registrationID now := by
  cases h with
  | same => rfl
  | renewed => exact ⟨fun ⟨h₁, h₂, h₃, h₄, h₅⟩ => ⟨h₁, h₂, h₃, h₄, h₅⟩,
      fun ⟨h₁, h₂, h₃, h₄, h₅⟩ => ⟨h₁, h₂, h₃, h₄, h₅⟩⟩

end Registration.Matches

/-- What a store holds of a node and what the restarted store holds of it, from the time `t` of the
restart on and with `b` calls to come; `dropped` says that the restart has dropped the node. -/
inductive EntriesMatch (dropped : Prop) (t : ℤ) (b : ℕ) :
    Option Registration → Option Registration → Prop where
  | none : EntriesMatch dropped t b none none
  | some {x y : Registration} (entries : x.Matches dropped b y) :
      EntriesMatch dropped t b (some x) (some y)
  | expired {x : Registration} (hdropped : dropped) (expired : x.expiresAt ≤ t)
      (spare : Spare b x.generation) : EntriesMatch dropped t b (some x) none

theorem EntriesMatch.mono {dropped : Prop} {t : ℤ} {b b' : ℕ} {x y : Option Registration}
    (h : EntriesMatch dropped t b x y) (hb : b' ≤ b) : EntriesMatch dropped t b' x y := by
  cases h with
  | none => exact .none
  | some entries => exact .some (entries.mono hb)
  | expired hdropped expired spare => exact .expired hdropped expired (spare.mono hb)

namespace RegistrationStore

/-- A store and the restarted one. -/
def Resembles (dropped : String → Prop) (t : ℤ) (b : ℕ) (s r : RegistrationStore) : Prop :=
  ∀ n, EntriesMatch (dropped n) t b (s.entries.get? n) (r.entries.get? n)

section

variable {dropped : String → Prop} {t : ℤ} {b : ℕ} {s r : RegistrationStore}

theorem Resembles.mono {b' : ℕ} (h : s.Resembles dropped t b r) (hb : b' ≤ b) :
    s.Resembles dropped t b' r :=
  fun n => (h n).mono hb

theorem Resembles.insert (h : s.Resembles dropped t b r) {n : String} {x y : Registration}
    (hentry : x.Matches (dropped n) b y) :
    Resembles dropped t b ⟨s.entries.insert n x⟩ ⟨r.entries.insert n y⟩ := by
  intro m
  simp only [OrdMap.get?_insert]
  split_ifs with hm
  · subst hm
    exact .some hentry
  · exact h m

theorem Resembles.erase (h : s.Resembles dropped t b r) (n : String) :
    Resembles dropped t b ⟨s.entries.erase n⟩ ⟨r.entries.erase n⟩ := by
  intro m
  simp only [OrdMap.get?_erase]
  split_ifs
  · exact .none
  · exact h m

/-- Both stores drop what has expired. -/
theorem Resembles.unexpired (h : s.Resembles dropped t b r) (now : ℤ) :
    (s.unexpired now).Resembles dropped t b (r.unexpired now) := by
  intro n
  have hn := h n
  simp only [RegistrationStore.unexpired, OrdMap.get?_filter]
  generalize s.entries.get? n = x at hn
  generalize r.entries.get? n = y at hn
  cases hn with
  | none => exact .none
  | some entries =>
    rw [Option.filter_some, Option.filter_some, entries.expiresAt_eq]
    split_ifs
    · exact .some entries
    · exact .none
  | expired hdropped expired spare =>
    rw [Option.filter_some, Option.filter_none]
    split_ifs
    · exact .expired hdropped expired spare
    · exact .none

/-- A restart drops what has expired at `now`. -/
theorem resembles_unexpired (hs : s.WellFormed) {now : ℤ}
    (hspare : ∀ n e, s.entries.get? n = some e → e.expiresAt ≤ now →
      e.generation.toNat + b < 2 ^ 64) :
    s.Resembles (fun n => ∃ e, s.entries.get? n = some e ∧ e.expiresAt ≤ now) now b
      (s.unexpired now) := by
  intro n
  simp only [RegistrationStore.unexpired, OrdMap.get?_filter]
  rcases hn : s.entries.get? n with _ | x
  · exact .none
  · rw [Option.filter_some]
    split_ifs with hlive
    · exact .some .same
    · have hexp : x.expiresAt ≤ now := by simpa using hlive
      exact .expired ⟨x, rfl, hexp⟩ hexp ⟨(hs n x hn).generation, hspare n x hn hexp⟩

/-- The answers of an operation of the two stores: both refuse, or both give the same registration
of the node up to its generation. -/
inductive AnswersMatch (dropped : String → Prop) (t : ℤ) (b : ℕ) (n : String) :
    Except String Registration × RegistrationStore → Except String Registration ×
      RegistrationStore → Prop where
  | error {e e' : String} {s r : RegistrationStore} (stores : s.Resembles dropped t b r) :
      AnswersMatch dropped t b n (.error e, s) (.error e', r)
  | ok {x y : Registration} {s r : RegistrationStore} (entries : x.Matches (dropped n) b y)
      (stores : s.Resembles dropped t b r) : AnswersMatch dropped t b n (.ok x, s) (.ok y, r)

variable (hs : s.WellFormed) (hr : r.WellFormed)
include hs hr

/-- A credential is valid in both stores or in neither. -/
theorem validate_resembles (h : s.Resembles dropped t b r) (identity : PeerIdentity)
    (registrationID : String) {now : ℤ} (ht : t ≤ now) :
    (∃ e e', s.validate identity registrationID now = .error e ∧
      r.validate identity registrationID now = .error e') ∨
    ∃ x y, s.validate identity registrationID now = .ok x ∧
      r.validate identity registrationID now = .ok y ∧
      x.Matches (dropped identity.nodeID) b y ∧ x.Admits identity registrationID now := by
  have hvalid := validate_ok_iff hs identity registrationID now
  have hvalid' := validate_ok_iff hr identity registrationID now
  have hnode := h identity.nodeID
  generalize s.validate identity registrationID now = result at hvalid ⊢
  generalize r.validate identity registrationID now = result' at hvalid' ⊢
  generalize s.entries.get? identity.nodeID = x at hnode hvalid
  generalize r.entries.get? identity.nodeID = y at hnode hvalid'
  cases hnode with
  | none =>
    rcases result with e | x
    · rcases result' with e' | y
      · exact .inl ⟨e, e', rfl, rfl⟩
      · cases ((hvalid' y).1 rfl).1
    · cases ((hvalid x).1 rfl).1
  | @some x y entries =>
    by_cases hadmits : x.Admits identity registrationID now
    · have hx := (hvalid x).2 ⟨rfl, hadmits⟩
      have hy := (hvalid' y).2 ⟨rfl, (entries.admits_iff _ _ _).2 hadmits⟩
      exact .inr ⟨x, y, hx, hy, entries, hadmits⟩
    · rcases result with e | x'
      · rcases result' with e' | y'
        · exact .inl ⟨e, e', rfl, rfl⟩
        · obtain ⟨hy, hadmits'⟩ := (hvalid' y').1 rfl
          cases hy
          exact absurd ((entries.admits_iff _ _ _).1 hadmits') hadmits
      · obtain ⟨hx, hadmits'⟩ := (hvalid x').1 rfl
        cases hx
        exact absurd hadmits' hadmits
  | @expired x hdropped expired spare =>
    rcases result with e | x'
    · rcases result' with e' | y'
      · exact .inl ⟨e, e', rfl, rfl⟩
      · cases ((hvalid' y').1 rfl).1
    · obtain ⟨hx, hadmits⟩ := (hvalid x').1 rfl
      cases hx
      have hlive := hadmits.live
      omega

/-- A new registration is refused by both stores or by neither. -/
theorem nextGeneration_resembles (h : s.Resembles dropped t (b + 1) r) (identity : PeerIdentity)
    {now : ℤ} (ht : t ≤ now) :
    (∃ e e', s.nextGeneration identity now = .error e ∧ r.nextGeneration identity now = .error e') ∨
    ∃ g g', s.nextGeneration identity now = .ok g ∧ r.nextGeneration identity now = .ok g' ∧
      (g' = g ∨ dropped identity.nodeID ∧ Spare b g ∧ Spare b g') := by
  have hnode := h identity.nodeID
  unfold nextGeneration
  rcases hx : s.entries.get? identity.nodeID with _ | x <;>
    rcases hy : r.entries.get? identity.nodeID with _ | y <;> rw [hx, hy] at hnode <;> cases hnode
  · exact .inr ⟨1, 1, rfl, rfl, .inl rfl⟩
  · rename_i hdropped expired spare
    have hlive : ¬ now < x.expiresAt := by omega
    simp only [(hs _ _ hx).normalize, hlive, false_and, if_false, if_neg spare.ne_max]
    exact .inr ⟨_, _, rfl, rfl, .inr ⟨hdropped, spare.succ, spare.one⟩⟩
  · rename_i entries
    simp only [(hs _ _ hx).normalize, (hr _ _ hy).normalize]
    cases entries with
    | same =>
      split_ifs
      · exact .inl ⟨_, _, rfl, rfl⟩
      · exact .inl ⟨_, _, rfl, rfl⟩
      · exact .inl ⟨_, _, rfl, rfl⟩
      · exact .inr ⟨_, _, rfl, rfl, .inl rfl⟩
    | renewed hrenewed spare spare' =>
      simp only [if_neg spare.ne_max, if_neg spare'.ne_max]
      split_ifs
      · exact .inl ⟨_, _, rfl, rfl⟩
      · exact .inl ⟨_, _, rfl, rfl⟩
      · exact .inr ⟨_, _, rfl, rfl, .inr ⟨hrenewed, spare.succ, spare'.succ⟩⟩

theorem register_resembles (h : s.Resembles dropped t (b + 1) r) (identity : PeerIdentity)
    (registrationID : String) (lease : ℤ) {now : ℤ} (ht : t ≤ now) :
    AnswersMatch dropped t b identity.nodeID (s.register identity registrationID lease now)
      (r.register identity registrationID lease now) := by
  have hmono := h.mono (Nat.le_succ b)
  unfold register
  split_ifs
  · exact .error hmono
  · exact .error hmono
  · exact .error hmono
  · rcases nextGeneration_resembles hs hr h identity ht with
      ⟨e, e', he, he'⟩ | ⟨g, g', hg, hg', rfl | ⟨hdropped, spare, spare'⟩⟩
    · rw [he, he']
      exact .error hmono
    · rw [hg, hg']
      exact .ok .same (hmono.insert .same)
    · rw [hg, hg']
      exact .ok (.renewed hdropped spare spare') (hmono.insert (.renewed hdropped spare spare'))

theorem refresh_resembles (h : s.Resembles dropped t b r) (identity : PeerIdentity)
    (registrationID : String) (lease : ℤ) {now : ℤ} (ht : t ≤ now) :
    AnswersMatch dropped t b identity.nodeID (s.refresh identity registrationID lease now)
      (r.refresh identity registrationID lease now) := by
  unfold refresh
  split_ifs
  · exact .error h
  · rcases validate_resembles hs hr h identity registrationID ht with
      ⟨e, e', he, he'⟩ | ⟨x, y, hx, hy, entries, -⟩
    · rw [he, he']
      exact .error h
    · rw [hx, hy]
      have hentries := entries.update (f := fun x => { x with expiresAt := now + lease })
        fun _ _ => rfl
      exact .ok hentries (h.insert hentries)

theorem rotate_resembles (h : s.Resembles dropped t (b + 1) r) (identity : PeerIdentity)
    (current next : String) (lease : ℤ) {now : ℤ} (ht : t ≤ now) :
    AnswersMatch dropped t b identity.nodeID (s.rotate identity current next lease now)
      (r.rotate identity current next lease now) := by
  have hmono := h.mono (Nat.le_succ b)
  unfold rotate
  split_ifs
  · exact .error hmono
  · exact .error hmono
  · exact .error hmono
  · rcases validate_resembles hs hr h identity current ht with
      ⟨e, e', he, he'⟩ | ⟨x, y, hx, hy, entries, -⟩
    · rw [he, he']
      exact .error hmono
    · rw [hx, hy]
      cases entries with
      | same =>
        simp only
        split_ifs
        · exact .error hmono
        · exact .ok .same (hmono.insert .same)
      | renewed hrenewed spare spare' =>
        simp only [if_neg spare.ne_max, if_neg spare'.ne_max]
        exact .ok (.renewed hrenewed spare.succ spare'.succ)
          (hmono.insert (.renewed hrenewed spare.succ spare'.succ))

/-- A revocation that one store refuses because the target has expired is refused by the other
because the target is not registered. -/
theorem revoke_resembles (h : s.Resembles dropped t b r) (nodeID reason : String) {now : ℤ}
    (ht : t ≤ now) :
    AnswersMatch dropped t b (trimSpace nodeID) (s.revoke nodeID reason now)
      (r.revoke nodeID reason now) ∧
      ∀ e e', (s.revoke nodeID reason now).1 = .error e →
        (r.revoke nodeID reason now).1 = .error e' →
        e' = e ∨ e = "target node registration has expired" ∧
          e' = "target node is not registered" := by
  have hnode := h (trimSpace nodeID)
  simp only [revoke]
  split_ifs
  · exact ⟨.error h, fun e e' he he' => .inl (Except.error.inj (he'.symm.trans he))⟩
  · exact ⟨.error h, fun e e' he he' => .inl (Except.error.inj (he'.symm.trans he))⟩
  · exact ⟨.error h, fun e e' he he' => .inl (Except.error.inj (he'.symm.trans he))⟩
  · rcases hx : s.entries.get? (trimSpace nodeID) with _ | x <;>
      rcases hy : r.entries.get? (trimSpace nodeID) with _ | y <;> rw [hx, hy] at hnode <;>
        cases hnode
    · exact ⟨.error h, fun e e' he he' => .inl (Except.error.inj (he'.symm.trans he))⟩
    · rename_i hdropped expired spare
      have hlive : ¬ now < x.expiresAt := by omega
      simp only [(hs _ _ hx).normalize, if_pos hlive]
      refine ⟨.error fun m => ?_, fun e e' he he' =>
        .inr ⟨(Except.error.inj he).symm, (Except.error.inj he').symm⟩⟩
      simp only [OrdMap.get?_erase]
      split_ifs with hm
      · rw [hm, hy]
        exact .none
      · exact h m
    · rename_i entries
      simp only [(hs _ _ hx).normalize, (hr _ _ hy).normalize, entries.expiresAt_eq,
        entries.revokedAt_eq]
      split_ifs
      · exact ⟨.ok entries h, fun e e' he => by cases he⟩
      · have hentries := entries.update
          (f := fun x => { x with revokedAt := now, revocationReason := trimSpace reason })
          fun _ _ => rfl
        simp only [entries.expiresAt_eq] at hentries
        exact ⟨.ok hentries (h.insert hentries), fun e e' he => by cases he⟩
      · exact ⟨.error (h.erase _), fun e e' he he' => .inl (Except.error.inj (he'.symm.trans he))⟩

end

end RegistrationStore

end ZeroTrustFL
