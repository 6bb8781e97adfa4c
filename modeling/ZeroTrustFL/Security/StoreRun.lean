import Mathlib.Tactic
import ZeroTrustFL.Lib.Run
import ZeroTrustFL.Security.RegistrationProof

/-!
# Runs of the registration store

A call is one operation together with the clock readings it makes.  Taking a snapshot of the store
and restoring it again is one operation, `recycle`, with two clock readings.
-/

namespace ZeroTrustFL

/-- The operations on a registration store. -/
inductive StoreOp where
  | register (identity : PeerIdentity) (registrationID : String) (lease : ℤ)
  | refresh (identity : PeerIdentity) (registrationID : String) (lease : ℤ)
  | rotate (identity : PeerIdentity) (currentRegistrationID nextRegistrationID : String) (lease : ℤ)
  | revoke (nodeID reason : String)
  | validate (identity : PeerIdentity) (registrationID : String)
  | isRegistered (identity : PeerIdentity)
  | recycle

/-- An operation at the time it runs. -/
structure StoreCall where
  op : StoreOp
  clock : Clock

namespace StoreCall

/-- Whether the call succeeds, and the store it leaves. -/
def run (s : RegistrationStore) (c : StoreCall) : Bool × RegistrationStore :=
  match c.op with
  | .register identity registrationID lease =>
    let r := s.register identity registrationID lease (c.clock.read 0)
    (r.1.isOk, r.2)
  | .refresh identity registrationID lease =>
    let r := s.refresh identity registrationID lease (c.clock.read 0)
    (r.1.isOk, r.2)
  | .rotate identity current next lease =>
    let r := s.rotate identity current next lease (c.clock.read 0)
    (r.1.isOk, r.2)
  | .revoke nodeID reason =>
    let r := s.revoke nodeID reason (c.clock.read 0)
    (r.1.isOk, r.2)
  | .validate identity registrationID =>
    ((s.validate identity registrationID (c.clock.read 0)).isOk, s)
  | .isRegistered identity => (s.isRegistered identity (c.clock.read 0), s)
  | .recycle =>
    let r := s.restoreSnapshot (s.snapshot (c.clock.read 0)) (c.clock.read 1)
    (r.1.isOk, r.2)

/-- The calls follow one another in time. -/
def Ordered (calls : List StoreCall) : Prop := (calls.map clock).Pairwise Clock.Before

instance (calls : List StoreCall) : Decidable (Ordered calls) :=
  inferInstanceAs (Decidable (List.Pairwise _ _))

end StoreCall

namespace RegistrationStore

open StoreCall

theorem wellFormed_run {s : RegistrationStore} (hs : s.WellFormed) (c : StoreCall) :
    (run s c).2.WellFormed := by
  have hnow := c.clock.read_pos 0
  rcases hop : c.op with ⟨i, id, l⟩ | ⟨i, id, l⟩ | ⟨i, id, id', l⟩ | ⟨n, r⟩ | ⟨i, id⟩ | i | _ <;>
    simp only [run, hop]
  · exact wellFormed_register hs i id l hnow
  · exact wellFormed_refresh hs i id l hnow
  · exact wellFormed_rotate hs i id id' l hnow
  · exact wellFormed_revoke hs n r hnow
  · exact hs
  · exact hs
  · rcases restoreSnapshot_snapshot_cases hs (c.clock.read_le_read zero_le_one) with ⟨e, h⟩ | h
    · rw [h]
      exact hs
    · rw [h]
      exact hs.unexpired _

/-- Every store that the operations lead to is well formed. -/
theorem wellFormed_final (calls : List StoreCall) :
    (final run newRegistrationStore calls).WellFormed :=
  final_invariant wellFormed_new (fun _ c h => wellFormed_run h c) calls

end RegistrationStore

end ZeroTrustFL
