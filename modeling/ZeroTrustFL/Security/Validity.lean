import Mathlib
import ZeroTrustFL.Security.StoreRun

/-!
# Which credentials are valid

The history of a store is the list of its successful calls.  `CredentialValid` says from the history
alone which credential of a node is valid at a time.  `Reflects` ties the entries of the store to
the history; every call keeps it, so validation decides `CredentialValid`.
-/

namespace ZeroTrustFL

open RegistrationStore StoreCall

/-! ## What a history says -/

namespace StoreOp

/-- The credential that an operation issues to the node `n`: its holder and the registration id. -/
def issue? (op : StoreOp) (n : String) : Option (PeerIdentity × String) :=
  match op with
  | .register identity registrationID _ =>
    if identity.nodeID = n then some (identity, registrationID) else none
  | .rotate identity _ next _ => if identity.nodeID = n then some (identity, next) else none
  | _ => none

/-- The lease that an operation grants the node `n`. -/
def lease? (op : StoreOp) (n : String) : Option ℤ :=
  match op with
  | .register identity _ lease => if identity.nodeID = n then some lease else none
  | .refresh identity _ lease => if identity.nodeID = n then some lease else none
  | .rotate identity _ _ lease => if identity.nodeID = n then some lease else none
  | _ => none

/-- Whether an operation revokes the node `n`. -/
def revokes (op : StoreOp) (n : String) : Bool :=
  match op with
  | .revoke nodeID _ => trimSpace nodeID = n
  | _ => false

end StoreOp

/-- The calls of a run that succeed, in their order. -/
def successes (s : RegistrationStore) : List StoreCall → List StoreCall
  | [] => []
  | c :: calls => (if (run s c).1 then [c] else []) ++ successes (run s c).2 calls

/-- The credential issued last to the node. -/
def lastIssue (hist : List StoreCall) (n : String) : Option (PeerIdentity × String) :=
  hist.reverse.findSome? fun c => c.op.issue? n

/-- Whether the node was revoked after its last credential was issued. -/
def revokedSince (hist : List StoreCall) (n : String) : Bool :=
  (hist.reverse.takeWhile fun c => (c.op.issue? n).isNone).any fun c => c.op.revokes n

/-- The end of the lease granted last to the node. -/
def leaseEnd (hist : List StoreCall) (n : String) : Option ℤ :=
  hist.reverse.findSome? fun c => (c.op.lease? n).map fun lease => c.clock.read 0 + lease

/-- The registration ids issued, to any node. -/
def issuedIDs (hist : List StoreCall) : List String :=
  hist.filterMap fun c =>
    match c.op with
    | .register _ registrationID _ => some registrationID
    | .rotate _ _ next _ => some next
    | _ => none

/-- The credential is valid at time `t`, as the history has it. -/
structure CredentialValid (hist : List StoreCall) (identity : PeerIdentity)
    (registrationID : String) (t : ℤ) : Prop where
  issued : ∃ holder, lastIssue hist identity.nodeID = some (holder, registrationID) ∧
    holder.role = identity.role ∧ holder.certificateFingerprint = identity.certificateFingerprint
  not_revoked : revokedSince hist identity.nodeID = false
  live : ∃ x, leaseEnd hist identity.nodeID = some x ∧ t < x

theorem successes_concat (s : RegistrationStore) (calls : List StoreCall) (c : StoreCall) :
    successes s (calls ++ [c]) =
      successes s calls ++ if (run (final run s calls) c).1 then [c] else [] := by
  induction calls generalizing s with
  | nil =>
    simp only [List.nil_append, successes, List.append_nil]
    rfl
  | cons d calls ih =>
    simp only [List.cons_append, successes, ih, final_cons, List.append_assoc]
    rfl

section Concat

variable (hist : List StoreCall) (c : StoreCall) (n : String)

theorem lastIssue_concat : lastIssue (hist ++ [c]) n = (c.op.issue? n).or (lastIssue hist n) := by
  simp only [lastIssue, List.reverse_append, List.reverse_singleton, List.singleton_append,
    List.findSome?_cons]
  rcases c.op.issue? n with _ | x <;> rfl

theorem leaseEnd_concat : leaseEnd (hist ++ [c]) n =
    ((c.op.lease? n).map fun lease => c.clock.read 0 + lease).or (leaseEnd hist n) := by
  simp only [leaseEnd, List.reverse_append, List.reverse_singleton, List.singleton_append,
    List.findSome?_cons]
  rcases c.op.lease? n with _ | x <;> rfl

theorem revokedSince_concat : revokedSince (hist ++ [c]) n =
    ((c.op.issue? n).isNone && (c.op.revokes n || revokedSince hist n)) := by
  simp only [revokedSince, List.reverse_append, List.reverse_singleton, List.singleton_append,
    List.takeWhile_cons]
  rcases c.op.issue? n with _ | x <;> simp

end Concat

/-! ## The store reflects the history -/

/-- What the history says of a registered node is what its entry holds. -/
structure Registration.Reflects (hist : List StoreCall) (n : String) (e : Registration) : Prop where
  issued : ∃ holder, lastIssue hist n = some (holder, e.registrationID) ∧
    holder.role = e.role ∧ holder.certificateFingerprint = e.certificateFingerprint
  revoked : revokedSince hist n = false ↔ e.revokedAt = 0
  lease : leaseEnd hist n = some e.expiresAt

/-- The entries reflect the history up to a time; the lease of a node without an entry is over. -/
structure RegistrationStore.Reflects (hist : List StoreCall) (now : ℤ) (s : RegistrationStore) :
    Prop where
  entry : ∀ n e, s.entries.get? n = some e → e.Reflects hist n
  absent : ∀ n x, s.entries.get? n = none → leaseEnd hist n = some x → x ≤ now

theorem reflects_new : newRegistrationStore.Reflects [] 0 where
  entry _ _ h := by cases h
  absent _ _ _ h := by cases h

/-- The node an operation is about. -/
def StoreOp.node? : StoreOp → Option String
  | .register identity _ _ => some identity.nodeID
  | .refresh identity _ _ => some identity.nodeID
  | .rotate identity _ _ _ => some identity.nodeID
  | .revoke nodeID _ => some (trimSpace nodeID)
  | _ => none

theorem StoreOp.other {op : StoreOp} {n : String} (h : op.node? ≠ some n) :
    op.issue? n = none ∧ op.lease? n = none ∧ op.revokes n = false := by
  cases op <;> simp_all [issue?, lease?, revokes, node?]

/-- A call about another node adds nothing to what the history says. -/
theorem Registration.Reflects.other {hist : List StoreCall} {n : String} {e : Registration}
    {c : StoreCall} (h : e.Reflects hist n) (hc : c.op.node? ≠ some n) :
    e.Reflects (hist ++ [c]) n := by
  obtain ⟨h₁, h₂, h₃⟩ := StoreOp.other hc
  refine ⟨?_, ?_, ?_⟩
  · rw [lastIssue_concat, h₁]
    exact h.issued
  · rw [revokedSince_concat, h₁, h₃]
    exact h.revoked
  · rw [leaseEnd_concat, h₂]
    exact h.lease

namespace RegistrationStore.Reflects

variable {hist : List StoreCall} {now : ℤ} {s : RegistrationStore} {c : StoreCall}

theorem later (h : s.Reflects hist now) {t : ℤ} (hle : now ≤ t) : s.Reflects hist t :=
  ⟨h.entry, fun n x hn hx => le_trans (h.absent n x hn hx) hle⟩

/-- A successful call about no node adds nothing. -/
theorem concat_of_node_none (h : s.Reflects hist now) (hc : c.op.node? = none) :
    s.Reflects (hist ++ [c]) now := by
  refine ⟨fun n e he => (h.entry n e he).other (by simp [hc]), fun n x hn hx => ?_⟩
  rw [leaseEnd_concat, (StoreOp.other (n := n) (by simp [hc])).2.1] at hx
  exact h.absent n x hn hx

/-- A successful call that stores an entry for its node. -/
theorem insert (h : s.Reflects hist now) {n : String} {e : Registration} (hc : c.op.node? = some n)
    (he : e.Reflects (hist ++ [c]) n) :
    RegistrationStore.Reflects (hist ++ [c]) now ⟨s.entries.insert n e⟩ := by
  refine ⟨fun m x hx => ?_, fun m x hm hx => ?_⟩
  · rw [OrdMap.get?_insert] at hx
    split_ifs at hx with hmn
    · cases hx
      exact hmn ▸ he
    · exact (h.entry m x hx).other (by rw [hc]; simpa using Ne.symm hmn)
  · rw [OrdMap.get?_insert] at hm
    split_ifs at hm with hmn
    rw [leaseEnd_concat, (StoreOp.other (n := m) (by rw [hc]; simpa using Ne.symm hmn)).2.1] at hx
    exact h.absent m x hm hx

/-- Dropping entries whose lease is over. -/
theorem filter (h : s.Reflects hist now) (p : String → Registration → Bool)
    (hp : ∀ n e, s.entries.get? n = some e → p n e = false → e.expiresAt ≤ now) :
    RegistrationStore.Reflects hist now ⟨s.entries.filter p⟩ := by
  refine ⟨fun n e he => ?_, fun n x hn hx => ?_⟩
  · rw [OrdMap.get?_filter, Option.filter_eq_some_iff] at he
    exact h.entry n e he.1
  · rw [OrdMap.get?_filter] at hn
    rcases hg : s.entries.get? n with _ | e
    · exact h.absent n x hg hx
    · rw [hg, Option.filter_eq_none_iff] at hn
      have hx' := (h.entry n e hg).lease
      rw [hx', Option.some.injEq] at hx
      exact hx ▸ hp n e hg (by simpa using hn e rfl)

theorem register (hs : s.WellFormed) (h : s.Reflects hist now) {identity : PeerIdentity}
    {registrationID : String} {lease : ℤ} (hop : c.op = .register identity registrationID lease) :
    (run s c).2.Reflects (hist ++ if (run s c).1 then [c] else []) now := by
  simp only [run, hop]
  rcases register_cases hs identity registrationID lease (c.clock.read 0) with
    ⟨err, hr⟩ | ⟨e, hr, he⟩
  · rw [hr]
    simpa [Except.isOk, Except.toBool] using h
  · rw [hr]
    refine h.insert (by rw [hop]; rfl)
      ⟨⟨identity, ?_, he.role_eq.symm, he.fingerprint_eq.symm⟩, ?_, ?_⟩
    · simp [lastIssue_concat, hop, StoreOp.issue?, he.id_eq]
    · simp [revokedSince_concat, hop, StoreOp.issue?, he.not_revoked]
    · simp [leaseEnd_concat, hop, StoreOp.lease?, he.expires_eq]

theorem refresh (hs : s.WellFormed) (h : s.Reflects hist now) {identity : PeerIdentity}
    {registrationID : String} {lease : ℤ} (hop : c.op = .refresh identity registrationID lease) :
    (run s c).2.Reflects (hist ++ if (run s c).1 then [c] else []) now := by
  simp only [run, hop]
  rcases refresh_cases hs identity registrationID lease (c.clock.read 0) with
    ⟨err, hr⟩ | ⟨x, hx, -, -, hr⟩
  · rw [hr]
    simpa [Except.isOk, Except.toBool] using h
  · rw [hr]
    have hx' := h.entry _ _ hx
    refine h.insert (by rw [hop]; rfl) ⟨?_, ?_, ?_⟩
    · simpa [lastIssue_concat, hop, StoreOp.issue?] using hx'.issued
    · simpa [revokedSince_concat, hop, StoreOp.issue?, StoreOp.revokes] using hx'.revoked
    · simp [leaseEnd_concat, hop, StoreOp.lease?]

theorem rotate (hs : s.WellFormed) (h : s.Reflects hist now) {identity : PeerIdentity}
    {current next : String} {lease : ℤ} (hop : c.op = .rotate identity current next lease) :
    (run s c).2.Reflects (hist ++ if (run s c).1 then [c] else []) now := by
  simp only [run, hop]
  rcases rotate_cases hs identity current next lease (c.clock.read 0) with
    ⟨err, hr⟩ | ⟨x, hx, ha, -, -, -, -, hr⟩
  · rw [hr]
    simpa [Except.isOk, Except.toBool] using h
  · rw [hr]
    refine h.insert (by rw [hop]; rfl) ⟨⟨identity, ?_, ha.role.symm, ha.fingerprint.symm⟩, ?_, ?_⟩
    · simp [lastIssue_concat, hop, StoreOp.issue?, rotated]
    · simp [revokedSince_concat, hop, StoreOp.issue?, rotated]
    · simp [leaseEnd_concat, hop, StoreOp.lease?, rotated]

theorem revoke (hs : s.WellFormed) (h : s.Reflects hist (c.clock.read 0)) {nodeID reason : String}
    (hop : c.op = .revoke nodeID reason) :
    (run s c).2.Reflects (hist ++ if (run s c).1 then [c] else []) (c.clock.read 0) := by
  have hrevoked : ∀ x y : Registration, s.entries.get? (trimSpace nodeID) = some x →
      y.registrationID = x.registrationID → y.role = x.role →
      y.certificateFingerprint = x.certificateFingerprint → y.expiresAt = x.expiresAt →
      y.revokedAt ≠ 0 → y.Reflects (hist ++ [c]) (trimSpace nodeID) := by
    intro x y hx h₁ h₂ h₃ h₄ h₅
    have hx' := h.entry _ _ hx
    refine ⟨?_, ?_, ?_⟩
    · simpa [lastIssue_concat, hop, StoreOp.issue?, h₁, h₂, h₃] using hx'.issued
    · simpa [revokedSince_concat, hop, StoreOp.issue?, StoreOp.revokes] using h₅
    · simpa [leaseEnd_concat, hop, StoreOp.lease?, h₄] using hx'.lease
  have hnode : c.op.node? = some (trimSpace nodeID) := by rw [hop]; rfl
  simp only [run, hop]
  rcases revoke_cases hs nodeID reason (c.clock.read 0) with
    ⟨err, hr⟩ | ⟨x, err, hx, hexp, hr⟩ | ⟨x, hx, -, hrev, hr⟩ | ⟨x, hx, -, -, -, -, hr⟩
  · rw [hr]
    simpa [Except.isOk, Except.toBool] using h
  · rw [hr]
    -- The entry of the target had expired: dropping it changes nothing that the history says.
    have hdrop : RegistrationStore.Reflects hist (c.clock.read 0)
        ⟨s.entries.erase (trimSpace nodeID)⟩ := by
      refine h.filter _ fun n e hn hp => ?_
      have hn' : n = trimSpace nodeID := by simpa using hp
      rw [hn', hx, Option.some.injEq] at hn
      exact hn ▸ hexp
    simpa [Except.isOk, Except.toBool] using hdrop
  · rw [hr]
    have hins := h.insert hnode (hrevoked x x hx rfl rfl rfl rfl hrev)
    rw [OrdMap.insert_of_get?_eq_some _ hx] at hins
    exact hins
  · rw [hr]
    exact h.insert hnode (hrevoked x _ hx rfl rfl rfl rfl (ne_of_gt (c.clock.read_pos 0)))

theorem recycle (hs : s.WellFormed) (h : s.Reflects hist (c.clock.read 1)) (hop : c.op = .recycle) :
    (run s c).2.Reflects (hist ++ if (run s c).1 then [c] else []) (c.clock.read 1) := by
  simp only [run, hop]
  rcases restoreSnapshot_snapshot_cases hs (c.clock.read_le_read zero_le_one) with ⟨err, hr⟩ | hr
  · rw [hr]
    simpa [Except.isOk, Except.toBool] using h
  · rw [hr]
    refine (h.concat_of_node_none (by rw [hop]; rfl)).filter _ fun n e _ hp => ?_
    simpa using hp

/-- One call: the store it leaves reflects the history that the call extends. -/
theorem step (hs : s.WellFormed) (h : s.Reflects hist now) (hle : now ≤ c.clock.start) :
    (run s c).2.Reflects (hist ++ if (run s c).1 then [c] else []) c.clock.finish := by
  have hread : ∀ i, s.Reflects hist (c.clock.read i) := fun i =>
    h.later (le_trans hle (c.clock.start_le_read i))
  have hsame : c.op.node? = none →
      ∀ b : Bool, s.Reflects (hist ++ if b then [c] else []) c.clock.finish := by
    intro hc b
    have h' := h.later (le_trans hle c.clock.start_le_finish)
    cases b
    · simpa using h'
    · exact h'.concat_of_node_none hc
  rcases hop : c.op with ⟨i, id, l⟩ | ⟨i, id, l⟩ | ⟨i, id, id', l⟩ | ⟨n, r⟩ | ⟨i, id⟩ | i | _
  · exact ((hread 0).register hs hop).later (c.clock.le_finish 0)
  · exact ((hread 0).refresh hs hop).later (c.clock.le_finish 0)
  · exact ((hread 0).rotate hs hop).later (c.clock.le_finish 0)
  · exact ((hread 0).revoke hs hop).later (c.clock.le_finish 0)
  · have hrun : (run s c).2 = s := by simp only [run, hop]
    rw [hrun]
    exact hsame (by rw [hop]; rfl) _
  · have hrun : (run s c).2 = s := by simp only [run, hop]
    rw [hrun]
    exact hsame (by rw [hop]; rfl) _
  · exact ((hread 1).recycle hs hop).later (c.clock.le_finish 1)

end RegistrationStore.Reflects

/-! ## Whole runs -/

theorem reflects_final {calls : List StoreCall} (hordered : Ordered calls) {t : ℤ}
    (ht : ∀ c ∈ calls, c.clock.finish ≤ t) :
    (final run newRegistrationStore calls).Reflects (successes newRegistrationStore calls) t := by
  induction calls using List.reverseRecOn generalizing t with
  | nil => exact ⟨reflects_new.entry, fun _ _ _ h => by cases h⟩
  | append_singleton calls c ih =>
    simp only [Ordered, List.map_append, List.map_singleton, List.pairwise_append, List.mem_map,
      List.mem_singleton, forall_eq, forall_exists_index, and_imp,
      forall_apply_eq_imp_iff₂] at hordered
    have hstart := ih hordered.1 (t := c.clock.start) hordered.2.2
    rw [final_concat, successes_concat]
    exact (hstart.step (wellFormed_final calls) le_rfl).later (ht c (by simp))

/-- Validation at a time after the run decides validity by the history. -/
theorem validate_isOk_iff {calls : List StoreCall} (hordered : Ordered calls) {t : ℤ}
    (ht : ∀ c ∈ calls, c.clock.finish ≤ t) (identity : PeerIdentity) (registrationID : String) :
    ((final run newRegistrationStore calls).validate identity registrationID t).isOk = true ↔
      CredentialValid (successes newRegistrationStore calls) identity registrationID t := by
  have href := reflects_final hordered ht
  have hvalid := validate_ok_iff (wellFormed_final calls) identity registrationID t
  constructor
  · intro h
    rcases hv : (final run newRegistrationStore calls).validate identity registrationID t with
      err | e
    · rw [hv] at h
      cases h
    · obtain ⟨he, ha⟩ := (hvalid e).1 hv
      have hr := href.entry _ _ he
      obtain ⟨holder, h₁, h₂, h₃⟩ := hr.issued
      exact ⟨⟨holder, ha.id ▸ h₁, h₂.trans ha.role, h₃.trans ha.fingerprint⟩,
        hr.revoked.2 ha.not_revoked, e.expiresAt, hr.lease, ha.live⟩
  · rintro ⟨⟨holder, h₁, h₂, h₃⟩, hrev, x, hx, hlive⟩
    rcases he : (final run newRegistrationStore calls).entries.get? identity.nodeID with _ | e
    · have := href.absent _ x he hx
      omega
    · have hr := href.entry _ _ he
      obtain ⟨holder', h₁', h₂', h₃'⟩ := hr.issued
      rw [h₁, Option.some.injEq, Prod.mk.injEq] at h₁'
      obtain ⟨rfl, hid⟩ := h₁'
      have hexp : x = e.expiresAt := Option.some.inj (hx.symm.trans hr.lease)
      have ha : e.Admits identity registrationID t :=
        ⟨hexp ▸ hlive, hr.revoked.1 hrev, hid.symm, h₃'.symm.trans h₃, h₂'.symm.trans h₂⟩
      rw [(hvalid e).2 ⟨he, ha⟩]
      rfl

theorem lastIssue_append (h₁ h₂ : List StoreCall) (n : String) :
    lastIssue (h₁ ++ h₂) n = (lastIssue h₂ n).or (lastIssue h₁ n) := by
  simp [lastIssue, List.findSome?_append]

theorem mem_issuedIDs_of_lastIssue {hist : List StoreCall} {n registrationID : String}
    {holder : PeerIdentity} (h : lastIssue hist n = some (holder, registrationID)) :
    registrationID ∈ issuedIDs hist := by
  obtain ⟨c, hc, hi⟩ := List.exists_of_findSome?_eq_some h
  refine List.mem_filterMap.2 ⟨c, List.mem_reverse.1 hc, ?_⟩
  cases hop : c.op <;> simp_all [StoreOp.issue?]

theorem lastIssue_isSome {hist : List StoreCall} {c : StoreCall} {n : String} (hc : c ∈ hist)
    (hi : (c.op.issue? n).isSome) : (lastIssue hist n).isSome := by
  rw [lastIssue, List.isSome_findSome?]
  exact List.any_eq_true.2 ⟨c, List.mem_reverse.2 hc, hi⟩

theorem StoreOp.issue?_node {op : StoreOp} {n m : String} {a b : PeerIdentity × String}
    (hn : op.issue? n = some a) (hm : op.issue? m = some b) : n = m := by
  cases op <;> simp_all [issue?]

/-- Once the credential of a node has been replaced, no history makes its id valid again. -/
theorem not_credentialValid_of_replaced {hist before after : List StoreCall} {c d : StoreCall}
    {n registrationID : String} {holder : PeerIdentity} (hids : (issuedIDs hist).Nodup)
    (hhist : hist = before ++ c :: after) (hc : c.op.issue? n = some (holder, registrationID))
    (hd : d ∈ after) (hdn : (d.op.issue? n).isSome) (identity : PeerIdentity) (t : ℤ) :
    ¬ CredentialValid hist identity registrationID t := by
  rintro ⟨⟨who, hlast, -⟩, -⟩
  have hlastc : lastIssue [c] n = some (holder, registrationID) := by simp [lastIssue, hc]
  have hcid : registrationID ∈ issuedIDs [c] := mem_issuedIDs_of_lastIssue hlastc
  rw [hhist, List.append_cons, issuedIDs, List.filterMap_append, List.filterMap_append] at hids
  change (issuedIDs before ++ issuedIDs [c] ++ issuedIDs after).Nodup at hids
  rw [List.nodup_append, List.nodup_append] at hids
  obtain ⟨⟨-, -, hbefore⟩, -, hafter⟩ := hids
  rw [hhist, List.append_cons, lastIssue_append, lastIssue_append] at hlast
  rcases hla : lastIssue after identity.nodeID with _ | ⟨who', id'⟩
  · rw [hla, Option.none_or] at hlast
    rcases hlc : lastIssue [c] identity.nodeID with _ | ⟨who'', id''⟩
    · rw [hlc, Option.none_or] at hlast
      exact hbefore _ (mem_issuedIDs_of_lastIssue hlast) _ hcid rfl
    · -- The id was issued by `c`, so to the node `n`, which was issued another one since.
      have hcm : c.op.issue? identity.nodeID = some (who'', id'') := by simpa [lastIssue] using hlc
      have hnm := StoreOp.issue?_node hc hcm
      have := lastIssue_isSome hd hdn
      rw [hnm, hla] at this
      cases this
  · rw [hla, Option.some_or, Option.some.injEq, Prod.mk.injEq] at hlast
    obtain ⟨-, rfl⟩ := hlast
    exact hafter _ (List.mem_append_right _ hcid) _ (mem_issuedIDs_of_lastIssue hla) rfl

/-- Validation decides validity by the history of the run, and an id that a later registration or
rotation has replaced is not valid again. -/
theorem validate_iff_credentialValid (calls : List StoreCall) (hordered : Ordered calls)
    (hids : (issuedIDs (successes newRegistrationStore calls)).Nodup) (identity : PeerIdentity)
    (registrationID : String) (t : ℤ) (ht : ∀ c ∈ calls, c.clock.finish ≤ t) :
    (((final run newRegistrationStore calls).validate identity registrationID t).isOk = true ↔
      CredentialValid (successes newRegistrationStore calls) identity registrationID t) ∧
    ∀ before c after d n holder, successes newRegistrationStore calls = before ++ c :: after →
      c.op.issue? n = some (holder, registrationID) → d ∈ after → (d.op.issue? n).isSome →
      ((final run newRegistrationStore calls).validate identity registrationID t).isOk = false := by
  have hiff := validate_isOk_iff hordered ht identity registrationID
  refine ⟨hiff, fun before c after d n holder hhist hc hd hdn => ?_⟩
  rw [Bool.eq_false_iff, Ne, hiff]
  exact not_credentialValid_of_replaced hids hhist hc hd hdn identity t

/-- A worker, and a run in which its credential is rotated and the store restored. -/
def rotatedWorker : PeerIdentity := ⟨"worker-1", "worker-1", "worker", "ab12"⟩

def rotatedRun : List StoreCall :=
  [⟨.register rotatedWorker "first" 100, .tick 9⟩,
    ⟨.rotate rotatedWorker "first" "second" 100, .tick 19⟩,
    ⟨.recycle, .tick 29⟩]

theorem credentialValid_rotatedRun :
    Ordered rotatedRun ∧ (issuedIDs (successes newRegistrationStore rotatedRun)).Nodup ∧
      CredentialValid (successes newRegistrationStore rotatedRun) rotatedWorker "second" 119 :=
  ⟨by decide, by decide,
    (validate_iff_credentialValid rotatedRun (by decide) (by decide) rotatedWorker "second" 119
      (by decide)).1.1 (by decide)⟩

end ZeroTrustFL
