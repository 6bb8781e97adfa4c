import Mathlib
import ZeroTrustFL.Coordinator.DeadCredential
import ZeroTrustFL.Coordinator.DurableSections
import ZeroTrustFL.Coordinator.Envelope
import ZeroTrustFL.Coordinator.NpyRoundTrip

/-!
# One schema per round

The vectors that wait for the end of a round have one length, that of the model's vector when it has
a payload.  Around a service without a store this is what `updateMu` is for: from the check of the
pending updates to the insertion no other submission runs, and the calls that do run can only remove
updates.  Around a durable coordinator a revocation that is rolled back can bring an update back
after the check; there the checks of the store reject the snapshot of a mixed round, and the
submission is rolled back.
-/

namespace ZeroTrustFL

/-- The vectors have one length, which is that of the model's vector when the model has a
payload. -/
def OneSchema (model : GlobalModel) (updates : List PendingUpdate) : Prop :=
  ∃ n, (∀ u ∈ updates, u.values.length = n) ∧
    (model.weightsPayload ≠ [] → ∃ values, decodeNPYFloat32 model.weightsPayload = .ok values ∧
      values.length = n)

theorem OneSchema.subset {model : GlobalModel} {us vs : List PendingUpdate} (h : OneSchema model us)
    (hsub : ∀ u ∈ vs, u ∈ us) : OneSchema model vs := by
  obtain ⟨n, hus, hmodel⟩ := h
  exact ⟨n, fun u hu => hus u (hsub u hu), hmodel⟩

theorem oneSchema_of_commonLength {model : GlobalModel} {n : ℕ} {updates : List PendingUpdate}
    (hmodel : validateSnapshotModel model = .ok n) (h : CommonLength n updates) :
    OneSchema model updates := by
  obtain ⟨k, hk, hupdates⟩ := h
  refine ⟨k, hupdates, fun hne => ?_⟩
  have hpos : 0 < model.weightsPayload.length := List.length_pos_iff_ne_nil.2 hne
  rcases hd : decodeNPYFloat32 model.weightsPayload with (e | e) | values
  · simp only [validateSnapshotModel, if_pos hpos, hd] at hmodel
    split_ifs at hmodel
  · simp only [validateSnapshotModel, if_pos hpos, hd] at hmodel
    split_ifs at hmodel
  · simp only [validateSnapshotModel, if_pos hpos, hd] at hmodel
    split_ifs at hmodel
    cases hmodel
    have hvalues : values.length ≠ 0 := by simpa using (decodeNPYFloat32_ok hd).1
    exact ⟨values, rfl, (hk hvalues).symm⟩

theorem StateSnapshot.Valid.oneSchema {snapshot : StateSnapshot} (h : snapshot.Valid) :
    OneSchema snapshot.model snapshot.pending := by
  obtain ⟨n, hmodel, hlen⟩ := h.model
  exact oneSchema_of_commonLength hmodel hlen

theorem DurableService.Recoverable.oneSchema {d : DurableService} {t : ℤ} (h : d.Recoverable t) :
    OneSchema d.service.model d.service.pending.values := by
  obtain ⟨n, hn⟩ := h.sound.model
  exact oneSchema_of_commonLength hn (h.lengths n hn)

/-! ## Calls that are no submissions -/

namespace Service

/-- The settings and the model are the same and no update has been added. -/
structure Calm (s s' : Service) : Prop where
  settings : s'.settings = s.settings
  model : s'.model = s.model
  pending : ∀ u ∈ s'.pending.values, u ∈ s.pending.values

theorem Calm.refl (s : Service) : s.Calm s := ⟨rfl, rfl, fun _ hu => hu⟩

theorem Calm.oneSchema {s s' : Service} (h : s.Calm s') (hs : OneSchema s.model s.pending.values) :
    OneSchema s'.model s'.pending.values := h.model ▸ hs.subset h.pending

theorem SameRound.calm {s s' : Service} (h : s.SameRound s') : s.Calm s' :=
  ⟨h.settings, h.model, by simp [h.pending]⟩

theorem calm_complete {s : Service} {p : Prepared}
    (h : ∀ req prepared, p ≠ .submitLocalUpdate req prepared) (env : Env) :
    s.Calm (s.complete env p).2 := by
  have hout := s.complete_completed env p
  generalize s.complete env p = result at hout
  cases hout with
  | failed same => exact same.calm
  | rejected same => exact ⟨same.settings, same.model, same.calm.pending⟩
  | read => exact .refl s
  | registered => exact ⟨rfl, rfl, fun _ hu => hu⟩
  | refreshed => exact ⟨rfl, rfl, fun _ hu => hu⟩
  | waiting => exact absurd rfl (h _ _)
  | closing => exact absurd rfl (h _ _)
  | rotated same => exact ⟨same.settings, same.model, same.calm.pending⟩
  | revoked same =>
    refine ⟨same.settings, same.model, fun u hu => ?_⟩
    obtain ⟨n, hn⟩ := (OrdMap.mem_values_iff _).1 hu
    rw [OrdMap.get?_erase] at hn
    split_ifs at hn
    exact (OrdMap.mem_values_iff _).2 ⟨n, hn⟩

theorem calm_serve {s : Service} {c : Call} (h : ∀ req, c.request ≠ .submitLocalUpdate req) :
    s.Calm (s.serve c).2 := by
  rw [s.serve_eq_complete c]
  rcases hp : s.prepare c with e | prepared
  · exact .refl s
  · refine calm_complete (fun req prepared heq => ?_) c.env
    subst heq
    exact h _ (preparedAs_of_prepare hp).1

end Service

/-! ## The wrapped coordinator -/

universe u v w

variable {σ : Type u} {τ : Type v} {ι : Type w}

/-- What is left of the call of the wrapped coordinator. -/
def EnvelopeTask.inner? : EnvelopeTask τ ι → Option τ
  | .passed task => some task
  | .decorating task => some task
  | .reading _ _ task => some task
  | .submitting task => some task
  | _ => none

namespace EnvelopeService

variable {wrapped : Wrapped σ τ ι} {modelID : String}

variable (wrapped) in
/-- What goes on is not in the wrapped coordinator, or it is at the start of a call of it. -/
def Starts (r : Except Failure Response ⊕ EnvelopeTask τ ι) : Prop :=
  ∀ task' inner, r = .inr task' → task'.inner? = some inner → ∃ i, inner = wrapped.sections.start i

theorem starts_answer (answer : Except Failure Response) : Starts wrapped (.inl answer) := by
  intro task' inner heq
  cases heq

theorem starts_outside {task : EnvelopeTask τ ι} (h : task.inner? = none) :
    Starts wrapped (.inr task) := by
  intro task' inner heq hinner
  cases heq
  rw [h] at hinner
  cases hinner

theorem starts_start {task : EnvelopeTask τ ι} {i : ι}
    (h : task.inner? = some (wrapped.sections.start i)) : Starts wrapped (.inr task) := by
  intro task' inner heq hinner
  cases heq
  rw [h] at hinner
  cases hinner
  exact ⟨i, rfl⟩

variable (wrapped) in
/-- What a section is to the wrapped coordinator: nothing, a section of a call that goes on, or its
last one. -/
inductive Lifted (k : ℕ) (s s' : EnvelopeState σ) (task : EnvelopeTask τ ι)
    (r : Except Failure Response ⊕ EnvelopeTask τ ι) : Prop where
  | outside (away : task.inner? = none) (same : s'.inner = s.inner) (starts : Starts wrapped r)
  | goesOn {inner inner' : τ} {task' : EnvelopeTask τ ι} (inside : task.inner? = some inner)
      (ran : wrapped.sections.next k s.inner inner = some (.inr inner', s'.inner))
      (r_eq : r = .inr task') (inside' : task'.inner? = some inner')
  | answered {inner : τ} {answer : Except Failure Response} (inside : task.inner? = some inner)
      (ran : wrapped.sections.next k s.inner inner = some (.inl answer, s'.inner))
      (starts : Starts wrapped r)

theorem next_lifted {k : ℕ} {s s' : EnvelopeState σ} {task : EnvelopeTask τ ι}
    {r : Except Failure Response ⊕ EnvelopeTask τ ι}
    (ran : (sections wrapped modelID).next k s task = some (r, s')) :
    Lifted wrapped k s s' task r := by
  rcases task with i | task | task | ⟨i, req⟩ | ⟨i, req, task⟩ | ⟨i, req⟩ | task <;>
    simp only [sections] at ran
  · split at ran
    · cases ran
      exact .outside rfl rfl (starts_answer _)
    · split at ran
      · cases ran
        exact .outside rfl rfl (starts_answer _)
      · cases ran
        exact .outside rfl rfl (starts_outside rfl)
    · cases ran
      exact .outside rfl rfl (starts_start rfl)
    · cases ran
      exact .outside rfl rfl (starts_start rfl)
  · rcases hnext : wrapped.sections.next k s.inner task with _ | ⟨answer | task', inner⟩ <;>
      rw [hnext] at ran <;> cases ran
    · exact .answered rfl hnext (starts_answer _)
    · exact .goesOn rfl hnext rfl rfl
  · rcases hnext : wrapped.sections.next k s.inner task with _ | ⟨answer | task', inner⟩ <;>
      rw [hnext] at ran <;> cases ran
    · exact .answered rfl hnext (starts_answer _)
    · exact .goesOn rfl hnext rfl rfl
  · split at ran
    · cases ran
    · cases ran
      exact .outside rfl rfl (starts_start rfl)
  · rcases hnext : wrapped.sections.next k s.inner task with _ | ⟨answer | task', inner⟩ <;>
      simp only [hnext] at ran
    · cases ran
    · split at ran
      · cases ran
        exact .answered rfl hnext (starts_answer _)
      · cases ran
        exact .answered rfl hnext (starts_start rfl)
      · cases ran
        exact .answered rfl hnext (starts_outside rfl)
    · cases ran
      exact .goesOn rfl hnext rfl rfl
  · split at ran
    · cases ran
      exact .outside rfl rfl (starts_answer _)
    · cases ran
      exact .outside rfl rfl (starts_start rfl)
  · rcases hnext : wrapped.sections.next k s.inner task with _ | ⟨answer | task', inner⟩ <;>
      rw [hnext] at ran <;> cases ran
    · exact .answered rfl hnext (starts_answer _)
    · exact .goesOn rfl hnext rfl rfl

/-- An invariant of the wrapped coordinator is one of the service around it. -/
theorem lift_invariant {I : σ → Prop} {J : ℕ → σ → τ → Prop}
    (h : wrapped.sections.Invariant (fun _ => True) I J) :
    (sections wrapped modelID).Invariant (fun _ => True) (fun s => I s.inner)
      fun k s task => ∀ inner, task.inner? = some inner → J k s.inner inner where
  start _ _ inner hinner := by cases hinner
  shared {k s task r s'} hs htask ran := by
    cases next_lifted ran with
    | outside away same starts => exact same ▸ hs
    | goesOn inside ran r_eq inside' => exact h.shared hs (htask _ inside) ran
    | answered inside ran starts => exact h.shared hs (htask _ inside) ran
  own {k s task task' s'} hs htask ran inner hinner := by
    cases next_lifted ran with
    | outside away same starts =>
      obtain ⟨i, rfl⟩ := starts _ _ rfl hinner
      exact same ▸ h.start trivial hs
    | goesOn inside ran r_eq inside' =>
      cases r_eq
      cases inside'.symm.trans hinner
      exact h.own hs (htask _ inside) ran
    | answered inside ran starts =>
      obtain ⟨i, rfl⟩ := starts _ _ rfl hinner
      exact h.start trivial (h.shared hs (htask _ inside) ran)
  other {k l s task task₂ r s'} hne hs htask htask₂ ran inner hinner := by
    cases next_lifted ran with
    | outside away same starts => exact same ▸ htask₂ inner hinner
    | goesOn inside ran r_eq inside' =>
      exact h.other hne hs (htask _ inside) (htask₂ inner hinner) ran
    | answered inside ran starts => exact h.other hne hs (htask _ inside) (htask₂ inner hinner) ran

/-- A lock of the wrapped coordinator is held by calls that are in it. -/
theorem lift_locks {owner : σ → Option ℕ} {owns : τ → Prop}
    (h : wrapped.sections.Locks owner owns) :
    (sections wrapped modelID).Locks (fun s => owner s.inner)
      fun task => ∃ inner, task.inner? = some inner ∧ owns inner where
  other {k l s task r s'} ran hne howner := by
    cases next_lifted ran with
    | outside away same starts => exact same ▸ howner
    | goesOn inside ran r_eq inside' => exact h.other ran hne howner
    | answered inside ran starts => exact h.other ran hne howner
  own {k s task r s'} ran howns howner := by
    have hinner {inner : τ} (inside : task.inner? = some inner) (hs : owner s.inner = some k) :
        owns inner := by
      obtain ⟨inner', inside', howns'⟩ := howns hs
      cases inside.symm.trans inside'
      exact howns'
    cases next_lifted ran with
    | outside away same starts =>
      obtain ⟨inner, inside, -⟩ := howns (same ▸ howner)
      cases away.symm.trans inside
    | goesOn inside ran r_eq inside' =>
      obtain ⟨inner', heq, howns'⟩ := h.own ran (hinner inside) howner
      cases heq
      exact ⟨_, r_eq, _, inside', howns'⟩
    | answered inside ran starts =>
      obtain ⟨inner', heq, -⟩ := h.own ran (hinner inside) howner
      cases heq

end EnvelopeService

/-! ## Around a durable coordinator -/

/-- The coordinator with a store. -/
def wrappedDurable : Wrapped DurableShared DurableTask DurableCall :=
  ⟨durableSections, fun s => s.state.durable.service, DurableCall.call,
    fun c call => { c with call }⟩

/-- A submission is between its insertion and its commit or rollback. -/
def DurableTask.Inserting : DurableTask → Prop
  | .served c _ _ => ∃ req, c.call.request = .submitLocalUpdate req
  | .committing c _ _ _ => ∃ req, c.call.request = .submitLocalUpdate req
  | .restoring c _ => ∃ req, c.call.request = .submitLocalUpdate req
  | _ => False

variable {n k : ℕ} {E : Set Bytes} {s s' : Service} {req : SubmitLocalUpdateRequest}

theorem DurableTask.Fits.oneSchema {s : DurableShared} {task : DurableTask} (h : task.Fits k s)
    (howns : task.Owns) (hinserting : ¬ task.Inserting) :
    OneSchema s.state.durable.service.model s.state.durable.service.pending.values := by
  have hcalm {c : DurableCall} (hc : ¬ ∃ req, c.call.request = .submitLocalUpdate req)
      {d : DurableState} (hd : d.durable.AlwaysRecoverable)
      (hstate : s.state.durable = (d.withService (d.durable.service.serve c.inner).2).durable) :
      OneSchema s.state.durable.service.model s.state.durable.service.pending.values := by
    have hserved : d.durable.service.Calm (d.durable.service.serve c.inner).2 :=
      Service.calm_serve fun req hreq => hc ⟨req, hreq⟩
    rw [hstate]
    exact hserved.oneSchema (hd 0).oneSchema
  rcases task with c | c | task | ⟨c, before, task⟩ | ⟨c, before, response⟩ | ⟨c, before, after,
    response⟩ | ⟨c, before⟩ | ⟨c, before⟩
  · exact howns.elim
  · exact (h.2 0).oneSchema
  · exact (h.2.1 0).oneSchema
  · exact (h.2.1 0).oneSchema
  · obtain ⟨-, d, hd, -, -, hstate⟩ := h
    exact hcalm hinserting hd (by rw [hstate])
  · obtain ⟨-, d, hd, -, -, hstate, -⟩ := h
    exact hcalm hinserting hd (by rw [hstate])
  · obtain ⟨-, d, hd, -, hstate⟩ := h
    exact hcalm hinserting hd hstate
  · exact (h.2 0).oneSchema

theorem DurableTask.Fits.of_inserting {s : DurableShared} {task : DurableTask} (h : task.Fits k s)
    (hinserting : task.Inserting) : s.persistenceMu = some k := by
  refine h.owner ?_
  rcases task with c | task
  · exact hinserting.elim
  all_goals trivial

/-- What every run of the durable coordinator and the service around it keeps. -/
theorem oneSchema_durable {d : DurableState} (h : DurableShared.Settled ⟨d, none⟩)
    (modelID : String) (events : List (ThreadEvent DurableCall)) :
    let t := final (EnvelopeService.sections wrappedDurable modelID).step
      ⟨⟨⟨d, none⟩, none⟩, fun _ => none⟩ events
    (∀ snapshot, t.shared.inner.state.store.persisted = some snapshot →
      OneSchema snapshot.model snapshot.pending) ∧
    ((∀ k task inner, t.running k = some task → task.inner? = some inner → ¬ inner.Inserting) →
      OneSchema t.shared.inner.state.durable.service.model
        t.shared.inner.state.durable.service.pending.values) := by
  intro t
  have hholds :=
    (@EnvelopeService.lift_invariant _ _ _ wrappedDurable modelID _ _ durable_invariant).final
    (t := ⟨⟨⟨d, none⟩, none⟩, fun _ => none⟩) (Sections.holds_empty h) events
    fun _ _ _ => trivial
  have howned :=
    (@EnvelopeService.lift_locks _ _ _ wrappedDurable modelID _ _ persistenceMu_locks).final
    (t := ⟨⟨⟨d, none⟩, none⟩, fun _ => none⟩) (fun k hk => by cases hk) events
  refine ⟨fun snapshot hsnapshot => (hholds.shared.checked snapshot hsnapshot).oneSchema,
    fun hinserting => ?_⟩
  rcases hmu : t.shared.inner.persistenceMu with _ | k
  · exact (hholds.shared.free hmu 0).oneSchema
  · obtain ⟨task, htask, inner, hinner, howns⟩ := howned k hmu
    exact (hholds.running k task htask inner hinner).oneSchema howns
      (hinserting k task inner htask hinner)

/-! ## Schemas of requests -/

/-- The encoding of the schema of vectors with `n` elements is in the set. -/
structure Encoded (E : Set Bytes) (n : ℕ) : Prop where
  fits : n * 4 < 2 ^ 63
  mem : writeSchema (manifestForElementCount (UInt64.ofNat n)) ∈ E

theorem sizedManifest_manifestForElementCount (n : UInt64) :
    SizedManifest (manifestForElementCount n) := by
  refine ⟨by simp [manifestForElementCount], fun entry hentry => ?_⟩
  rw [List.mem_singleton.1 hentry]
  have hname : (stringBytes flatTensorName).length < 2 ^ 32 := by decide
  have hdtype : (stringBytes float32DType).length < 2 ^ 32 := by decide
  exact ⟨hname, hdtype, Nat.one_lt_two_pow (by decide)⟩

/-- Where SHA-256 has no collisions, the digest of a schema determines the number of elements. -/
theorem eq_of_modelSchemaDigest (hE : Set.InjOn sha256 E) {m : ℕ} (hm : Encoded E m)
    (hn : Encoded E n) (h : modelSchemaDigest (manifestForElementCount (UInt64.ofNat m)) =
      modelSchemaDigest (manifestForElementCount (UInt64.ofNat n))) : m = n := by
  have hbytes := hE hm.mem hn.mem h
  have hmanifest := writeSchema_injOn (sizedManifest_manifestForElementCount _)
    (sizedManifest_manifestForElementCount _) hbytes
  simp only [manifestForElementCount, List.cons.injEq, TensorManifestEntry.mk.injEq, and_true,
    true_and] at hmanifest
  have hcount := congrArg UInt64.toNat hmanifest.2
  have hfm := hm.fits
  have hfn := hn.fits
  rwa [UInt64.toNat_ofNat', UInt64.toNat_ofNat', Nat.mod_eq_of_lt (by omega),
    Nat.mod_eq_of_lt (by omega)] at hcount

/-- The request brings a vector with `n` elements and the digest of its schema. -/
structure Enveloped (req : SubmitLocalUpdateRequest) (n : ℕ) : Prop where
  decodes : ∃ values, decodeNPYFloat32 req.weightsPayload = .ok values ∧ values.length = n
  digest : req.schemaSha256 = modelSchemaDigest (manifestForElementCount (UInt64.ofNat n))

theorem validateUpdateEnvelope_ok {modelID : String}
    (h : validateUpdateEnvelope modelID req = .ok ()) : ∃ n, Enveloped req n := by
  unfold validateUpdateEnvelope at h
  rcases hd : decodeNPYFloat32 req.weightsPayload with (e | e) | values
  · simp only [manifestForPayload, hd] at h
    split_ifs at h
  · simp only [manifestForPayload, hd] at h
    split_ifs at h
  · simp only [manifestForPayload_of_decode hd] at h
    split_ifs at h with h₁ h₂ h₃ h₄ h₅
    exact ⟨values.length, ⟨values, hd, rfl⟩, (not_not.1 h₅).symm⟩

/-- A model without payload sends a submission to the pending updates. -/
theorem checkModelSchema_bootstrap (modelID : String) (req : SubmitLocalUpdateRequest)
    {model : GlobalModel} (h : model.weightsPayload = []) :
    checkModelSchema modelID req model = .ok false := by
  simp [checkModelSchema, decorateGlobalModel, h]

theorem pendingElementCount_ok {count : ℕ} {updates : List PendingUpdate}
    (h : pendingElementCount count updates = .ok n) :
    (count ≠ 0 → n = count) ∧ ∀ u ∈ updates, u.values.length = n ∧ n ≠ 0 := by
  induction updates generalizing count with
  | nil =>
    cases h
    exact ⟨fun _ => rfl, fun u hu => by cases hu⟩
  | cons u updates ih =>
    simp only [pendingElementCount] at h
    split_ifs at h with hu hcount hlength
    · obtain ⟨hn, hrest⟩ := ih h
      refine ⟨fun hne => absurd hcount hne, fun v hv => ?_⟩
      rcases List.mem_cons.1 hv with rfl | hv
      · exact ⟨(hn hu).symm, by rw [hn hu]; exact hu⟩
      · exact hrest v hv
    · obtain ⟨hn, hrest⟩ := ih h
      refine ⟨hn, fun v hv => ?_⟩
      rcases List.mem_cons.1 hv with rfl | hv
      · rw [hn hcount]
        exact ⟨not_not.1 hlength, hcount⟩
      · exact hrest v hv

/-- A submission that passes the check of the pending updates has their length. -/
theorem checkPendingSchema_ok (hE : Set.InjOn sha256 E) {order : IterOrder}
    {pending : OrdMap String PendingUpdate} (hreq : Enveloped req n) (hn : Encoded E n)
    (hpending : ∀ u ∈ pending.values, Encoded E u.values.length)
    (h : checkPendingSchema order req pending = .ok ()) :
    ∀ u ∈ pending.values, u.values.length = n := by
  intro u hu
  have hu' : u ∈ order.arrange pending.values := (order.mem_arrange).2 hu
  unfold checkPendingSchema at h
  rcases hcount : pendingElementCount 0 (order.arrange pending.values) with e | m
  · simp only [pendingSchemaDigest, hcount] at h
    cases h
  obtain ⟨hlength, hm⟩ := (pendingElementCount_ok hcount).2 u hu'
  simp only [pendingSchemaDigest, hcount, if_neg hm] at h
  split_ifs at h with hdigest
  rw [not_not, hreq.digest] at hdigest
  subst hlength
  exact eq_of_modelSchemaDigest hE (hpending u hu) hn hdigest

/-! ## Submissions to a service -/

/-- A submission of a vector with `n` elements. -/
def Task.Submits (n : ℕ) : Task → Prop
  | .first c => ∃ req values, c.request = .submitLocalUpdate (some req) ∧
      decodeNPYFloat32 req.weightsPayload = .ok values ∧ values.length = n
  | .second prepared _ => ∃ req update, prepared = .submitLocalUpdate req update ∧
      decodeNPYFloat32 req.weightsPayload = .ok update.values ∧ update.values.length = n

/-- A call that is no submission. -/
def Task.Quiet : Task → Prop
  | .first c => ∀ req, c.request ≠ .submitLocalUpdate req
  | .second prepared _ => ∀ req update, prepared ≠ .submitLocalUpdate req update

theorem quiet_next {task : Task} {r : Except Failure Response ⊕ Task} (h : task.Quiet)
    (ran : serviceSections.next k s task = some (r, s')) :
    s.Calm s' ∧ ∀ task', r = .inr task' → task'.Quiet := by
  rcases task with c | ⟨prepared, env⟩
  · simp only [serviceSections] at ran
    rcases hp : s.prepare c with e | prepared
    · rw [hp] at ran
      cases ran
      exact ⟨.refl s, fun task' heq => by cases heq⟩
    · rw [hp] at ran
      cases ran
      refine ⟨.refl s, fun task' heq => ?_⟩
      cases heq
      rintro req update rfl
      exact h _ (Service.preparedAs_of_prepare hp).1
  · cases ran
    exact ⟨Service.calm_complete h env, fun task' heq => by cases heq⟩

/-- The update of a submission fits the round: on a model without payload it has the length of the
pending updates. -/
def Service.Awaits (s : Service) (n : ℕ) : Prop :=
  s.model.weightsPayload = [] → ∀ u ∈ s.pending.values, u.values.length = n

theorem Service.Awaits.calm (h : s.Awaits n) (hcalm : s.Calm s') : s'.Awaits n :=
  fun hpayload u hu => h (hcalm.model ▸ hpayload) u (hcalm.pending u hu)

/-- The vectors of the round have one length, and its schema is encoded in the set. -/
structure Service.Uniform (E : Set Bytes) (s : Service) : Prop where
  schema : OneSchema s.model s.pending.values
  encoded : ∀ u ∈ s.pending.values, Encoded E u.values.length

theorem Service.Uniform.calm (h : s.Uniform E) (hcalm : s.Calm s') :
    s'.Uniform E := ⟨hcalm.oneSchema h.schema, fun u hu => h.encoded u (hcalm.pending u hu)⟩

theorem mem_values_insert {m : OrdMap String PendingUpdate} {key : String} {u v : PendingUpdate}
    (h : v ∈ (m.insert key u).values) : v = u ∨ v ∈ m.values := by
  obtain ⟨n, hn⟩ := (OrdMap.mem_values_iff _).1 h
  rw [OrdMap.get?_insert] at hn
  split_ifs at hn
  · cases hn
    exact .inl rfl
  · exact .inr ((OrdMap.mem_values_iff _).2 ⟨n, hn⟩)

/-- A vector that is added to the model's has its length. -/
theorem length_of_currentModelVector {model : GlobalModel} {currentValues values : List Float32}
    (hne : model.weightsPayload ≠ []) (h : currentModelVector model n = .ok currentValues)
    (hd : decodeNPYFloat32 model.weightsPayload = .ok values) : values.length = n := by
  have hpayload : ¬ model.weightsPayload.length = 0 := by simpa using hne
  simp only [currentModelVector, if_neg hpayload, hd] at h
  split_ifs at h with h₁ h₂ h₃
  exact not_not.1 h₃

/-- The locked part of a submission that fits the round leaves one schema. -/
theorem Service.Uniform.submit (h : s.Uniform E) {update : PreparedUpdate} (env : Env)
    (hn : Encoded E update.values.length) (hawaits : s.Awaits update.values.length) :
    (s.complete env (.submitLocalUpdate req update)).2.Uniform E := by
  have hout := s.complete_completed env (.submitLocalUpdate req update)
  generalize s.complete env (.submitLocalUpdate req update) = result at hout
  cases hout with
  | failed same => exact h.calm same.calm
  | rejected _ run => cases run
  | @waiting _ _ updateID currentValues passes few =>
    have same := s.sameRound_afterChecks req update.now
    obtain ⟨n, hpending, hmodel⟩ := h.schema
    have hlength : ∀ u ∈ s.pending.values, u.values.length = update.values.length := by
      by_cases hpayload : s.model.weightsPayload = []
      · exact hawaits hpayload
      · obtain ⟨values, hd, rfl⟩ := hmodel hpayload
        rw [← length_of_currentModelVector hpayload passes.admits.current hd]
        exact hpending
    refine ⟨⟨update.values.length, fun v hv => ?_, fun hpayload => ?_⟩, fun v hv => ?_⟩
    · rcases mem_values_insert hv with rfl | hv
      · rfl
      · exact hlength v hv
    · simp only [same.model] at hpayload ⊢
      obtain ⟨values, hd, -⟩ := hmodel hpayload
      exact ⟨values, hd, length_of_currentModelVector hpayload passes.admits.current hd⟩
    · rcases mem_values_insert hv with rfl | hv
      · exact hn
      · exact h.encoded v hv
  | @closing _ _ updateID currentValues aggregated values payload passes enough closes =>
    obtain ⟨hne, hlength⟩ := length_currentModelVector passes.admits.current
    obtain ⟨-, hvalues, -, hdecode⟩ := closes.payload (hlength ▸ hne) (hlength ▸ hn.fits)
    exact ⟨⟨update.values.length, fun v hv => (by cases hv), fun _ =>
      ⟨values, hdecode, hvalues.trans hlength⟩⟩, fun v hv => by cases hv⟩

theorem submits_next {task : Task} {r : Except Failure Response ⊕ Task} (hs : s.Uniform E)
    (h : task.Submits n) (hn : Encoded E n) (hawaits : s.Awaits n)
    (ran : serviceSections.next k s task = some (r, s')) :
    s'.Uniform E ∧ ∀ task', r = .inr task' → s' = s ∧ task'.Submits n := by
  rcases task with c | ⟨prepared, env⟩
  · obtain ⟨req, values, hreq, hdecode, hlength⟩ := h
    simp only [serviceSections] at ran
    rcases hp : s.prepare c with e | prepared
    · rw [hp] at ran
      cases ran
      exact ⟨hs, fun task' heq => by cases heq⟩
    · rw [hp] at ran
      cases ran
      refine ⟨hs, fun task' heq => ?_⟩
      cases heq
      simp only [Service.prepare, hreq] at hp
      rcases hupdate : s.prepareUpdate c.identity req c.env with e | update
      · rw [hupdate] at hp
        cases hp
      · rw [hupdate] at hp
        cases hp
        have hvalues := (Service.prepareUpdate_ok hupdate).decode
        obtain rfl : values = update.values := Except.ok.inj (hdecode.symm.trans hvalues)
        exact ⟨rfl, req, update, rfl, hdecode, hlength⟩
  · obtain ⟨req, update, rfl, -, rfl⟩ := h
    cases ran
    exact ⟨hs.submit env hn hawaits, fun task' heq => by cases heq⟩

/-! ## Around a service without a store -/

/-- A submission whose envelope is in order; the schema of its vector is encoded in the set. -/
structure Submission (E : Set Bytes) (c : Call) (req : SubmitLocalUpdateRequest) (n : ℕ) :
    Prop where
  request : c.request = .submitLocalUpdate (some req)
  enveloped : Enveloped req n
  encoded : Encoded E n

/-- The schemas of the vectors that a call can submit are encoded in the set. -/
def Call.Encodes (E : Set Bytes) (c : Call) : Prop :=
  ∀ req n, c.request = .submitLocalUpdate (some req) → Enveloped req n → Encoded E n

namespace EnvelopeTask

/-- What is left of a call fits the state: from the reading of the model on a submission holds
`updateMu`, and once it has passed the checks it fits the round. -/
def Fits (E : Set Bytes) (k : ℕ) (s : EnvelopeState Service) : EnvelopeTask Task Call → Prop
  | .entered c => c.Encodes E
  | .passed task => task.Quiet
  | .decorating task => task.Quiet
  | .waiting c req => ∃ n, Submission E c req n
  | .reading c req task => s.updateMu = some k ∧ (∃ n, Submission E c req n) ∧ task.Reads
  | .checking c req => s.updateMu = some k ∧ ∃ n, Submission E c req n
  | .submitting task => s.updateMu = some k ∧ ∃ n, Encoded E n ∧ task.Submits n ∧ s.inner.Awaits n

/-- A section leaves one schema, and to another call that holds `updateMu` it does no harm. -/
structure Stepped (E : Set Bytes) (k : ℕ) (s s' : EnvelopeState Service)
    (r : Except Failure Response ⊕ EnvelopeTask Task Call) : Prop where
  uniform : s'.inner.Uniform E
  goesOn : ∀ task', r = .inr task' → task'.Fits E k s'
  undisturbed : ∀ l, l ≠ k → s.updateMu = some l → s'.updateMu = some l ∧ s.inner.Calm s'.inner

variable {E : Set Bytes} {k : ℕ} {s s' : EnvelopeState Service}
  {r : Except Failure Response ⊕ EnvelopeTask Task Call} {c : Call} {req : SubmitLocalUpdateRequest}
  {task : Task} {modelID : String}

/-- A section that leaves the state as it is. -/
theorem stepped_same (hs : s.inner.Uniform E) (h : ∀ task', r = .inr task' → task'.Fits E k s) :
    Stepped E k s s r :=
  ⟨hs, h, fun _ _ hl => ⟨hl, .refl _⟩⟩

/-- A section of the holder of `updateMu`. -/
theorem stepped_holder (howner : s.updateMu = some k) (hs : s'.inner.Uniform E)
    (h : ∀ task', r = .inr task' → task'.Fits E k s') : Stepped E k s s' r :=
  ⟨hs, h, fun _ hne hl => absurd (Option.some.inj (hl.symm.trans howner)) hne⟩

/-- A submission that has passed the checks. -/
theorem fits_submit {n : ℕ} (howner : s.updateMu = some k) (h : Submission E c req n)
    (hawaits : s.inner.Awaits n) : Fits E k s (EnvelopeService.submit wrappedService c) := by
  obtain ⟨values, hdecode, hlength⟩ := h.enveloped.decodes
  exact ⟨howner, n, h.encoded, ⟨req, values, h.request, hdecode, hlength⟩, hawaits⟩

/-- A section that only goes on to another task. -/
theorem stepped_goesOn {task' : EnvelopeTask Task Call} (hs : s.inner.Uniform E)
    (h : task'.Fits E k s) : Stepped E k s s (.inr task') := by
  refine stepped_same hs fun task heq => ?_
  cases heq
  exact h

theorem stepped_entered (hs : s.inner.Uniform E) (h : Fits E k s (.entered c))
    (ran : (EnvelopeService.sections wrappedService modelID).next k s (.entered c) = some (r, s')) :
    Stepped E k s s' r := by
  have hquiet {request : Request} (hc : c.request = request)
      (hne : ∀ req, request ≠ .submitLocalUpdate req) :
      Task.Quiet (.first c) := fun req heq => hne req (hc.symm.trans heq)
  simp only [EnvelopeService.sections, wrappedService, id_eq] at ran
  rcases hc : c.request with req | req | req | (_ | req) | req | req <;> simp only [hc] at ran
  · cases ran
    exact stepped_goesOn hs (hquiet hc fun req heq => by cases heq)
  · cases ran
    exact stepped_goesOn hs (hquiet hc fun req heq => by cases heq)
  · cases ran
    exact stepped_goesOn hs (hquiet hc fun req heq => by cases heq)
  · cases ran
    exact stepped_same hs fun task' heq => by cases heq
  · rcases henvelope : validateUpdateEnvelope modelID req with e | ⟨⟨⟩⟩
    · rw [henvelope] at ran
      cases ran
      exact stepped_same hs fun task' heq => by cases heq
    · rw [henvelope] at ran
      cases ran
      obtain ⟨n, hn⟩ := validateUpdateEnvelope_ok henvelope
      exact stepped_goesOn hs ⟨n, hc, hn, h req n hc hn⟩
  · cases ran
    exact stepped_goesOn hs (hquiet hc fun req heq => by cases heq)
  · cases ran
    exact stepped_goesOn hs (hquiet hc fun req heq => by cases heq)

/-- A call that is no submission runs in the service. -/
theorem stepped_quiet {inner : Service} {r₁ : Except Failure Response ⊕ Task}
    (hs : s.inner.Uniform E) (h : task.Quiet)
    (hnext : serviceSections.next k s.inner task = some (r₁, inner))
    (hr : ∀ task', r = .inr task' → ∃ inner', r₁ = .inr inner' ∧
      (task' = .passed inner' ∨ task' = .decorating inner')) :
    Stepped E k s { s with inner } r := by
  obtain ⟨hcalm, hquiet⟩ := quiet_next h hnext
  refine ⟨hs.calm hcalm, fun task' heq => ?_, fun _ _ hl => ⟨hl, hcalm⟩⟩
  obtain ⟨inner', hinner, rfl | rfl⟩ := hr task' heq
  · exact hquiet inner' hinner
  · exact hquiet inner' hinner

theorem stepped_reading (hs : s.inner.Uniform E) (h : Fits E k s (.reading c req task))
    (ran : (EnvelopeService.sections wrappedService modelID).next k s (.reading c req task) =
      some (r, s')) :
    Stepped E k s s' r := by
  obtain ⟨howner, ⟨n, hsubmission⟩, hreads⟩ := h
  simp only [EnvelopeService.sections, wrappedService] at ran
  rcases hnext : serviceSections.next k s.inner task with _ | ⟨answer | task', inner⟩ <;>
    simp only [hnext] at ran
  · cases ran
  · obtain ⟨rfl, -, hresponse⟩ := reads_next hreads hnext
    rcases hafter : EnvelopeService.afterReading modelID req answer with answer' | schemaKnown
    · rw [hafter] at ran
      cases ran
      exact stepped_holder howner hs fun task' heq => by cases heq
    rcases schemaKnown with _ | _
    · rw [hafter] at ran
      cases ran
      exact stepped_goesOn hs ⟨howner, n, hsubmission⟩
    · rw [hafter] at ran
      cases ran
      refine stepped_goesOn hs (fits_submit howner hsubmission fun hpayload => ?_)
      -- A model without payload would have sent the submission to the pending updates.
      rcases answer with e | response
      · cases hafter
      · cases hresponse response rfl
        simp only [EnvelopeService.afterReading,
          checkModelSchema_bootstrap modelID req hpayload] at hafter
        cases hafter
  · obtain ⟨rfl, htask, -⟩ := reads_next hreads hnext
    cases ran
    exact stepped_goesOn hs ⟨howner, ⟨n, hsubmission⟩, htask task' rfl⟩

theorem stepped_checking (hE : Set.InjOn sha256 E) (hs : s.inner.Uniform E)
    (h : Fits E k s (.checking c req))
    (ran : (EnvelopeService.sections wrappedService modelID).next k s (.checking c req) =
      some (r, s')) :
    Stepped E k s s' r := by
  obtain ⟨howner, n, hsubmission⟩ := h
  simp only [EnvelopeService.sections, wrappedService, id_eq] at ran
  rcases hcheck : checkPendingSchema c.env.order req s.inner.pending with e | ⟨⟨⟩⟩
  · rw [hcheck] at ran
    cases ran
    exact stepped_holder howner hs fun task' heq => by cases heq
  · rw [hcheck] at ran
    cases ran
    have hlength := checkPendingSchema_ok hE hsubmission.enveloped hsubmission.encoded
      hs.encoded hcheck
    exact stepped_goesOn hs (fits_submit howner hsubmission fun _ => hlength)

theorem stepped_submitting (hs : s.inner.Uniform E) (h : Fits E k s (.submitting task))
    (ran : (EnvelopeService.sections wrappedService modelID).next k s (.submitting task) =
      some (r, s')) :
    Stepped E k s s' r := by
  obtain ⟨howner, n, hn, hsubmits, hawaits⟩ := h
  simp only [EnvelopeService.sections, wrappedService] at ran
  rcases hnext : serviceSections.next k s.inner task with _ | ⟨answer | task', inner⟩ <;>
    simp only [hnext] at ran
  · cases ran
  · obtain ⟨hinner, -⟩ := submits_next hs hsubmits hn hawaits hnext
    cases ran
    exact stepped_holder howner hinner fun task' heq => by cases heq
  · obtain ⟨-, hgoes⟩ := submits_next hs hsubmits hn hawaits hnext
    obtain ⟨rfl, hsubmits'⟩ := hgoes task' rfl
    cases ran
    exact stepped_goesOn hs ⟨howner, n, hn, hsubmits', hawaits⟩

theorem stepped (hE : Set.InjOn sha256 E) {task : EnvelopeTask Task Call} (hs : s.inner.Uniform E)
    (h : task.Fits E k s)
    (ran : (EnvelopeService.sections wrappedService modelID).next k s task = some (r, s')) :
    Stepped E k s s' r := by
  rcases task with c | task | task | ⟨c, req⟩ | ⟨c, req, task⟩ | ⟨c, req⟩ | task
  · exact stepped_entered hs h ran
  · simp only [EnvelopeService.sections, wrappedService] at ran
    rcases hnext : serviceSections.next k s.inner task with _ | ⟨answer | task', inner⟩ <;>
      simp only [hnext] at ran <;> cases ran
    · exact stepped_quiet hs h hnext fun task' heq => by cases heq
    · exact stepped_quiet hs h hnext fun task'' heq => by cases heq; exact ⟨task', rfl, .inl rfl⟩
  · simp only [EnvelopeService.sections, wrappedService] at ran
    rcases hnext : serviceSections.next k s.inner task with _ | ⟨answer | task', inner⟩ <;>
      simp only [hnext] at ran <;> cases ran
    · exact stepped_quiet hs h hnext fun task' heq => by cases heq
    · exact stepped_quiet hs h hnext fun task'' heq => by cases heq; exact ⟨task', rfl, .inr rfl⟩
  · simp only [EnvelopeService.sections, wrappedService] at ran
    rcases hfree : s.updateMu with _ | l <;> simp only [hfree] at ran <;> cases ran
    obtain ⟨n, hsubmission⟩ := h
    refine ⟨hs, fun task' heq => ?_, fun l _ hl => ?_⟩
    · cases heq
      exact ⟨rfl, ⟨n, hsubmission⟩, _, rfl⟩
    · rw [hfree] at hl
      cases hl
  · exact stepped_reading hs h ran
  · exact stepped_checking hE hs h ran
  · exact stepped_submitting hs h ran

/-- What fits the state still fits it after a section that does no harm. -/
theorem Fits.undisturbed {l : ℕ} {task : EnvelopeTask Task Call} (h : task.Fits E l s)
    (hsame : s.updateMu = some l → s'.updateMu = some l ∧ s.inner.Calm s'.inner) :
    task.Fits E l s' := by
  rcases task with c | task | task | ⟨c, req⟩ | ⟨c, req, task⟩ | ⟨c, req⟩ | task
  · exact h
  · exact h
  · exact h
  · exact h
  · exact ⟨(hsame h.1).1, h.2⟩
  · exact ⟨(hsame h.1).1, h.2⟩
  · obtain ⟨howner, n, hn, hsubmits, hawaits⟩ := h
    obtain ⟨howner', hcalm⟩ := hsame howner
    exact ⟨howner', n, hn, hsubmits, hawaits.calm hcalm⟩

end EnvelopeTask

/-- The invariant of concurrent calls of a service and the one around it. -/
theorem envelope_invariant {E : Set Bytes} (hE : Set.InjOn sha256 E) (modelID : String) :
    (EnvelopeService.sections wrappedService modelID).Invariant (fun c => c.Encodes E)
      (fun s => s.inner.Uniform E) fun k s task => task.Fits E k s where
  start hc _ := hc
  shared hs h ran := (EnvelopeTask.stepped hE hs h ran).uniform
  own hs h ran := (EnvelopeTask.stepped hE hs h ran).goesOn _ rfl
  other hne hs h h₂ ran := h₂.undisturbed ((EnvelopeTask.stepped hE hs h ran).undisturbed _ hne)

/-- The schema of the vector that a call submits. -/
def submittedSchema : ThreadEvent Call → Option (List TensorManifestEntry)
  | .call _ c =>
    match c.request with
    | .submitLocalUpdate (some req) => (manifestForPayload req.weightsPayload).toOption
    | _ => none
  | .run _ => none

/-- The encodings of the schemas of the vectors that are submitted in a run. -/
def schemaEncodings (events : List (ThreadEvent Call)) : List Bytes :=
  (events.filterMap submittedSchema).map writeSchema

theorem encodes_of_mem {events : List (ThreadEvent Call)} {k : ℕ} {c : Call}
    (h : .call k c ∈ events) : c.Encodes {bytes | bytes ∈ schemaEncodings events} := by
  intro req n hreq henveloped
  obtain ⟨values, hdecode, rfl⟩ := henveloped.decodes
  refine ⟨(decodeNPYFloat32_ok hdecode).2.1,
    List.mem_map.2 ⟨_, List.mem_filterMap.2 ⟨_, h, ?_⟩, rfl⟩⟩
  simp only [submittedSchema, hreq, manifestForPayload_of_decode hdecode, Except.toOption]

/-- A model with a payload that can be read and decorated. -/
structure Service.ReadsPayload (model : GlobalModel) : Prop where
  format : model.weightsFormat = networkWeightsFormat
  digest : model.sha256 = sha256 model.weightsPayload
  decodes : ∃ values, decodeNPYFloat32 model.weightsPayload = .ok values

theorem readsPayload_checkInitialModel {model model' : GlobalModel}
    (h : checkInitialModel model = .ok model') (hne : model'.weightsPayload ≠ []) :
    Service.ReadsPayload model' := by
  unfold checkInitialModel at h
  by_cases hpayload : model.weightsPayload.length = 0
  · rw [if_pos hpayload] at h
    cases h
    exact absurd (List.length_eq_zero_iff.1 hpayload) hne
  · rcases hd : decodeNPYFloat32 model.weightsPayload with (e | e) | values
    · simp only [if_neg hpayload, hd] at h
      split_ifs at h
    · simp only [if_neg hpayload, hd] at h
      split_ifs at h
    · simp only [if_neg hpayload, hd] at h
      split_ifs at h with hformat
      cases h
      exact ⟨not_not.1 hformat, rfl, values, hd⟩

theorem readsPayload_newService {registry : RegistrationStore} {cfg : Config} {clock : Clock}
    {service : Service} (h : newService registry cfg clock = .ok service)
    (hne : service.model.weightsPayload ≠ []) : Service.ReadsPayload service.model := by
  unfold newService at h
  split at h
  · cases h
  · split at h
    · cases h
    · rename_i model hmodel
      cases h
      exact readsPayload_checkInitialModel hmodel hne

theorem uniform_new {E : Set Bytes} {registry : RegistrationStore} {cfg : Config} {clock : Clock}
    {service : Service} (h : newService registry cfg clock = .ok service) : service.Uniform E := by
  have hpending := (newService_ok h).2.1
  have hempty {P : PendingUpdate → Prop} : ∀ u ∈ service.pending.values, P u := by
    rw [hpending]
    exact fun u hu => by cases hu
  by_cases hne : service.model.weightsPayload = []
  · exact ⟨⟨0, hempty, fun h => absurd hne h⟩, hempty⟩
  · obtain ⟨values, hd⟩ := (readsPayload_newService h hne).decodes
    exact ⟨⟨values.length, hempty, fun _ => ⟨values, hd, rfl⟩⟩, hempty⟩

/-- Around a service, where SHA-256 has no collisions on the schemas of the run, and around a
durable coordinator the vectors of a round have one length, after every run of concurrent calls;
around a durable coordinator at the times when no submission is between its insertion and its commit
or rollback.  What the store holds has one length at all times. -/
theorem one_schema_per_round (cfg : Config) (clock : Clock) (modelID : String) :
    (∀ registry service, newService registry cfg clock = .ok service →
      ∀ events : List (ThreadEvent Call),
      Set.InjOn sha256 {bytes | bytes ∈ schemaEncodings events} →
      let t := final (EnvelopeService.sections wrappedService modelID).step
        ⟨⟨service, none⟩, fun _ => none⟩ events
      OneSchema t.shared.inner.model t.shared.inner.pending.values) ∧
    ∀ st experimentConfig durableModelID outcome d,
    newDurableServiceWithIdentity newRegistrationStore cfg st
        experimentConfig durableModelID clock outcome = .ok d →
        ∀ events : List (ThreadEvent DurableCall),
      let t := final (EnvelopeService.sections wrappedDurable modelID).step
        ⟨⟨⟨d, none⟩, none⟩, fun _ => none⟩ events
      (∀ snapshot, t.shared.inner.state.store.persisted = some snapshot →
        OneSchema snapshot.model snapshot.pending) ∧
      ((∀ k task inner, t.running k = some task → task.inner? = some inner → ¬ inner.Inserting) →
        OneSchema t.shared.inner.state.durable.service.model
          t.shared.inner.state.durable.service.pending.values) := by
  refine ⟨fun registry service hnew events hE => ?_,
      fun st experimentConfig durableModelID outcome d hnew events =>
    oneSchema_durable (settled_new hnew) modelID events⟩
  have hholds := (envelope_invariant hE modelID).final (t := ⟨⟨service, none⟩, fun _ => none⟩)
    (Sections.holds_empty (uniform_new hnew)) events fun k c hmem => encodes_of_mem hmem
  exact hholds.shared.schema

/-! ## Races -/

/-- The submission with the schema of a vector of this length. -/
def Service.enveloped (n : ℕ) (c : Call) : Call :=
  match c.request with
  | .submitLocalUpdate (some req) =>
    let manifest := manifestForElementCount (UInt64.ofNat n)
    { c with request := .submitLocalUpdate (some { req with
      schemaSha256 := modelSchemaDigest manifest
      tensorManifest := manifest.map some }) }
  | _ => c

theorem pos_minUpdates_three : (0 : ℤ) < 3 := by decide

/-- A service that closes a round with three updates. -/
def Service.waitingService : Service :=
  { sampleService with
    settings :=
      { sampleService.settings with minUpdates := 3, minUpdates_pos := pos_minUpdates_three } }

/-- A call comes in on a thread, and some of its sections run. -/
def callAndRun {κ : Type w} (k sections : ℕ) (i : κ) : List (ThreadEvent κ) :=
  .call k i :: List.replicate sections (.run k)

/-- Two workers register and then submit vectors of different lengths at the same time. -/
def submissionRace : List (ThreadEvent Call) :=
  List.flatten
    [callAndRun 0 3 (Service.sampleRegistration "worker-1" 0 7),
      callAndRun 1 3 (Service.sampleRegistration "worker-2" 0 8),
      callAndRun 2 1 (Service.enveloped 1 (Service.sampleSubmission "worker-1" 1 7 [1])),
      callAndRun 3 1 (Service.enveloped 2 (Service.sampleSubmission "worker-2" 1 8 [1, 1])),
      [.run 2, .run 3], List.replicate 5 (.run 2), List.replicate 4 (.run 3)]

/-- The service that closes a round with three updates, over a store without audit. -/
def waitingDurable : DurableState :=
  let durable : DurableService := ⟨Service.waitingService,
    ⟨"exp-1", String.ofList (List.replicate 64 '0'), unixTime 1700000000⟩, "global-model"⟩
  ⟨durable, (⟨false, none, []⟩ : Store).apply
    (durable.captureSnapshot (Service.sampleEnv 0 0).clock) []⟩

/-- Two workers register and the first one submits.  While the second one submits a longer vector,
the first one is revoked; the second one looks at the pending updates before the revocation is
rolled back. -/
def revocationRace : List (ThreadEvent DurableCall) :=
  List.flatten
    [callAndRun 0 7 ⟨⟨some ⟨"admin-1", "admin-1", "admin", "cd34"⟩,
        .registerNode (some ⟨"admin-1", "admin-1", true⟩), Service.sampleEnv 0 9⟩,
        .success, .success⟩,
      callAndRun 1 7 ⟨Service.sampleRegistration "worker-1" 0 7, .success, .success⟩,
      callAndRun 2 7 ⟨Service.sampleRegistration "worker-2" 0 8, .success, .success⟩,
      callAndRun 3 13 ⟨Service.enveloped 1 (Service.sampleSubmission "worker-1" 1 7 [1]),
        .success, .success⟩,
      callAndRun 4 6 ⟨Service.enveloped 2 (Service.sampleSubmission "worker-2" 1 8 [1, 1]),
        .success, .success⟩,
      callAndRun 5 5 ⟨Service.sampleRevocation 1 1700000000, .failure false "connection lost",
        .success⟩,
      [.run 4], List.replicate 4 (.run 5), List.replicate 8 (.run 4)]

/-- The states in which the races end. -/
def afterSubmissionRace : Threads (EnvelopeState Service) (EnvelopeTask Task Call) :=
  final (EnvelopeService.sections wrappedService "global-model").step
    ⟨⟨Service.waitingService, none⟩, fun _ => none⟩ submissionRace

@[inherit_doc afterSubmissionRace]
def afterRevocationRace : Threads (EnvelopeState DurableShared)
    (EnvelopeTask DurableTask DurableCall) :=
  final (EnvelopeService.sections wrappedDurable "global-model").step
    ⟨⟨⟨waitingDurable, none⟩, none⟩, fun _ => none⟩ revocationRace

theorem one_schema_after_races :
    (afterSubmissionRace.shared.inner.pending.values.map (fun u => u.values.length) = [1] ∧
      OneSchema afterSubmissionRace.shared.inner.model
      afterSubmissionRace.shared.inner.pending.values) ∧
    afterRevocationRace.shared.inner.state.durable.service.pending.values.map
      (fun u => u.values.length) = [1] ∧
      OneSchema afterRevocationRace.shared.inner.state.durable.service.model
        afterRevocationRace.shared.inner.state.durable.service.pending.values := by
  have hone := one_schema_per_round ⟨0, 0, none, 3, 0, ""⟩
    (Service.sampleEnv 0 0).clock "global-model"
  have hnew : newDurableServiceWithIdentity newRegistrationStore ⟨0, 0, none, 3, 0, ""⟩
      ⟨false, none, []⟩
      DurableState.sampleExperiment "global-model" (Service.sampleEnv 0 0).clock .success =
        .ok waitingDurable := by
    decide +kernel
  have hsha : ∀ a ∈ schemaEncodings submissionRace, ∀ b ∈ schemaEncodings submissionRace,
      sha256 a = sha256 b → a = b := by
    decide +kernel
  have hplain := hone.1 newRegistrationStore Service.waitingService rfl submissionRace
    fun a ha b hb heq => hsha a ha b hb heq
  have hdurable := hone.2 _ _ _ _ _ hnew revocationRace
  have hfits :=
    ((@EnvelopeService.lift_invariant _ _ _ wrappedDurable "global-model"
      _ _ durable_invariant).final
    (t := ⟨⟨⟨waitingDurable, none⟩, none⟩, fun _ => none⟩) (Sections.holds_empty (settled_new hnew))
    revocationRace fun _ _ _ => trivial).running
  have hsubmission : final (EnvelopeService.sections wrappedService "global-model").step
    ⟨⟨Service.waitingService, none⟩, fun _ => none⟩ submissionRace = afterSubmissionRace := rfl
  have hrevocation : final (EnvelopeService.sections wrappedDurable "global-model").step
    ⟨⟨⟨waitingDurable, none⟩, none⟩, fun _ => none⟩ revocationRace = afterRevocationRace := rfl
  simp only [hsubmission] at hplain
  simp only [hrevocation] at hdurable hfits
  have hlengths : afterSubmissionRace.shared.inner.pending.values.map
      (fun u => u.values.length) = [1] := by
    decide +kernel
  have hend : afterRevocationRace.shared.inner.persistenceMu = none ∧
      afterRevocationRace.shared.inner.state.durable.service.pending.values.map
      (fun u => u.values.length) = [1] := by
    decide +kernel
  refine ⟨⟨hlengths, hplain⟩, hend.2, hdurable.2 fun k task inner hk hinner hinserting => ?_⟩
  cases hend.1.symm.trans ((hfits k task hk inner hinner).of_inserting hinserting)

end ZeroTrustFL
