import Mathlib
import ZeroTrustFL.Coordinator.Recovery

/-!
# Memory and store agree

When the rollback commits take effect, the store always holds what memory holds: the model, the
pending updates and the registrations that have not expired.  A call that returns an error leaves
these three parts as they were, and of the other parts it touches only what belongs to its caller or
has expired.
-/

namespace ZeroTrustFL

/-- The snapshot holds the model, the pending updates and, from `t` on, the live registrations of a
service. -/
structure StateSnapshot.Holds (snap : StateSnapshot) (s : Service) (t : ℤ) : Prop where
  model : snap.model = s.model
  pending : snap.pending = s.pending.values
  registrations : ∀ u, t ≤ u → (snap.registrations.filter fun r => u < r.expiresAt) =
    s.registry.snapshot u

/-- The remembered nonces and the rate windows that are live at `t` are the same, apart from those
of the caller. -/
structure Service.OthersKept (s s' : Service) (caller : Option PeerIdentity) (t : ℤ) : Prop where
  nonces : ∀ key seenAt, (∀ i ∈ caller, ∀ nonce, key ≠ Service.nonceKey i.nodeID nonce) →
    t ≤ seenAt + requestReplayWindow →
    (s'.nonces.get? key = some seenAt ↔ s.nonces.get? key = some seenAt)
  rates : ∀ n w, (∀ i ∈ caller, n ≠ i.nodeID) → isZeroTime w.startedAt = false →
    t - w.startedAt < minute → (s'.rates.get? n = some w ↔ s.rates.get? n = some w)

/-- Two snapshots hold the same model, pending updates and, from `t` on, live registrations. -/
structure StateSnapshot.Agree (a b : StateSnapshot) (t : ℤ) : Prop where
  model : b.model = a.model
  pending : b.pending = a.pending
  registrations : ∀ u, t ≤ u →
    (b.registrations.filter fun r => u < r.expiresAt) =
      a.registrations.filter fun r => u < r.expiresAt

namespace Service

theorem SameState.mono {s s' : Service} {t u : ℤ} (h : s.SameState s' t) (htu : t ≤ u) :
    s.SameState s' u :=
  ⟨h.model, h.pending, by
    rw [← s'.registry.unexpired_unexpired htu, h.registry, s.registry.unexpired_unexpired htu]⟩

theorem sameState_pruned (s : Service) (clock : Clock) :
    s.SameState (s.pruned clock) (clock.read 1) :=
  ⟨rfl, rfl, s.registry.unexpired_unexpired le_rfl⟩

theorem snapshot_eq_of_sameState {s s' : Service} {t u : ℤ} (h : s.SameState s' t)
    (hs : s.registry.WellFormed) (hs' : s'.registry.WellFormed) (htu : t ≤ u) :
    s'.registry.snapshot u = s.registry.snapshot u := by
  rw [RegistrationStore.snapshot_eq hs, RegistrationStore.snapshot_eq hs', (h.mono htu).registry]

/-- A call that fails touches only the nonces and the rate window of its caller. -/
theorem othersKept_of_error {s : Service} {c : Call} {e : Failure} (h : (s.serve c).1 = .error e)
    {t : ℤ} (ht : c.env.clock.read 1 ≤ t) : s.OthersKept (s.serve c).2 c.identity t := by
  constructor
  · intro key seenAt hkey hlive
    rcases s.nonces_serve c with ⟨heq, -⟩ | ⟨i, security, hi, -, -, heq, -⟩ <;> rw [heq]
    constructor
    · intro hget
      rcases of_get?_acceptNonceLocked hget with hold | ⟨rfl, -⟩
      · exact hold
      · exact absurd rfl (hkey i hi _)
    · intro hget
      rcases s.get?_acceptNonceLocked i.nodeID (nonceOf security) (c.env.clock.read 1) key hget with
        hkept | hlt
      · exact hkept
      · omega
  · intro n w hn _ _
    rcases s.rates_serve c with heq | ⟨i, hi, -, heq⟩ | ⟨response, hok, -⟩
    · rw [heq]
    · rw [heq, get?_allowedRates _ _ _ (hn i hi)]
    · rw [h] at hok
      cases hok

theorem othersKept_pruned (s : Service) (clock : Clock) (caller : Option PeerIdentity) {t : ℤ}
    (ht : clock.read 0 ≤ t) : s.OthersKept (s.pruned clock) caller t := by
  constructor
  · intro key seenAt _ hlive
    rw [pruned, OrdMap.get?_filter, Option.filter_eq_some_iff, and_iff_left_iff_imp]
    intro _
    simp only [DurableService.nonceExpired, Bool.not_eq_true', decide_eq_false_iff_not]
    omega
  · intro n w _ hzero hlive
    rw [pruned, OrdMap.get?_filter, Option.filter_eq_some_iff, and_iff_left_iff_imp]
    intro _
    simp only [hzero, Bool.false_or, Bool.not_eq_true', decide_eq_false_iff_not]
    omega

end Service

namespace StateSnapshot

theorem holds_captureSnapshot {d : DurableService} {t : ℤ} (h : d.service.Sound t) {clock : Clock}
    {u : ℤ} (hu : clock.read 1 ≤ u) : (d.captureSnapshot clock).Holds d.service u := by
  refine ⟨rfl, DurableService.pending_captureSnapshot h.toRoundSound clock, fun v hv => ?_⟩
  rw [DurableService.registrations_captureSnapshot h.wellFormed,
    RegistrationStore.snapshot_eq h.wellFormed, ← OrdMap.values_filter]
  exact congrArg (fun r => RegistrationStore.entries r |>.values)
    (d.service.registry.unexpired_unexpired (hu.trans hv))

theorem Holds.congr {snap : StateSnapshot} {s s' : Service} {t u : ℤ} (h : snap.Holds s t)
    (hsame : s.SameState s' u) (htu : t ≤ u) (hs : s.registry.WellFormed)
    (hs' : s'.registry.WellFormed) : snap.Holds s' u := by
  refine ⟨h.model.trans hsame.model.symm, h.pending.trans (by rw [hsame.pending]), fun v hv => ?_⟩
  rw [h.registrations v (htu.trans hv), Service.snapshot_eq_of_sameState hsame hs hs' hv]

theorem Holds.agree {a b : StateSnapshot} {s s' : Service} {t u : ℤ} (ha : a.Holds s t)
    (hb : b.Holds s' u) (hsame : s.SameState s' u) (htu : t ≤ u) (hs : s.registry.WellFormed)
    (hs' : s'.registry.WellFormed) : a.Agree b u := by
  refine ⟨hb.model.trans (hsame.model.trans ha.model.symm), hb.pending.trans ?_, fun v hv => ?_⟩
  · rw [hsame.pending, ha.pending]
  · rw [hb.registrations v hv, ha.registrations v (htu.trans hv),
      Service.snapshot_eq_of_sameState hsame hs hs' hv]

end StateSnapshot

namespace DurableState

/-- The store holds what memory holds, from `t` on. -/
def Agrees (d : DurableState) (t : ℤ) : Prop :=
  ∃ snap, d.store.persisted = some snap ∧ snap.Holds d.durable.service t

theorem Agrees.mono {d : DurableState} {t u : ℤ} (h : d.Agrees t) (htu : t ≤ u) : d.Agrees u := by
  obtain ⟨snap, hsnap, hholds⟩ := h
  exact ⟨snap, hsnap, hholds.model, hholds.pending, fun v hv =>
    hholds.registrations v (htu.trans hv)⟩

/-- The transition of a call is in memory, and the store holds the snapshot of it. -/
structure Contains (d : DurableState) (c : DurableCall) (response : Response) (d' : DurableState) :
    Prop where
  memory : d.durable.service.serve c.inner = (.ok response, d'.durable.service)
  store : d'.store.persisted = some (d'.durable.captureSnapshot (c.call.env.clock.drop 6))

/-- A call has changed neither the round nor the live registrations, in memory or in the store, and
otherwise only what belongs to its caller. -/
structure Unchanged (d : DurableState) (c : DurableCall) (d' : DurableState) : Prop where
  memory : d.durable.service.SameState d'.durable.service c.call.env.clock.finish
  others : d.durable.service.OthersKept d'.durable.service c.call.identity c.call.env.clock.finish
  store : ∀ snap ∈ d.store.persisted, ∀ snap' ∈ d'.store.persisted,
    snap.Agree snap' c.call.env.clock.finish

section

variable {d : DurableState} {t : ℤ} (h : d.durable.Recoverable t) (hagrees : d.Agrees t)
  {c : DurableCall} (ht : t ≤ c.call.env.clock.start)
include h hagrees ht

theorem unchanged_of_sameState {d' : DurableState} {snap' : StateSnapshot}
    (hsame : d.durable.service.SameState d'.durable.service c.call.env.clock.finish)
    (hothers : d.durable.service.OthersKept d'.durable.service c.call.identity
      c.call.env.clock.finish)
    (hwf : d'.durable.service.registry.WellFormed) (hsnap' : d'.store.persisted = some snap')
    (hholds' : snap'.Holds d'.durable.service c.call.env.clock.finish) : d.Unchanged c d' := by
  refine ⟨hsame, hothers, ?_⟩
  obtain ⟨snap, hsnap, hholds⟩ := hagrees
  rintro a ha b hb
  obtain rfl : snap = a := Option.some.inj (hsnap.symm.trans ha)
  obtain rfl : snap' = b := Option.some.inj (hsnap'.symm.trans hb)
  exact hholds.agree hholds' hsame
    (ht.trans c.call.env.clock.start_le_finish) h.sound.wellFormed hwf

/-- A call that the service rejects. -/
theorem agrees_rejected {e : Failure} {service : Service}
    (ran : d.durable.service.serve c.inner = (.error e, service)) :
    (d.withService service).Agrees c.call.env.clock.finish ∧
      d.Unchanged c (d.withService service) := by
  have herror : (d.durable.service.serve c.inner).1 = .error e := by rw [ran]
  have hsame := (Service.sameState_of_error h.sound.wellFormed herror).mono
    (c.call.env.clock.le_finish 5)
  have hothers := Service.othersKept_of_error herror (c.call.env.clock.le_finish 3)
  have hwf := (sound_served h ht).wellFormed
  rw [ran] at hsame hothers hwf
  obtain ⟨snap, hsnap, hholds⟩ := id hagrees
  have hholds' := hholds.congr hsame
    (ht.trans c.call.env.clock.start_le_finish) h.sound.wellFormed hwf
  exact ⟨⟨snap, hsnap, hholds'⟩,
    unchanged_of_sameState h hagrees ht hsame hothers hwf hsnap hholds'⟩

/-- A call whose transition is rolled back in memory and in the store. -/
theorem agrees_rolledBack (st : Store) :
    DurableState.Agrees ⟨d.restored c, st.apply (d.before c) []⟩ c.call.env.clock.finish ∧
      d.Unchanged c ⟨d.restored c, st.apply (d.before c) []⟩ := by
  have hsame := (d.durable.service.sameState_pruned (c.call.env.clock.drop 10)).mono
    (c.call.env.clock.le_finish 11)
  have hothers := d.durable.service.othersKept_pruned (c.call.env.clock.drop 10) c.call.identity
    (c.call.env.clock.le_finish 10)
  have hwf : (d.restored c).service.registry.WellFormed := h.sound.wellFormed.unexpired _
  have hbefore : (d.before c).Holds d.durable.service c.call.env.clock.finish :=
    StateSnapshot.holds_captureSnapshot h.sound (c.call.env.clock.le_finish 1)
  have hholds := hbefore.congr hsame le_rfl h.sound.wellFormed hwf
  exact ⟨⟨d.before c, rfl, hholds⟩,
    unchanged_of_sameState h hagrees ht hsame hothers hwf rfl hholds⟩

/-- Memory and store agree after a call whose rollback commit would succeed. -/
theorem agrees_serve (hrollback : c.outcomes.rollback = .success) :
    (d.serve c).2.Agrees c.call.env.clock.finish ∧
      (∀ response, (d.serve c).1 = .ok response → (∀ req, c.call.request ≠ .getGlobalModel req) →
        d.Contains c response (d.serve c).2) ∧
      ∀ e, (d.serve c).1 = .error e → d.Unchanged c (d.serve c).2 := by
  have htt := ht.trans c.call.env.clock.start_le_finish
  have hout := serve_outcome h ht
  generalize d.serve c = result at hout
  cases hout with
  | read request =>
    have hagrees' := hagrees.mono htt
    refine ⟨hagrees', fun _ _ hreq => absurd request (hreq _), fun _ _ => ?_⟩
    obtain ⟨snap, hsnap, hholds⟩ := hagrees'
    refine unchanged_of_sameState h hagrees ht ⟨rfl, rfl, rfl⟩
      ⟨fun _ _ _ _ => Iff.rfl, fun _ _ _ _ _ => Iff.rfl⟩ h.sound.wellFormed hsnap hholds
  | rejected ran =>
    obtain ⟨hagrees', hunchanged⟩ := agrees_rejected h hagrees ht ran
    exact ⟨hagrees', fun _ hok => (by cases hok), fun _ _ => hunchanged⟩
  | @committed response service ran check =>
    have hsound := sound_served h ht
    have hafter : d.after c = (d.withService service).durable.captureSnapshot
        (c.call.env.clock.drop 6) := by
      rw [after, ran]
    rw [ran] at hsound
    have hstored : Store.persisted (d.store.apply (d.after c) (d.transitionEvents c response)) =
        some ((d.withService service).durable.captureSnapshot (c.call.env.clock.drop 6)) := by
      rw [Store.persisted_apply, hafter]
    refine ⟨⟨_, hstored, StateSnapshot.holds_captureSnapshot hsound (c.call.env.clock.le_finish 7)⟩,
      fun response' hok _ => ?_, fun _ herror => by cases herror⟩
    cases hok
    exact ⟨ran, hstored⟩
  | rolledBack ran forwarded =>
    obtain ⟨hagrees', hunchanged⟩ := agrees_rolledBack h hagrees ht _
    exact ⟨hagrees', fun _ hok => (by cases hok), fun _ _ => hunchanged⟩
  | uncompensated ran forwarded rollback =>
    rw [hrollback] at rollback
    cases rollback

end

/-! ## Runs -/

theorem agrees_new {registry : RegistrationStore} {cfg : Config} {st : Store}
    {experimentConfig : ExperimentConfig} {modelID : String} {clock : Clock}
    {outcome : CommitOutcome} {d : DurableState} (hregistry : registry.WellFormed)
    (h : newDurableServiceWithIdentity registry cfg st experimentConfig modelID clock outcome =
      .ok d) :
    d.Agrees clock.finish := by
  obtain ⟨type, n, -, hstart, hrec⟩ := started_new hregistry h
  refine ⟨_, ?_, StateSnapshot.holds_captureSnapshot hrec.sound
    (((clock.drop n).drop 3).le_finish 1)⟩
  rw [hstart.store, Store.persisted_apply]

theorem agrees_final {d : DurableState} {clock : Clock} (h : d.Ready clock.finish)
    (hagrees : d.Agrees clock.finish) (calls : List DurableCall)
    (hord : (clocks clock calls).Pairwise Clock.Before)
    (hrollback : ∀ c ∈ calls, c.outcomes.rollback = .success) {u : ℤ} (hu : After clock calls u) :
    (final serve d calls).Agrees u := by
  induction calls generalizing d clock with
  | nil => exact hagrees.mono (hu clock List.mem_cons_self)
  | cons c calls ih =>
    obtain ⟨hfirst, hrest⟩ := List.pairwise_cons.1 hord
    have ht : clock.finish ≤ c.call.env.clock.start := hfirst _ List.mem_cons_self
    exact ih (h.serve ht) (agrees_serve h.recoverable hagrees ht
      (hrollback c List.mem_cons_self)).1 hrest
      (fun c' hc' => hrollback c' (List.mem_cons_of_mem _ hc')) fun k hk => hu k
      (List.mem_cons_of_mem _ hk)

/-- Memory and store agree.  Suppose that every rollback commit reports success.  Then after every
run, and so after each of its calls, the store holds the model, the pending updates and the live
registrations of memory; the next call is contained in both when it returns success, and has changed
neither when it returns an error. -/
theorem memory_and_store_agree (storeCalls : List StoreCall) (cfg : Config) (st : Store)
    (experimentConfig : ExperimentConfig) (modelID : String) (clock₀ : Clock)
    (outcome : CommitOutcome) (d₀ : DurableState)
    (hnew : newDurableServiceWithIdentity
      (final StoreCall.run newRegistrationStore storeCalls) cfg st
      experimentConfig modelID clock₀ outcome = .ok d₀) (calls : List DurableCall)
    (hord : (clocks clock₀ calls).Pairwise Clock.Before)
    (hrollback : ∀ c ∈ calls, c.outcomes.rollback = .success) : let d := final serve d₀ calls
    (∀ u, After clock₀ calls u → d.Agrees u) ∧
    ∀ c, After clock₀ calls c.call.env.clock.start → c.outcomes.rollback = .success →
      (∀ response, (d.serve c).1 = .ok response → (∀ req, c.call.request ≠ .getGlobalModel req) →
        d.Contains c response (d.serve c).2) ∧
      ∀ e, (d.serve c).1 = .error e → d.Unchanged c (d.serve c).2 := by
  intro d
  have hregistry := RegistrationStore.wellFormed_final storeCalls
  have hready := ready_new hregistry hnew
  have hagrees : ∀ u, After clock₀ calls u → d.Agrees u := fun u hu =>
    agrees_final hready (agrees_new hregistry hnew) calls hord hrollback hu
  refine ⟨hagrees, fun c hc hroll => ?_⟩
  have hrun := (ready_final hready calls hord hc).1
  exact (agrees_serve hrun.recoverable (hagrees _ hc) le_rfl hroll).2

theorem agree_sampleCalls :
    (∀ c ∈ sampleCalls, c.outcomes.rollback = .success) ∧
      (final serve sampleDurable sampleCalls).Agrees (Service.sampleEnv 2 0).clock.finish := by
  have hrollback : ∀ c ∈ sampleCalls, c.outcomes.rollback = .success := by decide +kernel
  exact ⟨hrollback, (memory_and_store_agree [] _ _ _ _ _ _ _ newDurable_sampleDurable sampleCalls
    (by decide +kernel) hrollback).1 _ (by decide +kernel)⟩

end DurableState

end ZeroTrustFL
