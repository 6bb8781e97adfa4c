import Mathlib
import ZeroTrustFL.Lib.Layers
import ZeroTrustFL.Lib.Linear
import ZeroTrustFL.Coordinator.OneSchema

/-!
# Concurrent calls are served one after the other

The durable coordinator answers calls that run at the same time as if they came one after the other,
in the order in which they end, although the service and the store change in several sections of a
call.  The envelope service around it forwards to it calls of its own making; whatever calls the
envelope service serves at the same time, the state of the coordinator is the one after a list of
forwarded calls.
-/

namespace ZeroTrustFL

/-! ## The durable coordinator -/

theorem durableSections_atomic :
    durableSections.Atomic DurableShared.persistenceMu (fun d => ⟨d, none⟩) DurableState.serve where
  runs k d c := d.runs_serve k c
  blocked howner := by simp only [durableSections, howner]
  holds {k s task task' s'} howner ran := by
    rcases howner with howner | ⟨c, rfl⟩
    · rcases persistenceMu_next ran with ⟨_, hr, -⟩ | ⟨_, -, -, heq | heq⟩
      · cases hr
      · exact heq.trans howner
      · exact heq
    · simp only [durableSections] at ran
      split at ran <;> cases ran
      rfl

/-- Calls of the durable coordinator that run at the same time are linearizable: in the order in
which they end they have the answers of calls one after the other.  When no call holds the lock, the
state is the one after them; the call that holds it is on its way to the answer and the state that
it has after them. -/
theorem durable_linearizable (d : DurableState) (events : List (ThreadEvent DurableCall)) :
    let r := durableSections.recorded ⟨d, none⟩ events
    let d' := final DurableState.serve d (r.ended.map Prod.fst)
    Serial DurableState.serve d r.ended ∧
      (r.threads.shared.persistenceMu = none → r.threads.shared.state = d') ∧
      ∀ k, r.threads.shared.persistenceMu = some k → ∃ c task, r.calls k = some c ∧
        r.threads.running k = some task ∧
        durableSections.Runs k r.threads.shared task (d'.serve c).1 ⟨(d'.serve c).2, none⟩ := by
  have hlinear := durableSections_atomic.linear d events
  obtain ⟨hfree, hheld⟩ := hlinear.state_eq fun _ => rfl
  exact ⟨hlinear.serial, fun hnone => congrArg DurableShared.state (hfree hnone), hheld⟩

/-! ## The envelope service around it -/

universe u v w

variable {σ : Type u} {τ : Type v} {ι : Type w}

/-- The call that a task still works on outside the wrapped coordinator. -/
def EnvelopeTask.input? : EnvelopeTask τ ι → Option ι
  | .entered i => some i
  | .waiting i _ => some i
  | .reading i _ _ => some i
  | .checking i _ => some i
  | _ => none

namespace EnvelopeService

variable {wrapped : Wrapped σ τ ι} {modelID : String}

variable (wrapped) in
/-- The calls of the wrapped coordinator as which a call is forwarded. -/
inductive Forwards (i : ι) : ι → Prop where
  | same : Forwards i i
  | reading (req : SubmitLocalUpdateRequest) :
      Forwards i (wrapped.withCall i (readingCall (wrapped.call i) req))
  | submitting : Forwards i (wrapped.withCall i (submittingCall (wrapped.call i)))

/-- The call that what goes on still works on. -/
def inputOf : Except Failure Response ⊕ EnvelopeTask τ ι → Option ι
  | .inl _ => none
  | .inr task => task.input?

/-- The sections of a call, and the forwarded calls in them. -/
theorem next_moves {k : ℕ} {s s' : EnvelopeState σ} {task : EnvelopeTask τ ι}
    {r : Except Failure Response ⊕ EnvelopeTask τ ι}
    (ran : (sections wrapped modelID).next k s task = some (r, s')) :
    wrapped.sections.Moves (fun i' => ∃ i, task.input? = some i ∧
        Forwards wrapped i i') k s.inner s'.inner
        task.inner? (Sections.left? EnvelopeTask.inner? r) ∧
      (inputOf r = none ∨ inputOf r = task.input?) := by
  rcases task with i | task | task | ⟨i, req⟩ | ⟨i, req, task⟩ | ⟨i, req⟩ | task <;>
    simp only [sections] at ran
  · split at ran
    · cases ran
      exact ⟨.outside rfl rfl rfl, .inl rfl⟩
    · split at ran <;> cases ran
      · exact ⟨.outside rfl rfl rfl, .inl rfl⟩
      · exact ⟨.outside rfl rfl rfl, .inr rfl⟩
    · cases ran
      exact ⟨.starts rfl rfl ⟨i, rfl, .same⟩ rfl, .inl rfl⟩
    · cases ran
      exact ⟨.starts rfl rfl ⟨i, rfl, .same⟩ rfl, .inl rfl⟩
  · rcases hnext : wrapped.sections.next k s.inner task with _ | ⟨answer | task', inner⟩ <;>
      rw [hnext] at ran <;> cases ran
    · exact ⟨.ends rfl hnext rfl, .inl rfl⟩
    · exact ⟨.goesOn rfl hnext rfl, .inl rfl⟩
  · rcases hnext : wrapped.sections.next k s.inner task with _ | ⟨answer | task', inner⟩ <;>
      rw [hnext] at ran <;> cases ran
    · exact ⟨.ends rfl hnext rfl, .inl rfl⟩
    · exact ⟨.goesOn rfl hnext rfl, .inl rfl⟩
  · split at ran <;> cases ran
    exact ⟨.starts rfl rfl ⟨i, rfl, .reading req⟩ rfl, .inr rfl⟩
  · rcases hnext : wrapped.sections.next k s.inner task with _ | ⟨answer | task', inner⟩ <;>
      simp only [hnext] at ran
    · cases ran
    · split at ran <;> cases ran
      · exact ⟨.ends rfl hnext rfl, .inl rfl⟩
      · exact ⟨.restarts rfl hnext ⟨i, rfl, .submitting⟩ rfl, .inl rfl⟩
      · exact ⟨.ends rfl hnext rfl, .inr rfl⟩
    · cases ran
      exact ⟨.goesOn rfl hnext rfl, .inr rfl⟩
  · split at ran <;> cases ran
    · exact ⟨.outside rfl rfl rfl, .inl rfl⟩
    · exact ⟨.starts rfl rfl ⟨i, rfl, .submitting⟩ rfl, .inl rfl⟩
  · rcases hnext : wrapped.sections.next k s.inner task with _ | ⟨answer | task', inner⟩ <;>
      rw [hnext] at ran <;> cases ran
    · exact ⟨.ends rfl hnext rfl, .inl rfl⟩
    · exact ⟨.goesOn rfl hnext rfl, .inl rfl⟩

/-- A call that came in. -/
def CameIn (events : List (ThreadEvent ι)) (i : ι) : Prop := ∃ k, .call k i ∈ events

theorem CameIn.append {events : List (ThreadEvent ι)} {i : ι} (h : CameIn events i)
    (e : ThreadEvent ι) : CameIn (events ++ [e]) i := by
  obtain ⟨k, hmem⟩ := h
  exact ⟨k, List.mem_append_left _ hmem⟩

/-- The service is a layer around the wrapped coordinator. -/
theorem layer (wrapped : Wrapped σ τ ι) (modelID : String) (s : σ) :
    Sections.Layer (sections wrapped modelID) wrapped.sections EnvelopeState.inner
      EnvelopeTask.inner?
      ⟨⟨s, none⟩, fun _ => none⟩ (fun events _ task => ∀ i, task.input? = some i → CameIn events i)
      fun events _ i' => ∃ i, CameIn events i ∧ Forwards wrapped i i' where
  outside _ := rfl
  keep h i hi := (h i hi).append _
  grow := by
    rintro events e k i' ⟨i, hi, hforwards⟩
    exact ⟨i, hi.append e, hforwards⟩
  start := by
    intro events k call i hi
    cases hi
    exact ⟨k, List.mem_append_right _ (List.mem_singleton_self _)⟩
  moves := by
    intro events k task r s' htask hK ran
    have hmono {i' : ι} (h : ∃ i, task.input? = some i ∧ Forwards wrapped i i') :
        ∃ i, CameIn events i ∧ Forwards wrapped i i' := by
      obtain ⟨i, hi, hforwards⟩ := h
      exact ⟨i, hK i hi, hforwards⟩
    exact (next_moves ran).1.mono fun _ => hmono
  next := by
    intro events k task task' s' htask hK ran i hi
    rcases (next_moves ran).2 with hnone | hsame
    · cases hi.symm.trans hnone
    · exact hK i (hsame.symm.trans hi)

end EnvelopeService

variable {d : DurableState} {modelID : String} {events : List (ThreadEvent DurableCall)}

/-- The state after calls one after the other, each of which a call of `C` is forwarded as, or the
way there. -/
def SerialState (C : DurableCall → Prop) (d : DurableState) (s : DurableShared) : Prop :=
  ∃ calls : List DurableCall,
    (∀ c ∈ calls, ∃ c₀, C c₀ ∧ EnvelopeService.Forwards wrappedDurable c₀ c) ∧
    (s.persistenceMu = none → s.state = final DurableState.serve d calls) ∧
    ∀ k, s.persistenceMu = some k → ∃ c task answer,
      (∃ c₀, C c₀ ∧ EnvelopeService.Forwards wrappedDurable c₀ c) ∧
      durableSections.Runs k s task answer ⟨final DurableState.serve d (calls ++ [c]), none⟩

theorem serialState_of_calls {C : DurableCall → Prop} (hC : ∀ k c, .call k c ∈ events → C c) :
    SerialState C d (final (EnvelopeService.sections wrappedDurable modelID).step
      ⟨⟨⟨d, none⟩, none⟩, fun _ => none⟩ events).shared.inner := by
  obtain ⟨⟨events', hfrom, hproject⟩, -⟩ :=
    (EnvelopeService.layer wrappedDurable modelID ⟨d, none⟩).final
    (fun k task htask => by cases htask) events
  have hforwarded : ∀ k c, .call k c ∈ events' → ∃ c₀, C c₀ ∧
      EnvelopeService.Forwards wrappedDurable c₀ c := by
    intro k c hmem
    obtain ⟨c₀, ⟨l, hcame⟩, hforwards⟩ := hfrom k c hmem
    exact ⟨c₀, hC l c₀ hcame, hforwards⟩
  obtain ⟨hfree, hheld⟩ := (durableSections_atomic.linear d events').state_eq fun _ => rfl
  have hshared : (durableSections.recorded (⟨d, none⟩ : DurableShared) events').threads.shared =
      (final (EnvelopeService.sections wrappedDurable modelID).step
        ⟨⟨⟨d, none⟩, none⟩, fun _ => none⟩ events).shared.inner := by
    rw [durableSections.threads_recorded]
    exact congrArg Threads.shared hproject
  simp only [hshared] at hfree hheld
  obtain ⟨hcalls, hended⟩ := durableSections.calls_recorded (⟨d, none⟩ : DurableShared) hforwarded
  refine ⟨_, hended, fun hnone => congrArg DurableShared.state (hfree hnone), fun k hk => ?_⟩
  obtain ⟨c, task, hcall, -, hruns⟩ := hheld k hk
  rw [Sections.Record.state, ← final_concat DurableState.serve] at hruns
  exact ⟨c, task, _, hcalls k c hcall, hruns⟩

/-- Whatever calls the envelope service around a durable coordinator serves at the same time, the
state of the coordinator is the one after a list of calls one after the other, each of which a call
that came in is forwarded as; or it is on the way there, in a call that holds the lock. -/
theorem envelope_serializable (d : DurableState) (modelID : String)
    (events : List (ThreadEvent DurableCall)) :
    SerialState (fun c => ∃ k, .call k c ∈ events) d
      (final (EnvelopeService.sections wrappedDurable modelID).step
        ⟨⟨⟨d, none⟩, none⟩, fun _ => none⟩ events).shared.inner :=
  serialState_of_calls fun k _ hmem => ⟨k, hmem⟩

end ZeroTrustFL
