import Mathlib
import ZeroTrustFL.Lib.Threads

/-!
# Calls under one lock

When every call waits for one lock before its first section and holds it until its last one, calls
that run at the same time give the answers that they would give one after the other, in the order in
which they end, and leave the state that they would leave then.  `Sections.Atomic` says what the
sections have to do for this, `Atomic.linear` is the rule.
-/

namespace ZeroTrustFL

universe u v w x y

variable {α : Type y} {σ : Type u} {τ : Type v} {ι : Type w} {ρ : Type x}

/-- The inputs are answered like this, one after the other. -/
def Serial (step : α → ι → ρ × α) : α → List (ι × ρ) → Prop
  | _, [] => True
  | a, (i, answer) :: rest => (step a i).1 = answer ∧ Serial step (step a i).2 rest

theorem serial_concat {step : α → ι → ρ × α} {a : α} {answered : List (ι × ρ)}
    (h : Serial step a answered) (i : ι) :
    Serial step a (answered ++ [(i, (step (final step a (answered.map Prod.fst)) i).1)]) := by
  induction answered generalizing a with
  | nil => exact ⟨rfl, trivial⟩
  | cons first answered ih => exact ⟨h.1, ih h.2⟩

namespace Sections

/-- The threads, the calls that they run, and the calls that have ended with their answers, in this
order. -/
structure Record (σ : Type u) (τ : Type v) (ι : Type w) (ρ : Type x) where
  threads : Threads σ τ
  calls : ℕ → Option ι
  ended : List (ι × ρ)

variable (P : Sections σ τ ι ρ)

/-- An event, recorded. -/
def record (r : Record σ τ ι ρ) (e : ThreadEvent ι) : Record σ τ ι ρ :=
  match e with
  | .call k i =>
    match r.threads.running k with
    | some _ => { r with threads := (P.step r.threads e).2 }
    | none =>
      { r with threads := (P.step r.threads e).2, calls := Function.update r.calls k (some i) }
  | .run k =>
    match (P.step r.threads e).1, r.calls k with
    | some answer, some i =>
      ⟨(P.step r.threads e).2, Function.update r.calls k none, r.ended ++ [(i, answer)]⟩
    | _, _ => { r with threads := (P.step r.threads e).2 }

/-- What a run records. -/
def recorded (s : σ) (events : List (ThreadEvent ι)) : Record σ τ ι ρ :=
  events.foldl P.record ⟨⟨s, fun _ => none⟩, fun _ => none, []⟩

theorem threads_record (r : Record σ τ ι ρ) (e : ThreadEvent ι) :
    (P.record r e).threads = (P.step r.threads e).2 := by
  rcases e with ⟨k, i⟩ | k
  · simp only [record]
    rcases r.threads.running k with _ | task <;> rfl
  · simp only [record]
    rcases (P.step r.threads (.run k)).1 with _ | answer
    · rfl
    · rcases r.calls k with _ | i <;> rfl

theorem threads_recorded (s : σ) (events : List (ThreadEvent ι)) :
    (P.recorded s events).threads = final P.step ⟨s, fun _ => none⟩ events := by
  induction events using List.reverseRecOn with
  | nil => rfl
  | append_singleton events e ih =>
    rw [final_concat, ← ih, ← threads_record, recorded, List.foldl_append]
    rfl

/-- The call of a thread waits for its first section. -/
def Waits (r : Record σ τ ι ρ) (k : ℕ) : Prop :=
  ∀ task, r.threads.running k = some task → ∃ i, r.calls k = some i ∧ task = P.start i

/-- The calls run under one lock: a call takes it in its first section, which waits while another
call has it, and holds it to its last section.  Run without interruption the sections do what `step`
does. -/
structure Atomic (owner : σ → Option ℕ) (embed : α → σ) (step : α → ι → ρ × α) : Prop where
  runs : ∀ k a i, P.Runs k (embed a) (P.start i) (step a i).1 (embed (step a i).2)
  blocked : ∀ {k l s i}, owner s = some l → P.next k s (P.start i) = none
  holds : ∀ {k s task task' s'}, owner s = some k ∨ (∃ i, task = P.start i) →
    P.next k s task = some (.inr task', s') → owner s' = some k

/-- No call has the lock, or the call of one thread has it and is on its way to its answer. -/
inductive Stands (owner : σ → Option ℕ) (embed : α → σ) (step : α → ι → ρ × α) (a : α)
    (r : Record σ τ ι ρ) : Prop where
  | free (shared : r.threads.shared = embed a) (others : ∀ k, P.Waits r k) :
      Stands owner embed step a r
  | held {k : ℕ} {task : τ} {i : ι} (owned : owner r.threads.shared = some k)
      (task_eq : r.threads.running k = some task)
      (call_eq : r.calls k = some i)
      (runs : P.Runs k r.threads.shared task (step a i).1 (embed (step a i).2))
      (others : ∀ l, l ≠ k → P.Waits r l) : Stands owner embed step a r

variable {P} {owner : σ → Option ℕ} {embed : α → σ} {step : α → ι → ρ × α} {a : α}
  {r : Record σ τ ι ρ}

/-- The state after the calls that have ended. -/
def Record.state (r : Record σ τ ι ρ) (step : α → ι → ρ × α) (a : α) : α :=
  final step a (r.ended.map Prod.fst)

variable (P) in
/-- The answers are those of calls one after the other, and the state is the one after them. -/
structure Linear (owner : σ → Option ℕ) (embed : α → σ) (step : α → ι → ρ × α) (a : α)
    (r : Record σ τ ι ρ) : Prop where
  serial : Serial step a r.ended
  stands : P.Stands owner embed step (r.state step a) r

theorem Waits.update {k l : ℕ} (h : P.Waits r l) (hlk : l ≠ k) {shared : σ} {task : Option τ}
    {call : Option ι} {ended : List (ι × ρ)} :
    P.Waits ⟨⟨shared, Function.update r.threads.running k task⟩,
      Function.update r.calls k call, ended⟩ l := by
  intro task' htask
  simp only [Function.update_of_ne hlk] at htask ⊢
  exact h task' htask

theorem state_concat {i : ι} {answer : ρ} {threads : Threads σ τ} {calls : ℕ → Option ι} :
    Record.state ⟨threads, calls, r.ended ++ [(i, answer)]⟩ step a =
      (step (r.state step a) i).2 := by
  rw [Record.state, List.map_append, List.map_singleton, final_concat]
  rfl

/-- A section that does not run changes nothing. -/
theorem record_idle {k : ℕ} (h : P.step r.threads (.run k) = (none, r.threads)) :
    P.record r (.run k) = r := by
  simp only [record, h]

/-- A section of the call that has the lock, or takes it. -/
theorem Atomic.linear_next (hP : P.Atomic owner embed step) (hserial : Serial step a r.ended)
    {k : ℕ} {task : τ} {i : ι} (htask : r.threads.running k = some task)
    (hcall : r.calls k = some i) (howner : owner r.threads.shared = some k ∨ ∃ i, task = P.start i)
    (hruns : P.Runs k r.threads.shared task (step (r.state step a) i).1
      (embed (step (r.state step a) i).2))
    (hothers : ∀ l, l ≠ k → P.Waits r l) : P.Linear owner embed step a (P.record r (.run k)) := by
  cases hruns with
  | ended ran =>
    have hstep : P.step r.threads (.run k) = (some (step (r.state step a) i).1,
        ⟨embed (step (r.state step a) i).2, Function.update r.threads.running k none⟩) := by
      simp only [Sections.step, htask, ran]
    simp only [record, hstep, hcall]
    refine ⟨serial_concat hserial i, ?_⟩
    rw [state_concat]
    refine .free rfl fun l task' htask' => ?_
    rcases eq_or_ne l k with rfl | hlk
    · simp only [Function.update_self, reduceCtorEq] at htask'
    · exact (hothers l hlk).update hlk task' htask'
  | @continued _ s₁ _ _ task' _ ran rest =>
    have hstep : P.step r.threads (.run k) =
        (none, ⟨s₁, Function.update r.threads.running k (some task')⟩) := by
      simp only [Sections.step, htask, ran]
    simp only [record, hstep]
    refine ⟨hserial, .held (hP.holds howner ran) (Function.update_self _ _ _) hcall rest
      fun l hlk task₂ htask₂ => ?_⟩
    simp only [Function.update_of_ne hlk] at htask₂
    exact hothers l hlk task₂ htask₂

theorem Atomic.linear_run (hP : P.Atomic owner embed step) (h : P.Linear owner embed step a r)
    (k : ℕ) : P.Linear owner embed step a (P.record r (.run k)) := by
  rcases htask : r.threads.running k with _ | task
  · rw [record_idle (by simp only [Sections.step, htask])]
    exact h
  obtain ⟨hserial, hstands⟩ := h
  cases hstands with
  | free shared others =>
    obtain ⟨i, hcall, rfl⟩ := others k task htask
    have hruns := hP.runs k (r.state step a) i
    rw [← shared] at hruns
    exact hP.linear_next hserial htask hcall (.inr ⟨i, rfl⟩) hruns fun l _ => others l
  | @held j task' i owned task_eq call_eq runs others =>
    rcases eq_or_ne k j with rfl | hkj
    · exact hP.linear_next hserial task_eq call_eq (.inl owned) runs others
    · obtain ⟨i', -, rfl⟩ := others k hkj task htask
      rw [record_idle (by simp only [Sections.step, htask, hP.blocked owned])]
      exact ⟨hserial, .held owned task_eq call_eq runs others⟩

theorem linear_call (h : P.Linear owner embed step a r) (k : ℕ) (i : ι) :
    P.Linear owner embed step a (P.record r (.call k i)) := by
  rcases htask : r.threads.running k with _ | task
  · have hstep : P.step r.threads (.call k i) =
        (none, { r.threads with
          running := Function.update r.threads.running k (some (P.start i)) }) := by
      simp only [Sections.step, htask]
    have hwaits {l : ℕ} (hl : l = k ∨ P.Waits r l) : P.Waits (P.record r (.call k i)) l := by
      simp only [record, htask, hstep]
      rcases eq_or_ne l k with rfl | hlk
      · intro task htask'
        simp only [Function.update_self, Option.some.injEq] at htask' ⊢
        exact ⟨i, rfl, htask'.symm⟩
      · exact (hl.resolve_left hlk).update hlk
    obtain ⟨hserial, hstands⟩ := h
    have hended : (P.record r (.call k i)).ended = r.ended := by simp only [record, htask]
    have hshared : (P.record r (.call k i)).threads.shared = r.threads.shared := by
      simp only [record, htask, hstep]
    refine ⟨hended ▸ hserial, ?_⟩
    rw [Record.state, hended, ← Record.state]
    cases hstands with
    | free shared others => exact .free (hshared.trans shared) fun l => hwaits (.inr (others l))
    | @held j task' i' owned task_eq call_eq runs others =>
      have hjk : j ≠ k := by
        rintro rfl
        cases htask.symm.trans task_eq
      have htask' : (P.record r (.call k i)).threads.running j = some task' := by
        simp only [record, htask, hstep, Function.update_of_ne hjk, task_eq]
      have hcall' : (P.record r (.call k i)).calls j = some i' := by
        simp only [record, htask, Function.update_of_ne hjk, call_eq]
      exact .held (by rwa [hshared]) htask' hcall' (by rwa [hshared]) fun l hlj =>
        hwaits (.inr (others l hlj))
  · have hsame : P.record r (.call k i) = r := by simp only [record, Sections.step, htask]
    rwa [hsame]

/-- Calls under one lock are linear along every run. -/
theorem Atomic.linear (hP : P.Atomic owner embed step) (a : α) (events : List (ThreadEvent ι)) :
    P.Linear owner embed step a (P.recorded (embed a) events) := by
  induction events using List.reverseRecOn with
  | nil => exact ⟨trivial, .free rfl fun k task htask => (by cases htask)⟩
  | append_singleton events e ih =>
    rw [recorded, List.foldl_append]
    rcases e with ⟨k, i⟩ | k
    · exact linear_call ih k i
    · exact hP.linear_run ih k

/-- When no call has the lock, the state is the one after the calls that have ended; the call that
has it is on its way to the answer and the state that it has after them. -/
theorem Linear.state_eq (hfree : ∀ a, owner (embed a) = none) (h : P.Linear owner embed step a r) :
    (owner r.threads.shared = none → r.threads.shared = embed (r.state step a)) ∧
      ∀ k, owner r.threads.shared = some k → ∃ i task, r.calls k = some i ∧
      r.threads.running k = some task ∧
        P.Runs k r.threads.shared task (step (r.state step a) i).1
        (embed (step (r.state step a) i).2) := by
  cases h.stands with
  | free shared others =>
    refine ⟨fun _ => shared, fun k hk => ?_⟩
    rw [shared, hfree] at hk
    cases hk
  | @held j task i owned task_eq call_eq runs others =>
    refine ⟨fun hnone => ?_, fun k hk => ?_⟩
    · cases hnone.symm.trans owned
    · cases owned.symm.trans hk
      exact ⟨i, task, call_eq, task_eq, runs⟩

/-! ## Where the calls come from -/

theorem calls_record {C : ι → Prop} {e : ThreadEvent ι} (he : ∀ k i, e = .call k i → C i)
    (hcalls : ∀ k i, r.calls k = some i → C i) (hended : ∀ i ∈ r.ended.map Prod.fst, C i) :
    (∀ k i, (P.record r e).calls k = some i → C i) ∧
      ∀ i ∈ (P.record r e).ended.map Prod.fst, C i := by
  rcases e with ⟨k, i⟩ | k
  · rcases htask : r.threads.running k with _ | task <;> simp only [record, htask]
    · refine ⟨fun l j hj => ?_, hended⟩
      rcases eq_or_ne l k with rfl | hlk
      · rw [Function.update_self] at hj
        cases hj
        exact he l i rfl
      · rw [Function.update_of_ne hlk] at hj
        exact hcalls l j hj
    · exact ⟨hcalls, hended⟩
  · rcases hanswer : (P.step r.threads (.run k)).1 with _ | answer <;> simp only [record, hanswer]
    · exact ⟨hcalls, hended⟩
    rcases hcall : r.calls k with _ | i <;> simp only
    · exact ⟨hcalls, hended⟩
    refine ⟨fun l j hj => ?_, fun j hj => ?_⟩
    · rcases eq_or_ne l k with rfl | hlk
      · rw [Function.update_self] at hj
        cases hj
      · rw [Function.update_of_ne hlk] at hj
        exact hcalls l j hj
    · rw [List.map_append, List.mem_append, List.map_singleton, List.mem_singleton] at hj
      rcases hj with hj | rfl
      · exact hended j hj
      · exact hcalls k _ hcall

/-- A run records only calls that came in. -/
theorem calls_recorded (P : Sections σ τ ι ρ) {C : ι → Prop} (s : σ) {events : List (ThreadEvent ι)}
    (hC : ∀ k i, .call k i ∈ events → C i) :
    (∀ k i, (P.recorded s events).calls k = some i → C i) ∧
      ∀ i ∈ (P.recorded s events).ended.map Prod.fst, C i := by
  induction events using List.reverseRecOn with
  | nil => exact ⟨fun k i hi => (by cases hi), fun i hi => (by cases hi)⟩
  | append_singleton events e ih =>
    obtain ⟨hcalls, hended⟩ := ih fun k i hi => hC k i (List.mem_append_left _ hi)
    rw [recorded, List.foldl_append]
    exact calls_record (fun k i he =>
      hC k i (List.mem_append_right _ (he ▸ List.mem_singleton_self _))) hcalls hended

end Sections

end ZeroTrustFL
