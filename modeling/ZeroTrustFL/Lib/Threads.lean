import Mathlib
import ZeroTrustFL.Lib.Run

/-!
# Threads that share a state

Calls that run at the same time on a shared state.  A call runs in sections; a section is atomic,
and between two sections of a call any number of sections of other calls can run.
`Sections.Invariant` is the rule for such runs: a property of the state and one of what is left of
every call, which the sections of the call itself establish and those of the others do not disturb.
-/

namespace ZeroTrustFL

universe u v w x

variable {σ : Type u} {τ : Type v} {ι : Type w} {ρ : Type x}

/-- What a call does on the shared state.  A section of thread `k` ends the call with an answer or
leaves what is still to run; it does not run while it has to wait. -/
structure Sections (σ : Type u) (τ : Type v) (ι : Type w) (ρ : Type x) where
  start : ι → τ
  next : ℕ → σ → τ → Option ((ρ ⊕ τ) × σ)

/-- The shared state and what is left of the calls that are running. -/
structure Threads (σ : Type u) (τ : Type v) where
  shared : σ
  running : ℕ → Option τ

/-- A call comes in on a thread, or a thread runs its next section. -/
inductive ThreadEvent (ι : Type w) where
  | call (k : ℕ) (i : ι)
  | run (k : ℕ)

namespace Sections

variable (P : Sections σ τ ι ρ)

def step (t : Threads σ τ) : ThreadEvent ι → Option ρ × Threads σ τ
  | .call k i =>
    match t.running k with
    | some _ => (none, t)
    | none => (none, { t with running := Function.update t.running k (some (P.start i)) })
  | .run k =>
    match t.running k with
    | none => (none, t)
    | some task =>
      match P.next k t.shared task with
      | none => (none, t)
      | some (.inl answer, shared) => (some answer, ⟨shared, Function.update t.running k none⟩)
      | some (.inr task, shared) => (none, ⟨shared, Function.update t.running k (some task)⟩)

/-- What an event can have done. -/
inductive StepOutcome (t : Threads σ τ) : ThreadEvent ι → Option ρ × Threads σ τ → Prop where
  | idle {e : ThreadEvent ι} : StepOutcome t e (none, t)
  | started {k : ℕ} {i : ι} (free : t.running k = none) :
      StepOutcome t (.call k i)
        (none, { t with running := Function.update t.running k (some (P.start i)) })
  | answered {k : ℕ} {task : τ} {answer : ρ} {shared : σ} (task_eq : t.running k = some task)
      (ran : P.next k t.shared task = some (.inl answer, shared)) :
      StepOutcome t (.run k) (some answer, ⟨shared, Function.update t.running k none⟩)
  | continued {k : ℕ} {task task' : τ} {shared : σ} (task_eq : t.running k = some task)
      (ran : P.next k t.shared task = some (.inr task', shared)) :
      StepOutcome t (.run k) (none, ⟨shared, Function.update t.running k (some task')⟩)

theorem step_outcome (t : Threads σ τ) (e : ThreadEvent ι) : P.StepOutcome t e (P.step t e) := by
  rcases e with ⟨k, i⟩ | k
  · simp only [step]
    rcases hk : t.running k with _ | task
    · exact .started hk
    · exact .idle
  · simp only [step]
    rcases hk : t.running k with _ | task
    · exact .idle
    simp only
    rcases hn : P.next k t.shared task with _ | ⟨answer | task', shared⟩
    · exact .idle
    · exact .answered hk hn
    · exact .continued hk hn

/-- A property of the shared state and one of what is left of a call, such that every section keeps
both for its own call and disturbs no other, and the calls of `C` start with the second one. -/
structure Invariant (C : ι → Prop) (I : σ → Prop) (J : ℕ → σ → τ → Prop) : Prop where
  start : ∀ {k s i}, C i → I s → J k s (P.start i)
  shared : ∀ {k s task r s'}, I s → J k s task → P.next k s task = some (r, s') → I s'
  own : ∀ {k s task task' s'}, I s → J k s task → P.next k s task = some (.inr task', s') →
    J k s' task'
  other : ∀ {k l s task task₂ r s'}, l ≠ k → I s → J k s task → J l s task₂ →
    P.next k s task = some (r, s') → J l s' task₂

/-- The property of the state holds, and that of every running call. -/
structure Holds (I : σ → Prop) (J : ℕ → σ → τ → Prop) (t : Threads σ τ) : Prop where
  shared : I t.shared
  running : ∀ k task, t.running k = some task → J k t.shared task

variable {P} {I : σ → Prop} {J : ℕ → σ → τ → Prop} {C : ι → Prop}

theorem holds_empty {s : σ} (h : I s) : Holds I J ⟨s, fun _ => none⟩ :=
  ⟨h, fun k task hk => by cases hk⟩

theorem Invariant.step (hP : P.Invariant C I J) {t : Threads σ τ} (h : Holds I J t)
    (e : ThreadEvent ι) (hcall : ∀ k i, e = .call k i → C i) : Holds I J (P.step t e).2 := by
  have hout := P.step_outcome t e
  generalize P.step t e = result at hout
  cases hout with
  | idle => exact h
  | @started k i free =>
    refine ⟨h.shared, fun l task hl => ?_⟩
    simp only [Function.update_apply] at hl
    split_ifs at hl with hlk
    · cases hl
      exact hP.start (hcall k i rfl) h.shared
    · exact h.running l task hl
  | @answered k task answer shared task_eq ran =>
    have hj := h.running k task task_eq
    refine ⟨hP.shared h.shared hj ran, fun l task₂ hl => ?_⟩
    simp only [Function.update_apply] at hl
    split_ifs at hl with hlk
    exact hP.other hlk h.shared hj (h.running l task₂ hl) ran
  | @continued k task task' shared task_eq ran =>
    have hj := h.running k task task_eq
    refine ⟨hP.shared h.shared hj ran, fun l task₂ hl => ?_⟩
    simp only [Function.update_apply] at hl
    split_ifs at hl with hlk
    · cases hl
      rw [hlk]
      exact hP.own h.shared hj ran
    · exact hP.other hlk h.shared hj (h.running l task₂ hl) ran

/-- An invariant holds after every run of calls that it admits. -/
theorem Invariant.final (hP : P.Invariant C I J) {t : Threads σ τ} (h : Holds I J t)
    (events : List (ThreadEvent ι)) (hcalls : ∀ k i, .call k i ∈ events → C i) :
    Holds I J (ZeroTrustFL.final P.step t events) := by
  induction events generalizing t with
  | nil => exact h
  | cons e events ih =>
    have hstep := hP.step h e fun k i heq => hcalls k i (heq ▸ List.mem_cons_self)
    exact ih hstep fun k i hmem => hcalls k i (List.mem_cons_of_mem _ hmem)

/-! ## Calls without interruption -/

variable (P) in
/-- The sections of thread `k` up to its answer, with no other section between them. -/
inductive Runs (k : ℕ) : σ → τ → ρ → σ → Prop where
  | ended {s s' : σ} {task : τ} {answer : ρ} (ran : P.next k s task = some (.inl answer, s')) :
      Runs k s task answer s'
  | continued {s s₁ s' : σ} {task task' : τ} {answer : ρ}
      (ran : P.next k s task = some (.inr task', s₁))
      (rest : Runs k s₁ task' answer s') : Runs k s task answer s'

/-! ## Locks -/

/-- What is left of the call that owns the lock says so. -/
def Owned (owner : σ → Option ℕ) (owns : τ → Prop) (t : Threads σ τ) : Prop :=
  ∀ k, owner t.shared = some k → ∃ task, t.running k = some task ∧ owns task

variable (P) in
/-- A thread gets the lock only by its own sections, and keeps it only while something is left of
its call. -/
structure Locks (owner : σ → Option ℕ) (owns : τ → Prop) : Prop where
  other : ∀ {k l s task r s'}, P.next k s task = some (r, s') → l ≠ k → owner s' = some l →
    owner s = some l
  own : ∀ {k s task r s'}, P.next k s task = some (r, s') → (owner s = some k → owns task) →
    owner s' = some k → ∃ task', r = .inr task' ∧ owns task'

variable {owner : σ → Option ℕ} {owns : τ → Prop}

theorem Locks.step (hP : P.Locks owner owns) {t : Threads σ τ} (h : Owned owner owns t)
    (e : ThreadEvent ι) : Owned owner owns (P.step t e).2 := by
  have hrunning {k : ℕ} {task : τ} (htask : t.running k = some task)
      (howner : owner t.shared = some k) : owns task := by
    obtain ⟨task₂, htask₂, howns⟩ := h k howner
    exact Option.some.inj (htask₂.symm.trans htask) ▸ howns
  have hout := P.step_outcome t e
  generalize P.step t e = result at hout
  cases hout with
  | idle => exact h
  | @started k i free =>
    intro l hl
    obtain ⟨task, htask, howns⟩ := h l hl
    have hlk : l ≠ k := by
      rintro rfl
      rw [free] at htask
      cases htask
    exact ⟨task, (Function.update_of_ne hlk _ _).trans htask, howns⟩
  | @answered k task answer shared task_eq ran =>
    intro l hl
    rcases eq_or_ne l k with rfl | hlk
    · obtain ⟨task', heq, -⟩ := hP.own ran (hrunning task_eq) hl
      cases heq
    · obtain ⟨task₂, htask, howns⟩ := h l (hP.other ran hlk hl)
      exact ⟨task₂, (Function.update_of_ne hlk _ _).trans htask, howns⟩
  | @continued k task task' shared task_eq ran =>
    intro l hl
    rcases eq_or_ne l k with rfl | hlk
    · obtain ⟨task₃, heq, howns⟩ := hP.own ran (hrunning task_eq) hl
      cases heq
      exact ⟨task', Function.update_self _ _ _, howns⟩
    · obtain ⟨task₂, htask, howns⟩ := h l (hP.other ran hlk hl)
      exact ⟨task₂, (Function.update_of_ne hlk _ _).trans htask, howns⟩

theorem Locks.final (hP : P.Locks owner owns) {t : Threads σ τ} (h : Owned owner owns t)
    (events : List (ThreadEvent ι)) : Owned owner owns (ZeroTrustFL.final P.step t events) :=
  final_invariant h (fun _ e ht => hP.step ht e) events

end Sections

end ZeroTrustFL
