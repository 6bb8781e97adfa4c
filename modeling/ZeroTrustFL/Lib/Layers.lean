import Mathlib
import ZeroTrustFL.Lib.Threads

/-!
# Calls around calls

Calls that make calls of their own on a part of the shared state.  A section of an outer call is
outside, starts an inner call, is a section of one, or is the last section of one, after which the
next one may start (`Moves`).  Then a run is, on the inner part, a run of the inner calls
(`Sections.Layer.final`).  A gate, which admits calls or turns them away, is such an outer layer.
-/

namespace ZeroTrustFL

universe u v w x u' v' w' x'

variable {σ : Type u} {τ : Type v} {ι : Type w} {ρ : Type x} {σ' : Type u'} {τ' : Type v'}
  {κ : Type w'} {ρ' : Type x'}

namespace Sections

/-- The threads of the inner calls. -/
def project (state : σ' → σ) (inner? : τ' → Option τ) (t : Threads σ' τ') : Threads σ τ :=
  ⟨state t.shared, fun k => (t.running k).bind inner?⟩

theorem project_update {state : σ' → σ} {inner? : τ' → Option τ} {t : Threads σ' τ'} {k : ℕ}
    {s : σ'} {task : Option τ'} : project state inner? ⟨s, Function.update t.running k task⟩ =
      ⟨state s, Function.update (project state inner? t).running k (task.bind inner?)⟩ := by
  simp only [project, Threads.mk.injEq, true_and]
  funext l
  rcases eq_or_ne l k with rfl | hlk
  · simp only [Function.update_self]
  · simp only [Function.update_of_ne hlk]

/-- What goes on of an inner call after a section. -/
def left? (inner? : τ' → Option τ) : ρ' ⊕ τ' → Option τ
  | .inl _ => none
  | .inr task => inner? task

/-- What a section of an outer call is to the inner calls; an inner call that it starts is one of
`A`. -/
inductive Moves (P : Sections σ τ ι ρ) (A : ι → Prop) (k : ℕ) (s s' : σ) (task left : Option τ) :
    Prop where
  | outside (away : task = none) (same : s' = s) (left_eq : left = none)
  | starts {i : ι} (away : task = none) (same : s' = s) (admitted : A i)
      (left_eq : left = some (P.start i))
  | goesOn {inner inner' : τ} (inside : task = some inner)
      (ran : P.next k s inner = some (.inr inner', s')) (left_eq : left = some inner')
  | ends {inner : τ} {answer : ρ} (inside : task = some inner)
      (ran : P.next k s inner = some (.inl answer, s')) (left_eq : left = none)
  | restarts {inner : τ} {answer : ρ} {i : ι} (inside : task = some inner)
      (ran : P.next k s inner = some (.inl answer, s')) (admitted : A i)
      (left_eq : left = some (P.start i))

theorem Moves.mono {P : Sections σ τ ι ρ} {A B : ι → Prop} {k : ℕ} {s s' : σ} {task left : Option τ}
    (h : P.Moves A k s s' task left) (hAB : ∀ i, A i → B i) : P.Moves B k s s' task left := by
  cases h with
  | outside away same left_eq => exact .outside away same left_eq
  | starts away same admitted left_eq => exact .starts away same (hAB _ admitted) left_eq
  | goesOn inside ran left_eq => exact .goesOn inside ran left_eq
  | ends inside ran left_eq => exact .ends inside ran left_eq
  | restarts inside ran admitted left_eq => exact .restarts inside ran (hAB _ admitted) left_eq

/-- A section of an outer call is a few events of the inner calls. -/
theorem Moves.events {P : Sections σ τ ι ρ} {A : ι → Prop} {k : ℕ} {t : Threads σ τ} {s' : σ}
    {left : Option τ} (h : P.Moves A k t.shared s' (t.running k) left) :
    ∃ events, (∀ l i, .call l i ∈ events → l = k ∧ A i) ∧
      ZeroTrustFL.final P.step t events = ⟨s', Function.update t.running k left⟩ := by
  have hrun : ∀ l i, .call l i ∈ [(.run k : ThreadEvent ι)] → l = k ∧ A i := fun l i hmem => by
    cases List.mem_singleton.1 hmem
  cases h with
  | outside away same left_eq =>
    refine ⟨[], fun l i hmem => (by cases hmem), ?_⟩
    rw [left_eq, ← away, Function.update_eq_self, same, final_nil]
  | @starts i away same admitted left_eq =>
    refine ⟨[.call k i], fun l j hmem => ?_, ?_⟩
    · cases List.mem_singleton.1 hmem
      exact ⟨rfl, admitted⟩
    · simp only [final_cons, final_nil, step, away, left_eq, same]
  | goesOn inside ran left_eq =>
    exact ⟨[.run k], hrun, by simp only [final_cons, final_nil, step, inside, ran, left_eq]⟩
  | ends inside ran left_eq =>
    exact ⟨[.run k], hrun, by simp only [final_cons, final_nil, step, inside, ran, left_eq]⟩
  | @restarts inner answer i inside ran admitted left_eq =>
    refine ⟨[.run k, .call k i], fun l j hmem => ?_, ?_⟩
    · rcases List.mem_cons.1 hmem with heq | hmem
      · cases heq
      · cases List.mem_singleton.1 hmem
        exact ⟨rfl, admitted⟩
    · simp only [final_cons, final_nil, step, inside, ran, left_eq, Function.update_self,
        Function.update_idem]

/-- The calls of `Q` make calls of `P`.  After `events`, a running call has `K` and an inner call
that it starts `A`. -/
structure Layer (Q : Sections σ' τ' κ ρ') (P : Sections σ τ ι ρ) (state : σ' → σ)
    (inner? : τ' → Option τ) (t₀ : Threads σ' τ') (K : List (ThreadEvent κ) → ℕ → τ' → Prop)
    (A : List (ThreadEvent κ) → ℕ → ι → Prop) : Prop where
  outside : ∀ call, inner? (Q.start call) = none
  keep : ∀ {events e k task}, K events k task → K (events ++ [e]) k task
  grow : ∀ {events e k i}, A events k i → A (events ++ [e]) k i
  start : ∀ {events k call}, K (events ++ [.call k call]) k (Q.start call)
  moves : ∀ {events k task r s'}, (ZeroTrustFL.final Q.step t₀ events).running k = some task →
    K events k task → Q.next k (ZeroTrustFL.final Q.step t₀ events).shared task = some (r, s') →
    P.Moves (A events k) k (state (ZeroTrustFL.final Q.step t₀ events).shared) (state s')
      (inner? task) (left? inner? r)
  next : ∀ {events k task task' s'}, (ZeroTrustFL.final Q.step t₀ events).running k = some task →
    K events k task →
    Q.next k (ZeroTrustFL.final Q.step t₀ events).shared task = some (.inr task', s') →
      K events k task'

variable {Q : Sections σ' τ' κ ρ'} {P : Sections σ τ ι ρ} {state : σ' → σ} {inner? : τ' → Option τ}
  {t₀ : Threads σ' τ'} {K : List (ThreadEvent κ) → ℕ → τ' → Prop}
  {A : List (ThreadEvent κ) → ℕ → ι → Prop}

/-- A run is, on the inner part, a run of inner calls that have `A`. -/
theorem Layer.final (h : Layer Q P state inner? t₀ K A)
    (hstart : ∀ k task, t₀.running k = some task → K [] k task) (events : List (ThreadEvent κ)) :
    (∃ events', (∀ k i, .call k i ∈ events' → A events k i) ∧
      ZeroTrustFL.final P.step (project state inner? t₀) events' =
        project state inner? (ZeroTrustFL.final Q.step t₀ events)) ∧
      ∀ k task, (ZeroTrustFL.final Q.step t₀ events).running k = some task → K events k task := by
  induction events using List.reverseRecOn with
  | nil => exact ⟨⟨[], fun k i hmem => (by cases hmem), rfl⟩, hstart⟩
  | append_singleton events e ih =>
    obtain ⟨⟨events', hcalls, hproject⟩, hrunning⟩ := ih
    have hmoves {k : ℕ} {task : τ'} {r : ρ' ⊕ τ'} {s' : σ'} (htask : _) (ran : _) :=
      @h.moves events k task r s' htask (hrunning k task htask) ran
    have hnext {k : ℕ} {task task' : τ'} {s' : σ'} (htask : _) (ran : _) :=
      @h.next events k task task' s' htask (hrunning k task htask) ran
    have hout := Q.step_outcome (ZeroTrustFL.final Q.step t₀ events) e
    rw [final_concat]
    generalize Q.step (ZeroTrustFL.final Q.step t₀ events) e = result at hout
    generalize ZeroTrustFL.final Q.step t₀ events = t at *
    -- a section of an outer call
    have hsection {k : ℕ} {task : τ'} {r : ρ' ⊕ τ'} {s' : σ'} (htask : t.running k = some task)
        (ran : Q.next k t.shared task = some (r, s')) {rest : Option τ'}
        (hrest : rest.bind inner? = left? inner? r) :
        ∃ events', (∀ k i, .call k i ∈ events' → A (events ++ [e]) k i) ∧
          ZeroTrustFL.final P.step (project state inner? t₀) events' =
            project state inner? ⟨s', Function.update t.running k rest⟩ := by
      have hmove := hmoves htask ran
      have hinner : (project state inner? t).running k = inner? task := by
        simp only [project, htask, Option.bind_some]
      rw [← hinner] at hmove
      obtain ⟨more, hmore, hfinal⟩ := Moves.events (t := project state inner? t) hmove
      refine ⟨events' ++ more, fun l i hmem => ?_, ?_⟩
      · rcases List.mem_append.1 hmem with hmem | hmem
        · exact h.grow (hcalls l i hmem)
        · obtain ⟨rfl, hA⟩ := hmore l i hmem
          exact h.grow hA
      · rw [final_append, hproject, hfinal, project_update, hrest]
    have hothers {k : ℕ} {rest : Option τ'} (hrest : ∀ task, rest = some task →
        K (events ++ [e]) k task) (l : ℕ)
        (task : τ') (hl : Function.update t.running k rest l = some task) :
        K (events ++ [e]) l task := by
      rcases eq_or_ne l k with rfl | hlk
      · rw [Function.update_self] at hl
        exact hrest task hl
      · rw [Function.update_of_ne hlk] at hl
        exact h.keep (hrunning l task hl)
    cases hout with
    | idle => exact ⟨⟨events', fun k i hmem => h.grow (hcalls k i hmem), hproject⟩, fun k task hk =>
        h.keep (hrunning k task hk)⟩
    | @started k call free =>
      refine ⟨⟨events', fun k i hmem => h.grow (hcalls k i hmem), ?_⟩, hothers fun task heq => ?_⟩
      · have hnone : (project state inner? t).running k = none := by
          simp only [project, free, Option.bind_none]
        rw [hproject, project_update, Option.bind_some, h.outside, ← hnone, Function.update_eq_self]
        rfl
      · cases heq
        exact h.start
    | answered task_eq ran =>
      exact ⟨hsection task_eq ran rfl, hothers fun task heq => (by cases heq)⟩
    | continued task_eq ran =>
      refine ⟨hsection task_eq ran rfl, hothers fun task heq => ?_⟩
      cases heq
      exact h.keep (hnext task_eq ran)

/-! ## Gates -/

universe z

variable {δ : Type z}

/-- The calls with a gate in front of them. -/
def gated (P : Sections σ τ ι ρ) (gate : σ → κ → Except δ ι) :
    Sections σ (κ ⊕ τ) κ (Except δ ρ) where
  start := .inl
  next k s
    | .inl call =>
      match gate s call with
      | .error denial => some (.inl (.error denial), s)
      | .ok i => some (.inr (.inr (P.start i)), s)
    | .inr task =>
      match P.next k s task with
      | none => none
      | some (.inl answer, s) => some (.inl (.ok answer), s)
      | some (.inr task, s) => some (.inr (.inr task), s)

theorem gated_moves {P : Sections σ τ ι ρ} {gate : σ → κ → Except δ ι} {A : ι → Prop} {k : ℕ}
    {s s' : σ} {task : κ ⊕ τ} {r : Except δ ρ ⊕ κ ⊕ τ}
    (ran : (P.gated gate).next k s task = some (r, s'))
    (hA : ∀ call i, task = .inl call → gate s call = .ok i → A i) :
    P.Moves A k s s' task.getRight? (left? Sum.getRight? r) ∧ ∀ call, r ≠ .inr (.inl call) := by
  rcases task with call | task <;> simp only [gated] at ran
  · rcases hgate : gate s call with denial | i <;> rw [hgate] at ran <;> cases ran
    · exact ⟨.outside rfl rfl rfl, fun call heq => (by cases heq)⟩
    · exact ⟨.starts rfl rfl (hA call i rfl hgate) rfl, fun call heq => (by cases heq)⟩
  · rcases hnext : P.next k s task with _ | ⟨answer | task', s''⟩ <;>
      rw [hnext] at ran <;> cases ran
    · exact ⟨.ends rfl hnext rfl, fun call heq => (by cases heq)⟩
    · exact ⟨.goesOn rfl hnext rfl, fun call heq => (by cases heq)⟩

/-- A call that came in on the thread was admitted as `i`, by what the gate saw of the state
then. -/
def Admitted (P : Sections σ τ ι ρ) (gate : σ → κ → Except δ ι) (s₀ : σ)
    (events : List (ThreadEvent κ)) (k : ℕ) (i : ι) : Prop :=
  ∃ earlier call, earlier <+: events ∧ .call k call ∈ earlier ∧
    gate (ZeroTrustFL.final (P.gated gate).step ⟨s₀, fun _ => none⟩ earlier).shared call = .ok i

theorem gated_layer (P : Sections σ τ ι ρ) (gate : σ → κ → Except δ ι) (s₀ : σ) :
    Layer (P.gated gate) P id Sum.getRight? ⟨s₀, fun _ => none⟩
      (fun events k task => ∀ call, task = .inl call → .call k call ∈ events)
      (P.Admitted gate s₀) where
  outside _ := rfl
  keep h call heq := List.mem_append_left _ (h call heq)
  grow := by
    rintro events e k i ⟨earlier, call, hle, hmem, hgate⟩
    exact ⟨earlier, call, hle.trans (List.prefix_append _ _), hmem, hgate⟩
  start := by
    intro events k call call' heq
    cases heq
    exact List.mem_append_right _ (List.mem_singleton_self _)
  moves := by
    intro events k task r s' htask hK ran
    exact (gated_moves ran fun call i heq hgate =>
      ⟨events, call, List.prefix_rfl, hK call heq, hgate⟩).1
  next := by
    intro events k task task' s' htask hK ran call heq
    exact absurd (congrArg _ heq)
      ((gated_moves (A := fun _ => True) ran fun _ _ _ _ => trivial).2 call)

/-- A run behind a gate is a run of admitted calls. -/
theorem gated_final (P : Sections σ τ ι ρ) (gate : σ → κ → Except δ ι) (s₀ : σ)
    (events : List (ThreadEvent κ)) :
    ∃ events', (∀ k i, .call k i ∈ events' → P.Admitted gate s₀ events k i) ∧
      (ZeroTrustFL.final P.step ⟨s₀, fun _ => none⟩ events').shared =
        (ZeroTrustFL.final (P.gated gate).step ⟨s₀, fun _ => none⟩ events).shared := by
  obtain ⟨⟨events', hcalls, hproject⟩, -⟩ := (P.gated_layer gate s₀).final
    (fun k task htask => by cases htask) events
  exact ⟨events', hcalls, congrArg Threads.shared hproject⟩

end Sections

end ZeroTrustFL
