import Mathlib

/-!
# Lanes between barriers

The lanes of a block share a memory and meet at barriers.  Between two barriers each of them runs a
short program of reads and writes.  In lock step, all lanes start from the memory at the last
barrier and their writes take effect together; `RaceFree.outcome` says that this is what every
interleaving does when no lane accesses a cell that another one writes.
-/

namespace ZeroTrustFL

variable {κ ν ρ : Type} [DecidableEq κ]

/-- What a lane does between two barriers; `done` gives its registers at the second one. -/
inductive Lane (κ ν ρ : Type) where
  | done (registers : ρ)
  | read (cell : κ) (next : ν → Lane κ ν ρ)
  | write (cell : κ) (value : ν) (next : Lane κ ν ρ)

namespace Lane

/-- The cells that a lane reads when it runs alone. -/
def reads : Lane κ ν ρ → (κ → ν) → List κ
  | done _, _ => []
  | read c next, mem => c :: (next (mem c)).reads mem
  | write c v next, mem => next.reads (Function.update mem c v)

/-- What a lane writes when it runs alone. -/
def writes : Lane κ ν ρ → (κ → ν) → List (κ × ν)
  | done _, _ => []
  | read c next, mem => (next (mem c)).writes mem
  | write c v next, mem => (c, v) :: next.writes (Function.update mem c v)

/-- The registers of a lane after it ran alone. -/
def result : Lane κ ν ρ → (κ → ν) → ρ
  | done r, _ => r
  | read c next, mem => (next (mem c)).result mem
  | write c v next, mem => next.result (Function.update mem c v)

/-- The cells that a lane writes when it runs alone. -/
def written (lane : Lane κ ν ρ) (mem : κ → ν) : List κ := (lane.writes mem).map Prod.fst

/-- A cell that a lane does not read has no influence on it. -/
theorem update_of_not_mem_reads {lane : Lane κ ν ρ} {mem : κ → ν} {c : κ} (h : c ∉ lane.reads mem)
    (v : ν) :
    lane.reads (Function.update mem c v) = lane.reads mem ∧
      lane.writes (Function.update mem c v) = lane.writes mem ∧
      lane.result (Function.update mem c v) = lane.result mem := by
  induction lane generalizing mem with
  | done r => exact ⟨rfl, rfl, rfl⟩
  | read c' next ih =>
    rw [reads, List.mem_cons, not_or] at h
    have hsame : Function.update mem c v c' = mem c' := Function.update_of_ne (Ne.symm h.1) _ _
    obtain ⟨hreads, hwrites, hresult⟩ := ih (mem c') h.2
    simp only [reads, writes, result, hsame]
    exact ⟨by rw [hreads], hwrites, hresult⟩
  | write c' v' next ih =>
    simp only [reads, writes, result]
    rcases eq_or_ne c' c with rfl | hne
    · rw [Function.update_idem]
      exact ⟨rfl, rfl, rfl⟩
    · rw [Function.update_comm hne.symm]
      obtain ⟨hreads, hwrites, hresult⟩ := ih h
      exact ⟨hreads, by rw [hwrites], hresult⟩

end Lane

/-! ## Writes -/

/-- The memory after some writes. -/
def applyWrites (writes : List (κ × ν)) (mem : κ → ν) : κ → ν :=
  writes.foldl (fun mem w => Function.update mem w.1 w.2) mem

theorem applyWrites_append (ws ws' : List (κ × ν)) (mem : κ → ν) :
    applyWrites (ws ++ ws') mem = applyWrites ws' (applyWrites ws mem) := List.foldl_append

theorem applyWrites_of_not_mem {ws : List (κ × ν)} {c : κ} (h : c ∉ ws.map Prod.fst) (mem : κ → ν) :
    applyWrites ws mem c = mem c := by
  induction ws generalizing mem with
  | nil => rfl
  | cons w ws ih =>
    rw [List.map_cons, List.mem_cons, not_or] at h
    exact (ih h.2 _).trans (Function.update_of_ne h.1 _ _)

/-- The last write to a cell hides what it held. -/
theorem applyWrites_of_mem {ws : List (κ × ν)} {c : κ} (h : c ∈ ws.map Prod.fst)
    (mem mem' : κ → ν) : applyWrites ws mem c = applyWrites ws mem' c := by
  induction ws generalizing mem mem' with
  | nil => exact absurd h List.not_mem_nil
  | cons w ws ih =>
    by_cases hc : c ∈ ws.map Prod.fst
    · exact ih hc _ _
    · obtain rfl : c = w.1 := (List.mem_cons.1 h).resolve_right hc
      change applyWrites ws (Function.update mem w.1 w.2) w.1 = applyWrites ws
        (Function.update mem' w.1 w.2) w.1
      rw [applyWrites_of_not_mem hc, applyWrites_of_not_mem hc, Function.update_self,
        Function.update_self]

/-! ## Lock step -/

section LockStep

variable {n : ℕ} {lanes : ℕ → Lane κ ν ρ} {mem : κ → ν} {c : κ}

/-- The writes of the first `n` lanes. -/
def laneWrites (n : ℕ) (lanes : ℕ → Lane κ ν ρ) (mem : κ → ν) : List (κ × ν) :=
  (List.range n).flatMap fun i => (lanes i).writes mem

/-- The memory after the first `n` lanes ran in lock step. -/
def lockStep (n : ℕ) (lanes : ℕ → Lane κ ν ρ) (mem : κ → ν) : κ → ν :=
  applyWrites (laneWrites n lanes mem) mem

/-- No lane accesses a cell that another lane writes. -/
def RaceFree (n : ℕ) (lanes : ℕ → Lane κ ν ρ) (mem : κ → ν) : Prop :=
  ∀ i < n, ∀ j < n, i ≠ j → ∀ c ∈ (lanes i).written mem, c ∉ (lanes j).reads mem ∧
    c ∉ (lanes j).written mem

theorem mem_laneWrites {w : κ × ν} :
    w ∈ laneWrites n lanes mem ↔ ∃ i < n, w ∈ (lanes i).writes mem := by
  simp [laneWrites]

theorem laneWrites_succ :
    laneWrites (n + 1) lanes mem = laneWrites n lanes mem ++ (lanes n).writes mem := by
  simp [laneWrites, List.range_succ]

/-- When only the first lane writes, its writes are all there are. -/
theorem laneWrites_of_first (hn : 0 < n) (h : ∀ i, i ≠ 0 → (lanes i).writes mem = []) :
    laneWrites n lanes mem = (lanes 0).writes mem := by
  induction n, hn using Nat.le_induction with
  | base => simp [laneWrites]
  | succ n hn ih => rw [laneWrites_succ, ih, h n (by omega), List.append_nil]

theorem lockStep_of_unwritten (h : ∀ i < n, c ∉ (lanes i).written mem) :
    lockStep n lanes mem c = mem c := by
  refine applyWrites_of_not_mem (fun hc => ?_) mem
  obtain ⟨w, hw, rfl⟩ := List.mem_map.1 hc
  obtain ⟨i, hi, hw⟩ := mem_laneWrites.1 hw
  exact h i hi (List.mem_map_of_mem hw)

/-- A cell that only one lane may write holds what the lane leaves there. -/
theorem lockStep_of_only {i : ℕ} (hi : i < n) (h : ∀ j < n, j ≠ i → c ∉ (lanes j).written mem) :
    lockStep n lanes mem c = applyWrites ((lanes i).writes mem) mem c := by
  induction n with
  | zero => exact absurd hi (Nat.not_lt_zero i)
  | succ n ih =>
    have hsucc : lockStep (n + 1) lanes mem = applyWrites ((lanes n).writes mem)
        (lockStep n lanes mem) := by
      rw [lockStep, laneWrites_succ, applyWrites_append]
      rfl
    rw [hsucc]
    rcases Nat.lt_succ_iff_lt_or_eq.1 hi with hlt | rfl
    · rw [applyWrites_of_not_mem (h n (Nat.lt_succ_self n) (by omega))]
      exact ih hlt fun j hj => h j (by omega)
    · by_cases hc : c ∈ (lanes i).written mem
      · exact applyWrites_of_mem hc _ _
      · rw [applyWrites_of_not_mem hc, applyWrites_of_not_mem hc]
        exact lockStep_of_unwritten fun j hj => h j (by omega) (by omega)

end LockStep

/-! ## Interleavings -/

/-- One of the first `n` lanes makes its next access. -/
inductive LaneStep (n : ℕ) : (ℕ → Lane κ ν ρ) × (κ → ν) → (ℕ → Lane κ ν ρ) × (κ → ν) → Prop where
  | read {lanes : ℕ → Lane κ ν ρ} {mem : κ → ν} {i : ℕ} {c : κ} {next : ν → Lane κ ν ρ} (hi : i < n)
      (h : lanes i = .read c next) :
      LaneStep n (lanes, mem) (Function.update lanes i (next (mem c)), mem)
  | write {lanes : ℕ → Lane κ ν ρ} {mem : κ → ν} {i : ℕ} {c : κ} {v : ν} {next : Lane κ ν ρ}
      (hi : i < n) (h : lanes i = .write c v next) :
      LaneStep n (lanes, mem) (Function.update lanes i next, Function.update mem c v)

/-- The lanes will end in the same way after some accesses as before them. -/
structure SameOutcome (n : ℕ) (lanes : ℕ → Lane κ ν ρ) (mem : κ → ν) (lanes' : ℕ → Lane κ ν ρ)
    (mem' : κ → ν) : Prop where
  raceFree : RaceFree n lanes' mem'
  memory : lockStep n lanes' mem' = lockStep n lanes mem
  result : ∀ i < n, (lanes' i).result mem' = (lanes i).result mem

section Interleaving

variable {n : ℕ} {lanes : ℕ → Lane κ ν ρ} {mem : κ → ν}

variable {lanes' : ℕ → Lane κ ν ρ} {mem' : κ → ν} {i : ℕ}

/-- Fewer accesses cause no race. -/
theorem RaceFree.mono (h : RaceFree n lanes mem)
    (hreads : ∀ i < n, (lanes' i).reads mem' ⊆ (lanes i).reads mem)
    (hwritten : ∀ i < n, (lanes' i).written mem' ⊆ (lanes i).written mem) :
    RaceFree n lanes' mem' := by
  intro i hi j hj hij c hc
  obtain ⟨hread, hwrite⟩ := h i hi j hj hij c (hwritten i hi hc)
  exact ⟨fun h => hread (hreads j hj h), fun h => hwrite (hwritten j hj h)⟩

/-- There is no race when every lane keeps to cells of its own. -/
theorem raceFree_of_disjoint (own : ℕ → κ → Prop)
    (hreads : ∀ i < n, ∀ c ∈ (lanes i).reads mem, own i c)
    (hwritten : ∀ i < n, ∀ c ∈ (lanes i).written mem, own i c)
    (hdisjoint : ∀ i < n, ∀ j < n, i ≠ j → ∀ c, own i c → ¬ own j c) : RaceFree n lanes mem := by
  intro i hi j hj hij c hc
  have hfree := hdisjoint i hi j hj hij c (hwritten i hi c hc)
  exact ⟨fun h => hfree (hreads j hj c h), fun h => hfree (hwritten j hj c h)⟩

/-- Two descriptions of the lanes write the same memory when they do so lane by lane. -/
theorem lockStep_congr (h : RaceFree n lanes mem) (hi : i < n)
    (hwritten : ∀ j < n, (lanes' j).written mem' ⊆ (lanes j).written mem)
    (hsame : applyWrites ((lanes' i).writes mem') mem' = applyWrites ((lanes i).writes mem) mem)
    (hothers : ∀ j < n, j ≠ i → (lanes' j).writes mem' = (lanes j).writes mem) :
    lockStep n lanes' mem' = lockStep n lanes mem := by
  funext c
  by_cases hc : ∃ k < n, k ≠ i ∧ c ∈ (lanes k).written mem
  · -- another lane writes the cell
    obtain ⟨k, hk, hki, hc⟩ := hc
    have honly (j : ℕ) (hj : j < n) (hjk : j ≠ k) : c ∉ (lanes j).written mem := fun hcj =>
      (h j hj k hk hjk c hcj).2 hc
    rw [lockStep_of_only hk honly,
      lockStep_of_only hk fun j hj hjk hcj => honly j hj hjk (hwritten j hj hcj), hothers k hk hki]
    exact applyWrites_of_mem hc _ _
  · push Not at hc
    rw [lockStep_of_only hi hc,
      lockStep_of_only hi fun j hj hji hcj => hc j hj hji (hwritten j hj hcj), hsame]

theorem RaceFree.read (h : RaceFree n lanes mem) {c : κ} {next : ν → Lane κ ν ρ}
    (hlane : lanes i = .read c next) :
    SameOutcome n lanes mem (Function.update lanes i (next (mem c))) mem := by
  have hself : Function.update lanes i (next (mem c)) i = next (mem c) := Function.update_self ..
  have hother (j : ℕ) (hj : j ≠ i) : Function.update lanes i (next (mem c)) j = lanes j :=
    Function.update_of_ne hj _ _
  have hwrites (j : ℕ) : (Function.update lanes i (next (mem c)) j).writes mem =
      (lanes j).writes mem := by
    rcases eq_or_ne j i with rfl | hj
    · rw [hself, hlane, Lane.writes]
    · rw [hother j hj]
  refine ⟨h.mono (fun j _ => ?_) fun j _ => ?_, ?_, fun j _ => ?_⟩
  · rcases eq_or_ne j i with rfl | hj
    · rw [hself, hlane]
      exact List.subset_cons_self _ _
    · rw [hother j hj]
      exact List.Subset.refl _
  · rw [Lane.written, Lane.written, hwrites]
    exact List.Subset.refl _
  · simp only [lockStep, laneWrites, hwrites]
  · rcases eq_or_ne j i with rfl | hj
    · rw [hself, hlane, Lane.result]
    · rw [hother j hj]

theorem RaceFree.write (h : RaceFree n lanes mem) {c : κ} {v : ν} {next : Lane κ ν ρ} (hi : i < n)
    (hlane : lanes i = .write c v next) :
    SameOutcome n lanes mem (Function.update lanes i next) (Function.update mem c v) := by
  have hself : Function.update lanes i next i = next := Function.update_self ..
  have hother (j : ℕ) (hj : j ≠ i) : Function.update lanes i next j = lanes j :=
    Function.update_of_ne hj _ _
  -- the others do not read the cell
  have hunread (j : ℕ) (hj : j < n) (hji : j ≠ i) := by
    refine @Lane.update_of_not_mem_reads _ _ _ _ (lanes j) mem c (h i hi j hj hji.symm c ?_).1 v
    rw [hlane]
    exact List.mem_cons_self
  have hwrites (j : ℕ) (hj : j < n) (hji : j ≠ i) :
      (Function.update lanes i next j).writes (Function.update mem c v) = (lanes j).writes mem := by
    rw [hother j hji, (hunread j hj hji).2.1]
  have hwritten (j : ℕ) (hj : j < n) :
      (Function.update lanes i next j).written (Function.update mem c v) ⊆
        (lanes j).written mem := by
    rcases eq_or_ne j i with rfl | hji
    · rw [hself, hlane]
      exact List.subset_cons_self _ _
    · rw [Lane.written, Lane.written, hwrites j hj hji]
      exact List.Subset.refl _
  refine ⟨h.mono (fun j hj => ?_) hwritten, lockStep_congr h hi hwritten ?_ hwrites, fun j hj => ?_⟩
  · rcases eq_or_ne j i with rfl | hji
    · rw [hself, hlane]
      exact List.Subset.refl _
    · rw [hother j hji, (hunread j hj hji).1]
      exact List.Subset.refl _
  · rw [hself, hlane]
    rfl
  · rcases eq_or_ne j i with rfl | hji
    · rw [hself, hlane, Lane.result]
    · rw [hother j hji, (hunread j hj hji).2.2]

/-- One access changes neither what the lanes will have written nor their registers. -/
theorem RaceFree.step (h : RaceFree n lanes mem) {after : (ℕ → Lane κ ν ρ) × (κ → ν)}
    (hstep : LaneStep n (lanes, mem) after) : SameOutcome n lanes mem after.1 after.2 := by
  cases hstep with
  | read hi hlane => exact h.read hlane
  | write hi hlane => exact h.write hi hlane

/-- Every interleaving of lanes without races that runs to the end does what lock step does. -/
theorem RaceFree.outcome (h : RaceFree n lanes mem)
    (hsteps : Relation.ReflTransGen (LaneStep n) (lanes, mem) (lanes', mem'))
    (hdone : ∀ i < n, ∃ r, lanes' i = .done r) :
    mem' = lockStep n lanes mem ∧ ∀ i < n, lanes' i = .done ((lanes i).result mem) := by
  have hsame : SameOutcome n lanes mem lanes' mem' := by
    change SameOutcome n lanes mem (lanes', mem').1 (lanes', mem').2
    generalize (lanes', mem') = after at hsteps
    induction hsteps with
    | refl => exact ⟨h, rfl, fun _ _ => rfl⟩
    | tail _ hstep ih =>
      have hnext := ih.raceFree.step hstep
      exact ⟨hnext.raceFree, hnext.memory.trans ih.memory, fun i hi =>
        (hnext.result i hi).trans (ih.result i hi)⟩
  constructor
  · rw [← hsame.memory]
    funext c
    refine (lockStep_of_unwritten fun i hi hc => ?_).symm
    obtain ⟨r, hr⟩ := hdone i hi
    rw [hr] at hc
    exact absurd hc List.not_mem_nil
  · intro i hi
    obtain ⟨r, hr⟩ := hdone i hi
    have hresult := hsame.result i hi
    simp only [hr] at hresult
    rw [hr, ← hresult]
    rfl

end Interleaving

/-! ## Blocks -/

/-- What each lane does from one barrier to the next, given its registers. -/
abbrev Phase (κ ν ρ : Type) := ℕ → ρ → Lane κ ν ρ

/-- The memory of a block and the registers of its lanes, at a barrier. -/
structure BlockState (κ ν ρ : Type) where
  mem : κ → ν
  registers : ℕ → ρ

/-- The lanes of a phase. -/
def Phase.lanes (phase : Phase κ ν ρ) (s : BlockState κ ν ρ) (i : ℕ) : Lane κ ν ρ :=
  phase i (s.registers i)

/-- The first `n` lanes run a phase in lock step. -/
def Phase.step (n : ℕ) (phase : Phase κ ν ρ) (s : BlockState κ ν ρ) : BlockState κ ν ρ where
  mem := lockStep n (phase.lanes s) s.mem
  registers i := (phase.lanes s i).result s.mem

/-- A block of `n` lanes runs its phases in lock step. -/
def runPhases (n : ℕ) (phases : List (Phase κ ν ρ)) (s : BlockState κ ν ρ) : BlockState κ ν ρ :=
  phases.foldl (fun s phase => phase.step n s) s

/-- All that a block writes. -/
def phaseWrites (n : ℕ) : List (Phase κ ν ρ) → BlockState κ ν ρ → List (κ × ν)
  | [], _ => []
  | phase :: phases, s => laneWrites n (phase.lanes s) s.mem ++ phaseWrites n phases
      (phase.step n s)

/-- No phase of the run of a block has a race. -/
def RaceFreeRun (n : ℕ) : List (Phase κ ν ρ) → BlockState κ ν ρ → Prop
  | [], _ => True
  | phase :: phases, s => RaceFree n (phase.lanes s) s.mem ∧ RaceFreeRun n phases (phase.step n s)

/-- The block runs its phases with any interleaving of its lanes between the barriers. -/
inductive Schedule (n : ℕ) : List (Phase κ ν ρ) → BlockState κ ν ρ → BlockState κ ν ρ → Prop where
  | nil {s : BlockState κ ν ρ} : Schedule n [] s s
  | cons {phase : Phase κ ν ρ} {phases : List (Phase κ ν ρ)} {s s' : BlockState κ ν ρ}
      {lanes : ℕ → Lane κ ν ρ} {mem : κ → ν} {registers : ℕ → ρ}
      (steps : Relation.ReflTransGen (LaneStep n) (phase.lanes s, s.mem) (lanes, mem))
      (done : ∀ i < n, lanes i = .done (registers i))
      (rest : Schedule n phases ⟨mem, registers⟩ s') : Schedule n (phase :: phases) s s'

section Blocks

variable {n : ℕ} {phases : List (Phase κ ν ρ)} {s s' : BlockState κ ν ρ}

theorem runPhases_append (phases phases' : List (Phase κ ν ρ)) (s : BlockState κ ν ρ) :
    runPhases n (phases ++ phases') s = runPhases n phases' (runPhases n phases s) :=
      List.foldl_append

theorem phaseWrites_append (phases phases' : List (Phase κ ν ρ)) (s : BlockState κ ν ρ) :
    phaseWrites n (phases ++ phases') s = phaseWrites n phases s ++ phaseWrites n phases'
      (runPhases n phases s) := by
  induction phases generalizing s with
  | nil => rfl
  | cons phase phases ih =>
    rw [List.cons_append, phaseWrites, phaseWrites, ih, List.append_assoc]
    rfl

/-- A property of the writes of every phase is one of all writes. -/
theorem forall_phaseWrites {P : κ × ν → Prop}
    (h : ∀ phase ∈ phases, ∀ s, ∀ w ∈ laneWrites n (phase.lanes s) s.mem, P w)
    (s : BlockState κ ν ρ) : ∀ w ∈ phaseWrites n phases s, P w := by
  induction phases generalizing s with
  | nil => exact fun w hw => absurd hw List.not_mem_nil
  | cons phase phases ih =>
    intro w hw
    rcases List.mem_append.1 hw with hw | hw
    · exact h phase List.mem_cons_self s w hw
    · exact ih (fun phase hphase => h phase (List.mem_cons_of_mem _ hphase)) _ w hw

theorem raceFreeRun_of_forall (h : ∀ phase ∈ phases, ∀ s, RaceFree n (phase.lanes s) s.mem)
    (s : BlockState κ ν ρ) : RaceFreeRun n phases s := by
  induction phases generalizing s with
  | nil => trivial
  | cons phase phases ih =>
    exact ⟨h phase List.mem_cons_self s,
      ih (fun phase hphase => h phase (List.mem_cons_of_mem _ hphase)) _⟩

/-- The states agree for the first `n` lanes. -/
def SameState (n : ℕ) (s s' : BlockState κ ν ρ) : Prop :=
  s.mem = s'.mem ∧ ∀ i < n, s.registers i = s'.registers i

/-- Without races, the result does not depend on the schedule. -/
theorem Schedule.outcome (hrun : Schedule n phases s s')
    (hfree : ∀ phase ∈ phases, ∀ s, RaceFree n (phase.lanes s) s.mem) {t : BlockState κ ν ρ}
    (hsame : SameState n s t) : SameState n s' (runPhases n phases t) := by
  induction hrun generalizing t with
  | nil => exact hsame
  | @cons phase phases s s' lanes mem registers steps done rest ih =>
    obtain ⟨hmem, hresult⟩ := (hfree phase List.mem_cons_self s).outcome steps fun i hi =>
      ⟨_, done i hi⟩
    have hlanes (i : ℕ) (hi : i < n) : phase.lanes s i = phase.lanes t i := by
      rw [Phase.lanes, Phase.lanes, hsame.2 i hi]
    refine ih (fun phase hphase => hfree phase (List.mem_cons_of_mem _ hphase)) ⟨?_, fun i hi => ?_⟩
    · have hwrites : laneWrites n (phase.lanes s) s.mem = laneWrites n (phase.lanes t) t.mem := by
        rw [hsame.1]
        exact List.flatMap_congr fun i hi => by rw [hlanes i (List.mem_range.1 hi)]
      change mem = applyWrites (laneWrites n (phase.lanes t) t.mem) t.mem
      rw [hmem, lockStep, hwrites, hsame.1]
    · have hdone := (done i hi).symm.trans (hresult i hi)
      rw [hlanes i hi, hsame.1] at hdone
      exact Lane.done.inj hdone

end Blocks

end ZeroTrustFL
