import Mathlib
import ZeroTrustFL.Simulation.Protocol

/-!
# Safety of the rounds

A worker has at most one command outstanding: in its queue, in execution, or answered by a result
that is still on its way.  While the coordinator does not count a live worker as busy, there is
none.  Everything outstanding belongs to a round that was started with the worker among its clients,
and no two rounds have the same number.
-/

namespace ZeroTrustFL

namespace Simulation

variable {Params Update : Type}

/-! ## Outstanding commands -/

def Command.isTrain : Command Params → Bool
  | .train _ => true
  | .stop => false

def WorkerPhase.load : WorkerPhase Params → ℕ
  | .training _ => 1
  | .waiting | .exited => 0

namespace System

/-- The commands of a worker that are queued, in execution, or answered by a result on its way. -/
def outstanding (s : System Params Update) (node : String) : ℕ :=
  (s.commandQueues node).countP Command.isTrain + (s.workers node).load + (s.inFlight node).length

/-- The command belongs to a round that selected the worker. -/
def Issued (s : System Params Update) (node : String) (command : TrainCommand Params) : Prop :=
  ∃ round ∈ s.started, round.roundID = command.roundID ∧
    round.globalParameters = command.globalParameters ∧ node ∈ round.selected

end System

/-- A result that a worker made of a command. -/
structure Message.IsFrom (message : Message Params Update) (node : String) : Prop where
  worker : message.worker = node
  nodeID : message.result.nodeID = node
  roundID : message.result.roundID = message.command.roundID

/-- A result of a round: its worker was selected and trained on the parameters that the round
sent. -/
structure Message.BelongsTo (message : Message Params Update) (round : RoundStart Params) :
    Prop where
  worker : message.worker = message.result.nodeID
  selected : message.result.nodeID ∈ round.selected
  roundID : message.command.roundID = round.roundID
  globalParameters : message.command.globalParameters = round.globalParameters

/-- What holds of the variables of `_collect_round_results`. -/
structure Collected.Sound (collected : Collected Params Update) (round : RoundStart Params) :
    Prop where
  results : ∀ message ∈ collected.results, message.BelongsTo round
  distinct : (collected.results.map fun message => message.result.nodeID).Nodup
  failures : ∀ node ∈ collected.failures, node ∈ round.selected ∧
    node ∉ collected.results.map fun message => message.result.nodeID
  observed : ∀ node, node ∈ collected.observed ↔
    node ∈ collected.failures ∨ node ∈ collected.results.map fun message => message.result.nodeID

/-- The clients of a round are completed, failed and straggling ones. -/
structure RoundMetrics.Partition (metrics : RoundMetrics) : Prop where
  selected_nodup : metrics.selectedClients.Nodup
  completed_nodup : metrics.completedClients.Nodup
  completed_failed : ∀ node ∈ metrics.completedClients, node ∉ metrics.failedClients
  completed_straggler : ∀ node ∈ metrics.completedClients, node ∉ metrics.stragglerClients
  failed_straggler : ∀ node ∈ metrics.failedClients, node ∉ metrics.stragglerClients
  union : ∀ node, node ∈ metrics.selectedClients ↔
    node ∈ metrics.completedClients ∨ node ∈ metrics.failedClients ∨ node ∈ metrics.stragglerClients

namespace Collected.Sound

variable {collected : Collected Params Update} {round : RoundStart Params}

theorem empty (round : RoundStart Params) :
    Collected.Sound (⟨[], ∅, ∅⟩ : Collected Params Update) round :=
  ⟨fun _ h => absurd h List.not_mem_nil, List.nodup_nil, fun _ h =>
    absurd h (Finset.notMem_empty _), fun node => by simp⟩

theorem complete (h : collected.Sound round) {message : Message Params Update}
    (hbelongs : message.BelongsTo round) (hnew : message.result.nodeID ∉ collected.observed) :
    { collected with
      results := collected.results ++ [message]
      observed := insert message.result.nodeID collected.observed }.Sound round := by
  rw [h.observed, not_or] at hnew
  refine ⟨fun other hother => ?_, ?_, fun node hnode => ?_, fun node => ?_⟩
  · rcases List.mem_append.1 hother with hother | hother
    · exact h.results other hother
    · rwa [List.mem_singleton.1 hother]
  · rw [List.map_append]
    refine List.nodup_append.2 ⟨h.distinct, List.nodup_singleton _, fun a ha b hb hab => ?_⟩
    rw [hab, List.mem_singleton.1 hb] at ha
    exact hnew.2 ha
  · obtain ⟨hselected, hresults⟩ := h.failures node hnode
    refine ⟨hselected, fun hmem => ?_⟩
    rw [List.map_append] at hmem
    rcases List.mem_append.1 hmem with hmem | hmem
    · exact hresults hmem
    · rw [List.mem_singleton.1 hmem] at hnode
      exact hnew.1 hnode
  · rw [Finset.mem_insert, h.observed, List.map_append, List.mem_append, List.map_singleton,
      List.mem_singleton]
    tauto

/-- Nodes of the round that have not been observed fail. -/
theorem fail (h : collected.Sound round) {nodes : Finset String}
    (hselected : ∀ node ∈ nodes, node ∈ round.selected ∧ node ∉ collected.observed) :
    { collected with
      failures := collected.failures ∪ nodes
      observed := collected.observed ∪ nodes }.Sound round := by
  refine ⟨h.results, h.distinct, fun node hnode => ?_, fun node => ?_⟩
  · rcases Finset.mem_union.1 hnode with hnode | hnode
    · exact h.failures node hnode
    · refine ⟨(hselected node hnode).1, fun hmem => (hselected node hnode).2 ?_⟩
      exact (h.observed node).2 (.inr hmem)
  · rw [Finset.mem_union, h.observed, Finset.mem_union]
    tauto

end Collected.Sound

namespace System

/-! ## The invariant -/

/-- All rounds that were started have smaller numbers. -/
def Before (s : System Params Update) (roundID : ℕ) : Prop :=
  ∀ round ∈ s.started, round.roundID < roundID

/-- The round is the one that was started last. -/
structure Current (s : System Params Update) (round : RoundStart Params) : Prop where
  mem : round ∈ s.started
  nodup : round.selected.Nodup
  last : ∀ other ∈ s.started, other.roundID ≤ round.roundID

/-- The nodes are distinct and nothing is outstanding for them. -/
def Free (s : System Params Update) (nodes : List String) : Prop :=
  nodes.Nodup ∧ ∀ node ∈ nodes, s.outstanding node = 0

def NoStop (s : System Params Update) : Prop := ∀ node, Command.stop ∉ s.commandQueues node

/-- What holds where the coordinator is. -/
def PhaseSound (s : System Params Update) : Phase Params Update → Prop
  | .drain roundID => s.NoStop ∧ s.Before roundID
  | .waitDrain roundID _ _ => s.NoStop ∧ s.Before roundID
  | .scanAvailable roundID _ _ remaining available =>
    s.NoStop ∧ s.Before roundID ∧ s.Free available ∧ (available ++ remaining).Nodup
  | .scanDead roundID _ _ available _ _ => s.NoStop ∧ s.Before roundID ∧ s.Free available
  | .checkDeadline roundID _ _ available _ => s.NoStop ∧ s.Before roundID ∧ s.Free available
  | .choose roundID _ available => s.NoStop ∧ s.Before roundID ∧ s.Free available
  | .send round remaining => s.NoStop ∧ s.Current round ∧ s.Free remaining ∧ ∀ node ∈ remaining,
      node ∈ round.selected
  | .collect round _ collected => s.NoStop ∧ s.Current round ∧ collected.Sound round
  | .receive round _ collected => s.NoStop ∧ s.Current round ∧ collected.Sound round
  | .scanLost round _ collected remaining dead =>
    s.NoStop ∧ s.Current round ∧ collected.Sound round ∧
      (∀ node ∈ remaining, node ∈ round.selected ∧ node ∉ collected.observed) ∧
      ∀ node ∈ dead, node ∈ round.selected ∧ node ∉ collected.observed ∧ s.isAlive node = false
  | .finish round _ collected => s.NoStop ∧ s.Current round ∧ collected.Sound round
  | .closing _ _ => True
  | .closed _ => True

structure Sound (s : System Params Update) : Prop where
  single : ∀ node, s.outstanding node ≤ 1
  idle : ∀ node, s.isAlive node = true → s.busyRound node = none → s.outstanding node = 0
  queued : ∀ node command, .train command ∈ s.commandQueues node → s.Issued node command
  training : ∀ node command, s.workers node = .training command → s.Issued node command
  flying : ∀ node, ∀ message ∈ s.inFlight node, message.IsFrom node ∧ s.Issued node message.command
  distinct : (s.started.map RoundStart.roundID).Nodup
  aggregated : ∀ entry ∈ s.aggregated, entry.1 ∈ s.started ∧
    (∀ message ∈ entry.2, message.BelongsTo entry.1) ∧
    (entry.2.map fun message => message.result.nodeID).Nodup
  history : ∀ metrics ∈ s.history, metrics.Partition ∧ ∃ round ∈ s.started,
    round.roundID = metrics.roundID ∧ round.selected = metrics.selectedClients
  phase : s.PhaseSound s.phase

section Frame

variable {s s' : System Params Update}

/-- What the coordinator relies on stays when less is outstanding and fewer workers are alive. -/
theorem PhaseSound.mono (hstarted : s'.started = s.started)
    (hout : ∀ node, s'.outstanding node ≤ s.outstanding node)
    (halive : ∀ node, s.isAlive node = false → s'.isAlive node = false)
    (hstop : s.NoStop → s'.NoStop) {phase : Phase Params Update} (h : s.PhaseSound phase) :
    s'.PhaseSound phase := by
  have hbefore {roundID : ℕ} (h : s.Before roundID) : s'.Before roundID := by rwa [Before, hstarted]
  have hcurrent {round : RoundStart Params} (h : s.Current round) : s'.Current round :=
    ⟨hstarted ▸ h.mem, h.nodup, hstarted ▸ h.last⟩
  have hfree {nodes : List String} (h : s.Free nodes) : s'.Free nodes :=
    ⟨h.1, fun node hnode => Nat.le_zero.1 (h.2 node hnode ▸ hout node)⟩
  cases phase with
  | drain | waitDrain => exact ⟨hstop h.1, hbefore h.2⟩
  | scanAvailable => exact ⟨hstop h.1, hbefore h.2.1, hfree h.2.2.1, h.2.2.2⟩
  | scanDead | checkDeadline | choose => exact ⟨hstop h.1, hbefore h.2.1, hfree h.2.2⟩
  | send => exact ⟨hstop h.1, hcurrent h.2.1, hfree h.2.2.1, h.2.2.2⟩
  | collect | receive | finish => exact ⟨hstop h.1, hcurrent h.2.1, h.2.2⟩
  | scanLost =>
    obtain ⟨h₁, h₂, h₃, h₄, h₅⟩ := h
    exact ⟨hstop h₁, hcurrent h₂, h₃, h₄, fun node hnode =>
      ⟨(h₅ node hnode).1, (h₅ node hnode).2.1, halive node (h₅ node hnode).2.2⟩⟩
  | closing | closed => trivial

theorem PhaseSound.congr {phase : Phase Params Update} (h : s.PhaseSound phase)
    (hphase : s'.phase = phase) (hworkers : s'.workers = s.workers)
    (hqueues : s'.commandQueues = s.commandQueues) (hflight : s'.inFlight = s.inFlight)
    (hstarted : s'.started = s.started) : s'.PhaseSound s'.phase := by
  rw [hphase]
  refine h.mono hstarted (fun node => ?_) (fun node hdead => ?_) fun hstop => ?_
  · rw [outstanding, outstanding, hworkers, hqueues, hflight]
  · rwa [isAlive, hworkers]
  · rwa [NoStop, hqueues]

theorem Issued.congr (hstarted : s'.started = s.started) {node : String}
    {command : TrainCommand Params} (h : s.Issued node command) :
    s'.Issued node command := by rwa [Issued, hstarted]

/-- A step that concerns one worker keeps the invariant when it makes nothing outstanding and frees
a live worker only when nothing is. -/
theorem Sound.worker (h : s.Sound) (node : String) (hphase : s'.phase = s.phase)
    (hbusy : ∀ other, s'.isAlive other = true → s'.busyRound other = none →
      s.busyRound other = none ∨ s'.outstanding other = 0) (hstarted : s'.started = s.started)
    (haggregated : s'.aggregated = s.aggregated) (hhistory : s'.history = s.history)
    (hother : ∀ other ≠ node, s'.workers other = s.workers other ∧
      s'.commandQueues other = s.commandQueues other ∧
      s'.inFlight other = s.inFlight other) (hout : s'.outstanding node ≤ s.outstanding node)
    (halive : s.isAlive node = false → s'.isAlive node = false)
    (hqueued : s'.commandQueues node ⊆ s.commandQueues node)
    (htraining : ∀ command, s'.workers node = .training command → s.Issued node command)
    (hflying : ∀ message ∈ s'.inFlight node, message.IsFrom node ∧ s.Issued node message.command) :
    s'.Sound := by
  have hout' (other : String) : s'.outstanding other ≤ s.outstanding other := by
    rcases eq_or_ne other node with rfl | hne
    · exact hout
    · obtain ⟨h₁, h₂, h₃⟩ := hother other hne
      rw [outstanding, outstanding, h₁, h₂, h₃]
  have halive' (other : String) (hdead : s.isAlive other = false) : s'.isAlive other = false := by
    rcases eq_or_ne other node with rfl | hne
    · exact halive hdead
    · rwa [isAlive, (hother other hne).1]
  have hqueued' (other : String) : s'.commandQueues other ⊆ s.commandQueues other := by
    rcases eq_or_ne other node with rfl | hne
    · exact hqueued
    · rw [(hother other hne).2.1]
      exact List.Subset.refl _
  constructor
  · exact fun other => (hout' other).trans (h.single other)
  · intro other hlive hfree
    rcases hbusy other hlive hfree with hfree | hzero
    · refine Nat.le_zero.1 ((hout' other).trans (h.idle other ?_ hfree).le)
      by_contra hdead
      rw [halive' other (Bool.eq_false_of_not_eq_true hdead)] at hlive
      cases hlive
    · exact hzero
  · exact fun other command hmem => (h.queued other command (hqueued' other hmem)).congr hstarted
  · intro other command htrain
    rcases eq_or_ne other node with rfl | hne
    · exact (htraining command htrain).congr hstarted
    · exact (h.training other command ((hother other hne).1 ▸ htrain)).congr hstarted
  · intro other message hmem
    rcases eq_or_ne other node with rfl | hne
    · exact ⟨(hflying message hmem).1, (hflying message hmem).2.congr hstarted⟩
    · obtain ⟨hfrom, hissued⟩ := h.flying other message ((hother other hne).2.2 ▸ hmem)
      exact ⟨hfrom, hissued.congr hstarted⟩
  · rw [hstarted]
    exact h.distinct
  · rw [haggregated, hstarted]
    exact h.aggregated
  · rw [hhistory, hstarted]
    exact h.history
  · rw [hphase]
    exact h.phase.mono hstarted hout' halive' fun hstop other hmem =>
      hstop other (hqueued' other hmem)

end Frame

/-! ## Steps of a worker -/

section Workers

variable {s : System Params Update}

theorem Sound.take (h : s.Sound) (node : String) : (s.take node).Sound := by
  unfold System.take
  split
  · rename_i command rest hworker hqueue
    refine h.worker node rfl (fun _ _ => .inl) rfl rfl rfl (fun other hne => ?_) ?_ (fun hdead =>
      ?_) ?_ (fun c hc => ?_) ?_
    · simp only [Function.update_of_ne hne, and_self]
    · simp only [outstanding, Function.update_self, hworker, hqueue, WorkerPhase.load,
        List.countP_cons, Command.isTrain]
      simp only [if_true]
      omega
    · rw [isAlive, hworker] at hdead
      cases hdead
    · simp only [Function.update_self, hqueue]
      exact List.subset_cons_self _ _
    · simp only [Function.update_self] at hc
      cases hc
      exact h.queued node command (hqueue ▸ List.mem_cons_self)
    · exact h.flying node
  · rename_i rest hworker hqueue
    refine h.worker node rfl (fun _ _ => .inl) rfl rfl rfl (fun other hne => ?_) ?_ (fun hdead =>
      ?_) ?_ (fun c hc => ?_) ?_
    · simp only [Function.update_of_ne hne, and_self]
    · simp only [outstanding, Function.update_self, hworker, hqueue, WorkerPhase.load,
        List.countP_cons]
      omega
    · simp only [isAlive, Function.update_self]
    · simp only [Function.update_self, hqueue]
      exact List.subset_cons_self _ _
    · simp only [Function.update_self] at hc
      cases hc
    · exact h.flying node
  · exact h

theorem Sound.finish (h : s.Sound) (node : String) (outcome : Except String Update) :
    (s.finish node outcome).Sound := by
  unfold System.finish
  split
  · rename_i command hworker
    refine h.worker node rfl (fun _ _ => .inl) rfl rfl rfl (fun other hne => ?_) ?_ (fun hdead =>
      ?_) ?_ (fun c hc => ?_) fun message hmem => ?_
    · simp only [Function.update_of_ne hne, and_self]
    · simp only [outstanding, Function.update_self, hworker, WorkerPhase.load, List.length_append,
        List.length_singleton]
      omega
    · rw [isAlive, hworker] at hdead
      cases hdead
    · exact List.Subset.refl _
    · simp only [Function.update_self] at hc
      cases hc
    · simp only [Function.update_self] at hmem
      rcases List.mem_append.1 hmem with hmem | hmem
      · exact h.flying node message hmem
      · rw [List.mem_singleton.1 hmem]
        refine ⟨?_, h.training node command hworker⟩
        rcases outcome with e | update <;> exact ⟨rfl, rfl, rfl⟩
  · exact h

theorem Sound.die (h : s.Sound) (node : String) (kept : ℕ) : (s.die node kept).Sound := by
  unfold System.die
  split
  · exact h
  · refine h.worker node rfl (fun _ _ => .inl) rfl rfl rfl (fun other hne => ?_) ?_ (fun _ =>
      ?_) ?_ (fun c hc => ?_) fun message hmem => ?_
    · simp only [Function.update_of_ne hne, and_self]
    · have hkept : ((s.inFlight node).take kept).length ≤ (s.inFlight node).length := by
        rw [List.length_take]
        exact min_le_right _ _
      simp only [outstanding, Function.update_self, WorkerPhase.load]
      omega
    · simp only [isAlive, Function.update_self]
    · exact List.Subset.refl _
    · simp only [Function.update_self] at hc
      cases hc
    · simp only [Function.update_self] at hmem
      exact h.flying node message (List.mem_of_mem_take hmem)

end Workers

/-! ## Steps of the coordinator -/

section Coordinator

variable {s : System Params Update} {config : Config}

variable {node : String} {phase : Phase Params Update} {collected : Collected Params Update}

theorem Sound.withPhase (h : s.Sound) (hphase : s.PhaseSound phase) :
    { s with phase := phase }.Sound := by
  exact ⟨h.single, h.idle, h.queued, h.training, h.flying, h.distinct, h.aggregated, h.history,
    hphase.congr rfl rfl rfl rfl rfl⟩

/-- Receiving a result frees its worker, for which nothing else is outstanding. -/
theorem Sound.pop (h : s.Sound) {sender : Option String} {message : Message Params Update}
    {s' : System Params Update} (hpop : s.pop sender = some (message, s')) :
    s'.Sound ∧ s'.phase = s.phase ∧ s'.started = s.started ∧
      ∃ node, message.IsFrom node ∧ s.Issued node message.command := by
  obtain ⟨node, rest, hflight, rfl⟩ := pop_eq_some hpop
  obtain ⟨hfrom, hissued⟩ := h.flying node message (hflight ▸ List.mem_cons_self)
  have hsingle := h.single node
  simp only [outstanding, hflight, List.length_cons] at hsingle
  refine ⟨?_, rfl, rfl, node, hfrom, hissued⟩
  refine h.worker node rfl (fun other _ hfree => ?_) rfl rfl rfl (fun other hne => ?_) ?_ id
    (List.Subset.refl _) (fun command htrain => h.training node command htrain) fun m hm => ?_
  · rcases eq_or_ne other node with rfl | hne
    · refine .inr ?_
      simp only [outstanding, Function.update_self]
      omega
    · simp only [hfrom.nodeID, Function.update_of_ne hne] at hfree
      exact .inl hfree
  · simp only [Function.update_of_ne hne, and_self]
  · simp only [outstanding, Function.update_self, hflight, List.length_cons]
    omega
  · simp only [Function.update_self] at hm
    exact h.flying node m (hflight ▸ List.mem_cons_of_mem _ hm)

theorem phaseSound_enterWait {roundID : ℕ} (hstop : s.NoStop) (hbefore : s.Before roundID) :
    s.PhaseSound (enterWait config roundID) := by
  unfold enterWait
  dsimp only
  split
  · trivial
  · split_ifs
    · trivial
    · exact ⟨hstop, hbefore⟩

theorem free_append {available remaining : List String} (h : s.Sound) (hfree : s.Free available)
    (hnodup : (available ++ node :: remaining).Nodup)
    (hidle : (s.busyRound node).isNone ∧ s.isAlive node = true) :
    s.Free (available ++ [node]) ∧ ((available ++ [node]) ++ remaining).Nodup := by
  have hnodup' : ((available ++ [node]) ++ remaining).Nodup := by rwa [List.append_assoc]
  refine ⟨⟨hnodup'.of_append_left, fun other hother => ?_⟩, hnodup'⟩
  rcases List.mem_append.1 hother with hother | hother
  · exact hfree.2 other hother
  · rw [List.mem_singleton.1 hother]
    exact h.idle node hidle.2 (Option.isNone_iff_eq_none.1 hidle.1)

theorem Free.draw {available : List String} (hfree : s.Free available) (count : ℕ)
    (drawn : List String) : s.Free (draw count available drawn) := by
  unfold System.draw
  split_ifs with h
  · exact ⟨h.1, fun node hnode => hfree.2 node (h.2.2 node hnode)⟩
  · exact ⟨hfree.1.sublist (List.take_sublist _ _), fun node hnode =>
      hfree.2 node (List.mem_of_mem_take hnode)⟩

/-- A new round is started with free workers. -/
theorem Sound.startRound (h : s.Sound) {round : RoundStart Params} (hstop : s.NoStop)
    (hbefore : s.Before round.roundID) (hfree : s.Free round.selected) :
    { s with phase := .send round round.selected, started := s.started ++ [round] }.Sound := by
  have hissued {node : String} {command : TrainCommand Params} (h : s.Issued node command) :
      ∃ start ∈ s.started ++ [round], start.roundID = command.roundID ∧
        start.globalParameters = command.globalParameters ∧ node ∈ start.selected := by
    obtain ⟨start, hmem, hstart⟩ := h
    exact ⟨start, List.mem_append_left _ hmem, hstart⟩
  refine ⟨h.single, h.idle, fun node command hmem => hissued (h.queued node command hmem),
    fun node command htrain => hissued (h.training node command htrain),
    fun node message hmem => ⟨(h.flying node message hmem).1,
      hissued (h.flying node message hmem).2⟩, ?_, ?_,
    ?_, ?_⟩
  · rw [List.map_append, List.map_singleton]
    refine List.nodup_append.2 ⟨h.distinct, List.nodup_singleton _, fun a ha b hb hab => ?_⟩
    obtain ⟨start, hstart, rfl⟩ := List.mem_map.1 ha
    have := hbefore start hstart
    rw [List.mem_singleton.1 hb] at hab
    omega
  · intro entry hentry
    obtain ⟨hmem, hentry⟩ := h.aggregated entry hentry
    exact ⟨List.mem_append_left _ hmem, hentry⟩
  · intro metrics hmetrics
    obtain ⟨hpartition, start, hmem, hstart⟩ := h.history metrics hmetrics
    exact ⟨hpartition, start, List.mem_append_left _ hmem, hstart⟩
  · have hlast (other : RoundStart Params) (hother : other ∈ s.started ++ [round]) :
        other.roundID ≤ round.roundID := by
      rcases List.mem_append.1 hother with hother | hother
      · exact (hbefore other hother).le
      · rw [List.mem_singleton.1 hother]
    exact ⟨hstop, ⟨List.mem_append_right _ List.mem_cons_self, hfree.1, hlast⟩, hfree,
      fun node => id⟩

theorem commandQueues_eq_nil (hstop : s.NoStop) (hzero : s.outstanding node = 0) :
    s.commandQueues node = [] := by
  refine List.eq_nil_iff_forall_not_mem.2 fun command hmem => ?_
  rcases command with command | _
  · have hpos : 0 < (s.commandQueues node).countP Command.isTrain :=
      List.countP_pos_iff.2 ⟨_, hmem, rfl⟩
    rw [outstanding] at hzero
    omega
  · exact hstop node hmem

/-- A command is put to a worker for which nothing is outstanding. -/
theorem Sound.send (h : s.Sound) {round : RoundStart Params} {remaining : List String}
    (hstop : s.NoStop) (hcurrent : s.Current round) (hfree : s.Free (node :: remaining))
    (hselected : ∀ other ∈ node :: remaining, other ∈ round.selected) :
    { s with
      commandQueues := Function.update s.commandQueues node
        (s.commandQueues node ++ [Command.train ⟨round.roundID, round.globalParameters⟩])
      busyRound := Function.update s.busyRound node (some round.roundID)
      phase := .send round remaining }.Sound := by
  have hzero := hfree.2 node List.mem_cons_self
  have hqueue := commandQueues_eq_nil hstop hzero
  have hcommand : s.Issued node ⟨round.roundID, round.globalParameters⟩ :=
    ⟨round, hcurrent.mem, rfl, rfl, hselected node List.mem_cons_self⟩
  rw [hqueue, List.nil_append]
  set s' := { s with
    commandQueues :=
      Function.update s.commandQueues node [.train ⟨round.roundID, round.globalParameters⟩]
    busyRound := Function.update s.busyRound node (some round.roundID)
    phase := .send round remaining } with hs'
  have hself : s'.outstanding node = 1 := by
    simp only [outstanding] at hzero
    simp only [hs', outstanding, Function.update_self, List.countP_singleton, Command.isTrain,
      if_true]
    omega
  have hother {other : String} (hne : other ≠ node) : s'.outstanding other =
      s.outstanding other := by
    simp only [hs', outstanding, Function.update_of_ne hne]
  refine ⟨fun other => ?_, fun other hlive hbusy => ?_, fun other command hmem => ?_, h.training,
    h.flying, h.distinct, h.aggregated, h.history, ?_⟩
  · rcases eq_or_ne other node with rfl | hne
    · exact hself.le
    · exact hother hne ▸ h.single other
  · rcases eq_or_ne other node with rfl | hne
    · simp only [hs', Function.update_self] at hbusy
      cases hbusy
    · simp only [hs', Function.update_of_ne hne] at hbusy
      exact hother hne ▸ h.idle other hlive hbusy
  · rcases eq_or_ne other node with rfl | hne
    · simp only [hs', Function.update_self, List.mem_singleton] at hmem
      cases hmem
      exact hcommand
    · simp only [hs', Function.update_of_ne hne] at hmem
      exact h.queued other command hmem
  · have hnodup := List.nodup_cons.1 hfree.1
    refine ⟨fun other hmem => ?_, ⟨hcurrent.mem, hcurrent.nodup, hcurrent.last⟩,
      ⟨hnodup.2, fun other hmem => ?_⟩,
      fun other hmem => hselected other (List.mem_cons_of_mem _ hmem)⟩
    · rcases eq_or_ne other node with rfl | hne
      · simp only [hs', Function.update_self, List.mem_singleton] at hmem
        cases hmem
      · simp only [hs', Function.update_of_ne hne] at hmem
        exact hstop other hmem
    · rw [hother fun heq => hnodup.1 (heq ▸ hmem)]
      exact hfree.2 other (List.mem_cons_of_mem _ hmem)

/-! ## Collecting results -/

/-- A result with the number of the round comes from what the round sent. -/
theorem belongsTo_of_issued (h : s.Sound) {round : RoundStart Params} (hcurrent : s.Current round)
    {message : Message Params Update} (hfrom : message.IsFrom node)
    (hissued : s.Issued node message.command) (hround : message.result.roundID = round.roundID) :
    message.BelongsTo round := by
  obtain ⟨start, hmem, hid, hparameters, hselected⟩ := hissued
  have hsame : start = round :=
    List.inj_on_of_nodup_map h.distinct hmem hcurrent.mem (hid.trans (hfrom.roundID ▸ hround))
  subst hsame
  exact ⟨hfrom.worker.trans hfrom.nodeID.symm, hfrom.nodeID ▸ hselected, hid.symm, hparameters.symm⟩

/-- Observing a result keeps the variables of the loop sound. -/
theorem phaseSound_observe {round : RoundStart Params} {minResults : ℕ}
    {message : Message Params Update} (hstop : s.NoStop) (hcurrent : s.Current round)
    (hsound : collected.Sound round)
    (hbelongs : message.result.roundID = round.roundID → message.BelongsTo round) :
    s.PhaseSound (observe round minResults collected message) := by
  unfold observe
  dsimp only
  split_ifs with hother hseen hsucceeded
  · exact ⟨hstop, hcurrent, hsound⟩
  · exact ⟨hstop, hcurrent, hsound⟩
  all_goals
    obtain ⟨hround, hselected⟩ := not_or.1 hother
    have hround := not_not.1 hround
    have hselected := not_not.1 hselected
  iterate 3 exact ⟨hstop, hcurrent, hsound.complete (hbelongs hround) hseen⟩
  all_goals
    have hfail := @Collected.Sound.fail _ _ _ _ hsound {message.result.nodeID} fun node hnode =>
      Finset.mem_singleton.1 hnode ▸ ⟨hselected, hseen⟩
    rw [Finset.union_singleton, Finset.union_singleton] at hfail
    exact ⟨hstop, hcurrent, hfail⟩

/-- The workers found dead are those of the round that have not answered. -/
theorem Sound.lose (h : s.Sound) {dead : List String}
    (hdead : ∀ node ∈ dead, s.isAlive node = false) (hphase : s.PhaseSound phase) :
    { s with
      busyRound := fun node => if node ∈ dead then none else s.busyRound node
      phase := phase }.Sound := by
  refine ⟨h.single, fun node hlive hbusy => ?_, h.queued, h.training, h.flying, h.distinct,
    h.aggregated, h.history, ?_⟩
  · dsimp only at hbusy
    split_ifs at hbusy with hmem
    · have hlive : s.isAlive node = true := hlive
      rw [hdead node hmem] at hlive
      cases hlive
    · exact h.idle node hlive hbusy
  · exact hphase.congr rfl rfl rfl rfl rfl

/-- The metrics of a round split its clients. -/
theorem partition_metrics {round : RoundStart Params} (hnodup : round.selected.Nodup)
    (hsound : collected.Sound round) : (metrics round collected).Partition := by
  have hcompleted (node : String) (hnode : node ∈ collected.results.map fun message =>
      message.result.nodeID) : node ∈ round.selected := by
    obtain ⟨message, hmem, rfl⟩ := List.mem_map.1 hnode
    exact (hsound.results message hmem).selected
  have hstraggler (node : String) : node ∈ (metrics round collected).stragglerClients ↔
      node ∈ round.selected ∧
      node ∉ (metrics round collected).completedClients ∧ node ∉ collected.failures := by
    simp only [metrics, List.mem_filter, decide_eq_true_eq]
  refine ⟨hnodup, hsound.distinct, fun node hnode hfailed => (hsound.failures node hfailed).2 hnode,
    fun node hnode hmem => ((hstraggler node).1 hmem).2.1 hnode,
    fun node hnode hmem => ((hstraggler node).1 hmem).2.2 hnode, fun node => ⟨fun hnode => ?_, ?_⟩⟩
  · by_cases hdone : node ∈ (metrics round collected).completedClients
    · exact .inl hdone
    by_cases hfailed : node ∈ collected.failures
    · exact .inr (.inl hfailed)
    · exact .inr (.inr ((hstraggler node).2 ⟨hnode, hdone, hfailed⟩))
  · rintro (hdone | hfailed | hmem)
    · exact hcompleted node hdone
    · exact (hsound.failures node hfailed).1
    · exact ((hstraggler node).1 hmem).1

/-- The results of a round are aggregated. -/
theorem Sound.aggregate (h : s.Sound) {round : RoundStart Params} (hcurrent : s.Current round)
    (hsound : collected.Sound round) (model : Params) (hphase : s.PhaseSound phase) :
    { s with
      model := model
      aggregated := s.aggregated ++ [(round, collected.results)]
      history := s.history ++ [metrics round collected]
      phase := phase }.Sound := by
  refine ⟨h.single, h.idle, h.queued, h.training, h.flying, h.distinct, fun entry hentry => ?_,
    fun metrics hmetrics => ?_, ?_⟩
  · rcases List.mem_append.1 hentry with hentry | hentry
    · exact h.aggregated entry hentry
    · rw [List.mem_singleton.1 hentry]
      exact ⟨hcurrent.mem, hsound.results, hsound.distinct⟩
  · rcases List.mem_append.1 hmetrics with hmetrics | hmetrics
    · exact h.history metrics hmetrics
    · rw [List.mem_singleton.1 hmetrics]
      exact ⟨partition_metrics hcurrent.nodup hsound, round, hcurrent.mem, rfl, rfl⟩
  · exact hphase.congr rfl rfl rfl rfl rfl

/-- A stop command does not count as outstanding. -/
theorem Sound.close (h : s.Sound) (node : String) (remaining : List String)
    (error : Option CoordinatorError) :
    { s with
      commandQueues := Function.update s.commandQueues node (s.commandQueues node ++ [Command.stop])
      phase := .closing remaining error }.Sound := by
  set s' := { s with
    commandQueues := Function.update s.commandQueues node (s.commandQueues node ++ [Command.stop])
    phase := .closing remaining error } with hs'
  have hout (other : String) : s'.outstanding other = s.outstanding other := by
    rcases eq_or_ne other node with rfl | hne
    · simp only [hs', outstanding, Function.update_self, List.countP_append, List.countP_singleton,
        Command.isTrain]
      rfl
    · simp only [hs', outstanding, Function.update_of_ne hne]
  refine ⟨fun other => hout other ▸ h.single other, fun other hlive hbusy =>
    hout other ▸ h.idle other hlive hbusy,
    fun other command hmem => ?_, h.training, h.flying, h.distinct, h.aggregated,
      h.history, trivial⟩
  rcases eq_or_ne other node with rfl | hne
  · simp only [hs', Function.update_self] at hmem
    rcases List.mem_append.1 hmem with hmem | hmem
    · exact h.queued other command hmem
    · cases List.mem_singleton.1 hmem
  · simp only [hs', Function.update_of_ne hne] at hmem
    exact h.queued other command hmem

/-! ## Runs -/

variable {aggregate : Params → List (WorkerResult Update) → Except String Params}

theorem Sound.coordinate (h : s.Sound) (choice : Choice) :
    (s.coordinate config aggregate choice).Sound := by
  have hphase := h.phase
  unfold System.coordinate
  cases heq : s.phase with
  | drain roundID =>
    rw [heq] at hphase
    dsimp only
    split
    · rename_i hpop
      exact (h.pop hpop).1
    · exact h.withPhase (phaseSound_enterWait hphase.1 hphase.2)
  | waitDrain roundID required minimum =>
    rw [heq] at hphase
    dsimp only
    split
    · rename_i hpop
      exact (h.pop hpop).1
    · exact h.withPhase ⟨hphase.1, hphase.2, ⟨List.nodup_nil, fun _ h => absurd h List.not_mem_nil⟩,
        config.nodup_nodeIDs⟩
  | scanAvailable roundID required minimum remaining available =>
    rw [heq] at hphase
    obtain ⟨hstop, hbefore, hfree, hnodup⟩ := hphase
    rcases remaining with _ | ⟨node, remaining⟩ <;> dsimp only <;> split_ifs with hcond
    · exact h.withPhase ⟨hstop, hbefore, hfree⟩
    · exact h.withPhase ⟨hstop, hbefore, hfree⟩
    · exact h.withPhase ⟨hstop, hbefore, free_append h hfree hnodup hcond⟩
    · exact h.withPhase ⟨hstop, hbefore, hfree,
        hnodup.sublist ((List.sublist_cons_self _ _).append_left _)⟩
  | scanDead roundID required minimum available remaining dead =>
    rw [heq] at hphase
    rcases remaining with _ | ⟨node, remaining⟩ <;> dsimp only <;> split_ifs
    · exact h.withPhase trivial
    all_goals exact h.withPhase hphase
  | checkDeadline roundID required minimum available dead =>
    rw [heq] at hphase
    dsimp only
    split_ifs
    · exact h.withPhase hphase
    · exact h.withPhase trivial
    · exact h.withPhase ⟨hphase.1, hphase.2.1⟩
  | choose roundID required available =>
    rw [heq] at hphase
    have hfree := hphase.2.2.draw (min required available.length) choice.drawn
    exact @Sound.startRound _ _ _ h ⟨roundID, s.model, _⟩ hphase.1 hphase.2.1 hfree
  | send round remaining =>
    rw [heq] at hphase
    obtain ⟨hstop, hcurrent, hfree, hselected⟩ := hphase
    rcases remaining with _ | ⟨node, remaining⟩ <;> dsimp only
    · split
      · exact h.withPhase trivial
      · exact h.withPhase ⟨hstop, hcurrent, .empty round⟩
    · split_ifs
      · exact h.send hstop hcurrent hfree hselected
      · exact h
  | collect round minResults collected =>
    rw [heq] at hphase
    dsimp only
    split_ifs
    all_goals exact h.withPhase hphase
  | receive round minResults collected =>
    rw [heq] at hphase
    obtain ⟨hstop, hcurrent, hsound⟩ := hphase
    dsimp only
    split
    · rename_i message s' hpop
      obtain ⟨h', hphase', hstarted, node, hfrom, hissued⟩ := h.pop hpop
      have hcurrent' := h'.phase
      rw [hphase', heq] at hcurrent'
      exact h'.withPhase (phaseSound_observe hcurrent'.1 hcurrent'.2.1 hsound
        (belongsTo_of_issued h hcurrent hfrom hissued))
    · refine h.withPhase ⟨hstop, hcurrent, hsound, fun node hnode => ?_, fun _ h =>
        absurd h List.not_mem_nil⟩
      simpa only [List.mem_filter, decide_eq_true_eq] using hnode
  | scanLost round minResults collected remaining dead =>
    rw [heq] at hphase
    obtain ⟨hstop, hcurrent, hsound, hremaining, hdead⟩ := hphase
    rcases remaining with _ | ⟨node, remaining⟩ <;> dsimp only
    · have hlost : ∀ node ∈ dead.toFinset, node ∈ round.selected ∧ node ∉ collected.observed := by
        intro node hnode
        obtain ⟨hselected, hobserved, -⟩ := hdead node (List.mem_toFinset.1 hnode)
        exact ⟨hselected, hobserved⟩
      split_ifs
      all_goals
        exact h.lose (fun node hnode => (hdead node hnode).2.2)
          ⟨hstop, hcurrent, hsound.fail hlost⟩
    · have hremaining' := List.forall_mem_cons.1 hremaining
      split_ifs with hlive
      · exact h.withPhase ⟨hstop, hcurrent, hsound, hremaining'.2, hdead⟩
      · refine h.withPhase ⟨hstop, hcurrent, hsound, hremaining'.2, fun other hother => ?_⟩
        rcases List.mem_append.1 hother with hother | hother
        · exact hdead other hother
        · rw [List.mem_singleton.1 hother]
          exact ⟨hremaining'.1.1, hremaining'.1.2, Bool.eq_false_of_not_eq_true hlive⟩
  | finish round minResults collected =>
    rw [heq] at hphase
    obtain ⟨hstop, hcurrent, hsound⟩ := hphase
    dsimp only
    split_ifs with hfew hnext
    · exact h.withPhase trivial
    · split
      · exact h.withPhase trivial
      · exact h.aggregate hcurrent hsound _ ⟨hstop, fun other hother =>
          Nat.lt_succ_of_le (hcurrent.last other hother)⟩
    · split
      · exact h.withPhase trivial
      · exact h.aggregate hcurrent hsound _ trivial
  | closing remaining error =>
    rcases remaining with _ | ⟨node, remaining⟩ <;> dsimp only
    · exact h.withPhase trivial
    · split_ifs
      · exact h.close node remaining error
      · exact h.withPhase trivial
  | closed error => exact h

theorem Sound.step (h : s.Sound) (event : Event Update) :
    (s.step config aggregate event).2.Sound := by
  cases event with
  | take node => exact h.take node
  | finish node outcome => exact h.finish node outcome
  | die node kept => exact h.die node kept
  | coordinate choice => exact h.coordinate choice

theorem sound_initial (model : Params) : (initial model : System Params Update).Sound where
  single _ := Nat.zero_le 1
  idle _ _ _ := rfl
  queued _ _ h := absurd h List.not_mem_nil
  training _ _ h := nomatch h
  flying _ _ h := absurd h List.not_mem_nil
  distinct := List.nodup_nil
  aggregated _ h := absurd h List.not_mem_nil
  history _ h := absurd h List.not_mem_nil
  phase := ⟨fun _ => List.not_mem_nil, fun _ h => absurd h List.not_mem_nil⟩

variable (config aggregate)

theorem sound_final (model : Params) (events : List (Event Update)) :
    (final (step config aggregate) (initial model) events).Sound :=
  final_invariant (sound_initial model) (fun _ event h => h.step event) events

/-- In every run, the coordinator puts a train command only on an empty queue and no worker has two
commands outstanding; what a round aggregates comes from distinct workers that it selected, trained
on the parameters that it sent; and the metrics of a round split its clients. -/
theorem rounds_safe (model : Params) (events : List (Event Update)) :
    let s := final (step config aggregate) (initial model) events
    ((∀ round node remaining, s.phase = .send round (node :: remaining) →
      s.commandQueues node = []) ∧ ∀ node, s.outstanding node ≤ 1) ∧
    ((s.started.map RoundStart.roundID).Nodup ∧ ∀ entry ∈ s.aggregated, entry.1 ∈ s.started ∧
      (∀ message ∈ entry.2, message.BelongsTo entry.1) ∧
        (entry.2.map fun message => message.result.nodeID).Nodup) ∧
    ∀ metrics ∈ s.history, metrics.Partition ∧ ∃ round ∈ s.started,
      round.roundID = metrics.roundID ∧ round.selected = metrics.selectedClients := by
  intro s
  have h : s.Sound := sound_final config aggregate model events
  refine ⟨⟨fun round node remaining heq => ?_, h.single⟩, ⟨h.distinct, h.aggregated⟩, h.history⟩
  have hphase := h.phase
  rw [heq] at hphase
  exact commandQueues_eq_nil hphase.1 (hphase.2.2.1.2 node List.mem_cons_self)

/-- With a quorum of one, the round is over when the first of two workers has answered. -/
example :
    let s := final (step ⟨["a", "b"], by decide, 1, none, 1, some 1⟩ fun _ _ => .ok 1)
      (initial (0 : ℕ))
      (List.replicate 10 (.coordinate ⟨none, false, []⟩) ++ [.take "b", .take "a",
        .finish "a" (.ok ()), .coordinate ⟨some "a", false, []⟩, .coordinate ⟨none, false, []⟩])
    s.history.map RoundMetrics.completedClients = [["a"]] ∧
      s.history.map RoundMetrics.stragglerClients = [["b"]] ∧ s.model = 1 := by
  decide +kernel

end Coordinator

end System

end Simulation

end ZeroTrustFL
