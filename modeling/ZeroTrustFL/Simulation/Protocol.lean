import Mathlib
import ZeroTrustFL.Lib.Run

/-!
# Rounds of the simulation coordinator

The protocol between `AsyncFederatedCoordinator` of `engine/coordinator.py` and
`worker_process_main` of `engine/worker.py`.  Workers move at any time: they take a command, put a
result, or die.  The coordinator runs `_run_round` one action after the other; the actions are those
that meet the workers (receiving from the result queue, asking whether a process is alive, putting a
command), the reading of the clock and the choice of clients.

The result queue keeps the order of each sender and delivers the senders in any order; a worker that
dies may lose results that are still on their way.  Model parameters and updates are of any type,
and how results change the model is left open.
-/

namespace ZeroTrustFL

namespace Simulation

variable (Params Update : Type)

/-! ## Messages and workers -/

structure TrainCommand where
  roundID : ℕ
  globalParameters : Params

inductive Command where
  | train (command : TrainCommand Params)
  | stop

structure WorkerResult where
  nodeID : String
  roundID : ℕ
  update : Option Update
  error : Option String

/-- A result with the worker and the command it comes from, which the coordinator does not see. -/
structure Message where
  result : WorkerResult Update
  worker : String
  command : TrainCommand Params

/-- A worker process: waiting for a command, executing one, or no longer alive. -/
inductive WorkerPhase where
  | waiting
  | training (command : TrainCommand Params)
  | exited

/-! ## The coordinator -/

/-- What the coordinator reads of its configuration. -/
structure Config where
  nodeIDs : List String
  nodup_nodeIDs : nodeIDs.Nodup
  rounds : ℕ
  clientsPerRound : Option ℕ
  clientFraction : ℚ
  minResults : Option ℕ

inductive CoordinatorError where
  | minResultsExceedClients
  | invalidMinimum
  | quorumLost (possible minimum : ℕ) (dead : List String)
  | quorumUnavailable (available minimum required : ℕ) (dead : List String)
  | timeout (roundID results minResults : ℕ) (failures : Finset String)
  | aggregation (message : String)

/-- The start of a round: whom it selected and what it sends them. -/
structure RoundStart where
  roundID : ℕ
  globalParameters : Params
  selected : List String

/-- The variables of `_collect_round_results`. -/
structure Collected where
  results : List (Message Params Update)
  failures : Finset String
  observed : Finset String

/-- Where the coordinator is. -/
inductive Phase where
  /-- The first `_drain_completed_results` of `_run_round`. -/
  | drain (roundID : ℕ)
  /-- The one in the loop of `_wait_for_available`. -/
  | waitDrain (roundID required minimum : ℕ)
  /-- The list of available workers is built. -/
  | scanAvailable (roundID required minimum : ℕ) (remaining available : List String)
  /-- The list of dead workers is built. -/
  | scanDead (roundID required minimum : ℕ) (available remaining dead : List String)
  | checkDeadline (roundID required minimum : ℕ) (available dead : List String)
  | choose (roundID required : ℕ) (available : List String)
  /-- The commands are put. -/
  | send (round : RoundStart Params) (remaining : List String)
  /-- The head of the loop of `_collect_round_results`. -/
  | collect (round : RoundStart Params) (minResults : ℕ) (collected : Collected Params Update)
  | receive (round : RoundStart Params) (minResults : ℕ) (collected : Collected Params Update)
  /-- `_dead_unobserved_workers`. -/
  | scanLost (round : RoundStart Params) (minResults : ℕ) (collected : Collected Params Update)
      (remaining dead : List String)
  | finish (round : RoundStart Params) (minResults : ℕ) (collected : Collected Params Update)
  | closing (remaining : List String) (error : Option CoordinatorError)
  | closed (error : Option CoordinatorError)

structure RoundMetrics where
  roundID : ℕ
  selectedClients : List String
  completedClients : List String
  failedClients : Finset String
  stragglerClients : List String

/-- The processes and queues, the fields of the coordinator, and what it has done: the rounds it
started, the results it aggregated and the metrics it returned. -/
structure System where
  workers : String → WorkerPhase Params
  commandQueues : String → List (Command Params)
  inFlight : String → List (Message Params Update)
  busyRound : String → Option ℕ
  model : Params
  phase : Phase Params Update
  started : List (RoundStart Params)
  aggregated : List (RoundStart Params × List (Message Params Update))
  history : List RoundMetrics

/-- What an action of the coordinator takes from outside: whose result it receives, whether the
deadline has passed, and the clients that the random generator draws. -/
structure Choice where
  sender : Option String
  expired : Bool
  drawn : List String

/-- A step of a worker or of the coordinator. -/
inductive Event where
  | take (node : String)
  | finish (node : String) (outcome : Except String Update)
  | die (node : String) (kept : ℕ)
  | coordinate (choice : Choice)

variable {Params Update}

def WorkerResult.succeeded (result : WorkerResult Update) : Bool :=
  result.error.isNone && result.update.isSome

namespace Config

def clientsPerRoundCount (config : Config) : ℕ :=
  match config.clientsPerRound with
  | some count => min config.nodeIDs.length count
  | none => max 1 (⌈config.nodeIDs.length * config.clientFraction⌉).toNat

def minResultsFor (config : Config) (selectedCount : ℕ) : Except CoordinatorError ℕ :=
  match config.minResults with
  | none => .ok selectedCount
  | some configured => if configured > selectedCount then .error .minResultsExceedClients
    else .ok configured

end Config

namespace System

def isAlive (s : System Params Update) (node : String) : Bool :=
  match s.workers node with
  | .exited => false
  | _ => true

/-! ## Steps of a worker -/

/-- The worker gets the command in its queue. -/
def take (s : System Params Update) (node : String) : System Params Update :=
  match s.workers node, s.commandQueues node with
  | .waiting, .train command :: rest =>
    { s with
      workers := Function.update s.workers node (.training command)
      commandQueues := Function.update s.commandQueues node rest }
  | .waiting, .stop :: rest =>
    { s with
      workers := Function.update s.workers node .exited
      commandQueues := Function.update s.commandQueues node rest }
  | _, _ => s

/-- The worker puts the result of its command. -/
def finish (s : System Params Update) (node : String) (outcome : Except String Update) :
    System Params Update :=
  match s.workers node with
  | .training command =>
    let result : WorkerResult Update :=
      match outcome with
      | .ok update => ⟨node, command.roundID, some update, none⟩
      | .error message => ⟨node, command.roundID, none, some message⟩
    { s with
      workers := Function.update s.workers node .waiting
      inFlight := Function.update s.inFlight node (s.inFlight node ++ [⟨result, node, command⟩]) }
  | _ => s

/-- The worker dies; only the first `kept` of its results on their way arrive. -/
def die (s : System Params Update) (node : String) (kept : ℕ) : System Params Update :=
  match s.workers node with
  | .exited => s
  | _ =>
    { s with
      workers := Function.update s.workers node .exited
      inFlight := Function.update s.inFlight node ((s.inFlight node).take kept) }

/-! ## Steps of the coordinator -/

/-- The next result of a sender leaves the queue and the node is no longer busy. -/
def pop (s : System Params Update) (sender : Option String) :
    Option (Message Params Update × System Params Update) :=
  match sender with
  | none => none
  | some node =>
    match s.inFlight node with
    | [] => none
    | message :: rest =>
      some (message,
        { s with
          inFlight := Function.update s.inFlight node rest
          busyRound := Function.update s.busyRound message.result.nodeID none })

theorem pop_eq_some {s s' : System Params Update} {sender : Option String}
    {message : Message Params Update} (h : s.pop sender = some (message, s')) :
    ∃ node rest, s.inFlight node = message :: rest ∧
      s' = { s with
        inFlight := Function.update s.inFlight node rest
        busyRound := Function.update s.busyRound message.result.nodeID none } := by
  rcases sender with _ | node
  · cases h
  rcases hflight : s.inFlight node with _ | ⟨first, rest⟩ <;>
    simp only [pop, hflight] at h <;> cases h
  exact ⟨node, rest, hflight, rfl⟩

/-- Where `_select_clients` enters `_wait_for_available`. -/
def enterWait (config : Config) (roundID : ℕ) : Phase Params Update :=
  let required := config.clientsPerRoundCount
  match config.minResultsFor required with
  | .error e => .closing config.nodeIDs (some e)
  | .ok minimum =>
    if minimum ≤ 0 ∨ minimum > required then .closing config.nodeIDs (some .invalidMinimum)
    else .waitDrain roundID required minimum

/-- The clients drawn without replacement. -/
def draw (count : ℕ) (available drawn : List String) : List String :=
  if drawn.Nodup ∧ drawn.length = count ∧ ∀ node ∈ drawn, node ∈ available then drawn
  else available.take count

/-- Whether `_collect_round_results` gives up. -/
def outOfReach (round : RoundStart Params) (minResults : ℕ) (collected : Collected Params Update) :
    Bool :=
  decide (collected.results.length + (round.selected.length - collected.observed.card) < minResults)

/-- What `_collect_round_results` does with a result. -/
def observe (round : RoundStart Params) (minResults : ℕ) (collected : Collected Params Update)
    (message : Message Params Update) : Phase Params Update :=
  let node := message.result.nodeID
  if message.result.roundID ≠ round.roundID ∨ node ∉ round.selected then
    .collect round minResults collected
  else if node ∈ collected.observed then .collect round minResults collected
  else
    let collected : Collected Params Update :=
      if message.result.succeeded then
        { collected with
          results := collected.results ++ [message]
          observed := insert node collected.observed }
      else
        { collected with
          failures := insert node collected.failures
          observed := insert node collected.observed }
    if collected.results.length ≥ minResults then .finish round minResults collected
    else if outOfReach round minResults collected then .finish round minResults collected
    else .collect round minResults collected

/-- The metrics of a round. -/
def metrics (round : RoundStart Params) (collected : Collected Params Update) : RoundMetrics :=
  let completed := collected.results.map fun message => message.result.nodeID
  { roundID := round.roundID
    selectedClients := round.selected
    completedClients := completed
    failedClients := collected.failures
    stragglerClients := round.selected.filter fun node => node ∉ completed ∧
      node ∉ collected.failures }

variable (config : Config) (aggregate : Params → List (WorkerResult Update) → Except String Params)

/-- The next action of the coordinator. -/
def coordinate (choice : Choice) (s : System Params Update) : System Params Update :=
  match s.phase with
  | .drain roundID =>
    match s.pop choice.sender with
    | some (_, s) => s
    | none => { s with phase := enterWait config roundID }
  | .waitDrain roundID required minimum =>
    match s.pop choice.sender with
    | some (_, s) => s
    | none => { s with phase := .scanAvailable roundID required minimum config.nodeIDs [] }
  | .scanAvailable roundID required minimum (node :: remaining) available =>
    if (s.busyRound node).isNone ∧ s.isAlive node = true then
      { s with phase := .scanAvailable roundID required minimum remaining (available ++ [node]) }
    else { s with phase := .scanAvailable roundID required minimum remaining available }
  | .scanAvailable roundID required minimum [] available =>
    if available.length ≥ required then { s with phase := .choose roundID required available }
    else { s with phase := .scanDead roundID required minimum available config.nodeIDs [] }
  | .scanDead roundID required minimum available (node :: remaining) dead =>
    if s.isAlive node then
      { s with phase := .scanDead roundID required minimum available remaining dead }
    else { s with phase := .scanDead roundID required minimum available remaining (dead ++ [node]) }
  | .scanDead roundID required minimum available [] dead =>
    let possible := config.nodeIDs.length - dead.length
    if possible < minimum then
      { s with phase := .closing config.nodeIDs (some (.quorumLost possible minimum dead)) }
    else { s with phase := .checkDeadline roundID required minimum available dead }
  | .checkDeadline roundID required minimum available dead =>
    if choice.expired then
      if available.length ≥ minimum then { s with phase := .choose roundID required available }
      else
        let error := CoordinatorError.quorumUnavailable available.length minimum required dead
        { s with phase := .closing config.nodeIDs (some error) }
    else { s with phase := .waitDrain roundID required minimum }
  | .choose roundID required available =>
    let selected := draw (min required available.length) available choice.drawn
    let round : RoundStart Params := ⟨roundID, s.model, selected⟩
    { s with phase := .send round selected, started := s.started ++ [round] }
  | .send round (node :: remaining) =>
    -- a put to a full queue blocks
    if (s.commandQueues node).length < 1 then
      { s with
        commandQueues := Function.update s.commandQueues node
          (s.commandQueues node ++ [.train ⟨round.roundID, round.globalParameters⟩])
        busyRound := Function.update s.busyRound node (some round.roundID)
        phase := .send round remaining }
    else s
  | .send round [] =>
    match config.minResultsFor round.selected.length with
    | .error e => { s with phase := .closing config.nodeIDs (some e) }
    | .ok minResults => { s with phase := .collect round minResults ⟨[], ∅, ∅⟩ }
  | .collect round minResults collected =>
    if choice.expired = false ∧ collected.observed.card < round.selected.length then
      { s with phase := .receive round minResults collected }
    else { s with phase := .finish round minResults collected }
  | .receive round minResults collected =>
    match s.pop choice.sender with
    | some (message, s) => { s with phase := observe round minResults collected message }
    | none =>
      let unobserved := round.selected.filter fun node => node ∉ collected.observed
      { s with phase := .scanLost round minResults collected unobserved [] }
  | .scanLost round minResults collected (node :: remaining) dead =>
    if s.isAlive node then { s with phase := .scanLost round minResults collected remaining dead }
    else { s with phase := .scanLost round minResults collected remaining (dead ++ [node]) }
  | .scanLost round minResults collected [] dead =>
    let collected : Collected Params Update :=
      { collected with
        failures := collected.failures ∪ dead.toFinset
        observed := collected.observed ∪ dead.toFinset }
    let s := { s with busyRound := fun node => if node ∈ dead then none else s.busyRound node }
    if outOfReach round minResults collected then
      { s with phase := .finish round minResults collected }
    else { s with phase := .collect round minResults collected }
  | .finish round minResults collected =>
    if collected.results.length < minResults then
      let error := CoordinatorError.timeout round.roundID collected.results.length minResults
        collected.failures
      { s with phase := .closing config.nodeIDs (some error) }
    else
      match aggregate s.model (collected.results.map Message.result) with
      | .error e => { s with phase := .closing config.nodeIDs (some (.aggregation e)) }
      | .ok model =>
        { s with
          model
          aggregated := s.aggregated ++ [(round, collected.results)]
          history := s.history ++ [metrics round collected]
          phase := if round.roundID < config.rounds then .drain (round.roundID + 1)
            else .closing config.nodeIDs none }
  | .closing (node :: remaining) error =>
    if (s.commandQueues node).length < 1 then
      { s with
        commandQueues := Function.update s.commandQueues node (s.commandQueues node ++ [.stop])
        phase := .closing remaining error }
    else { s with phase := .closing remaining error }
  | .closing [] error => { s with phase := .closed error }
  | .closed _ => s

def step (s : System Params Update) : Event Update → Unit × System Params Update
  | .take node => ((), s.take node)
  | .finish node outcome => ((), s.finish node outcome)
  | .die node kept => ((), s.die node kept)
  | .coordinate choice => ((), s.coordinate config aggregate choice)

/-- The processes have been started and the first round begins. -/
def initial (model : Params) : System Params Update where
  workers _ := .waiting
  commandQueues _ := []
  inFlight _ := []
  busyRound _ := none
  model
  phase := .drain 1
  started := []
  aggregated := []
  history := []

end System

end Simulation

end ZeroTrustFL
