import Mathlib
import ZeroTrustFL.Aggregation.Backends
import ZeroTrustFL.Simulation.Protocol

/-!
# Numbers of results

What the constructor of `AsyncFederatedCoordinator` checks about a configuration, and that it is
enough: whichever workers are available, a round waits for as many results as the constructor
counted on, and aggregates that many.
-/

namespace ZeroTrustFL

namespace Simulation

/-! ## Construction -/

namespace Config

/-- The checks of `SimulationConfig` on the fields that the coordinator reads. -/
def postInit (config : Config) : Except String Unit :=
  if config.rounds ≤ 0 then .error "rounds must be positive"
  else if config.clientsPerRound = some 0 then .error "clients_per_round must be positive"
  else if ¬ (0 < config.clientFraction ∧ config.clientFraction ≤ 1) then
    .error "client_fraction must be in (0, 1]"
  else if config.minResults = some 0 then .error "min_results must be positive"
  else .ok ()

/-- `_validate_round_counts`. -/
def validateRoundCounts (config : Config) (aggregation : AggregationConfig) : Except String Unit :=
  let selected := config.clientsPerRoundCount
  match config.minResultsFor selected with
  | .error _ => .error "min_results cannot exceed clients selected per round"
  | .ok minimum =>
    if aggregation.method = .krum ∨ aggregation.method = .multiKrum then
      if minimum < 2 * aggregation.f + 3 then .error "Krum requires min_results >= 2*f + 3"
      else
        let neighborCount := minimum - aggregation.f - 2
        if aggregation.candidates > neighborCount then
          .error "Multi-Krum k cannot exceed clients_per_round - f - 2"
        else .ok ()
    else if aggregation.method = .trimmedMean then
      let trim := floorTrim aggregation.beta minimum
      if 2 * trim ≥ minimum then .error "trimmed mean would remove every client update" else .ok ()
    else .ok ()

/-- The constructor, on the arguments of the protocol. -/
def construct (config : Config) (aggregation : AggregationConfig) : Except String Unit :=
  if config.nodeIDs = [] then .error "at least one worker is required"
  else config.validateRoundCounts aggregation

/-- The number of results that a round waits for. -/
structure Quorum (config : Config) (minimum : ℕ) : Prop where
  count : config.minResultsFor config.clientsPerRoundCount = .ok minimum
  pos : 0 < minimum
  le : minimum ≤ config.clientsPerRoundCount

variable {config : Config}

theorem clientsPerRoundCount_pos (hnodes : config.nodeIDs ≠ [])
    (hcount : config.clientsPerRound ≠ some 0) : 0 < config.clientsPerRoundCount := by
  rw [clientsPerRoundCount]
  rcases hclients : config.clientsPerRound with _ | count
  · exact lt_max_of_lt_left one_pos
  · refine lt_min (List.length_pos_iff_ne_nil.2 hnodes) (Nat.pos_of_ne_zero ?_)
    rintro rfl
    exact hcount hclients

theorem minResultsFor_le {selected minimum : ℕ} (h : config.minResultsFor selected = .ok minimum) :
    minimum ≤ selected := by
  rw [minResultsFor] at h
  rcases hresults : config.minResults with _ | configured
  · rw [hresults] at h
    cases h
    exact le_rfl
  · rw [hresults] at h
    simp only at h
    split_ifs at h with hle
    cases h
    exact not_lt.1 hle

theorem minResultsFor_pos {selected minimum : ℕ} (hselected : 0 < selected)
    (hresults : config.minResults ≠ some 0) (h : config.minResultsFor selected = .ok minimum) :
    0 < minimum := by
  rw [minResultsFor] at h
  rcases hconfigured : config.minResults with _ | configured
  · rw [hconfigured] at h
    cases h
    exact hselected
  · rw [hconfigured] at h
    simp only at h
    split_ifs at h with hle
    cases h
    refine Nat.pos_of_ne_zero ?_
    rintro rfl
    exact hresults hconfigured

/-- The number does not depend on how many of the clients are selected. -/
theorem Quorum.minResultsFor {minimum available : ℕ} (h : config.Quorum minimum)
    (havailable : minimum ≤ available) :
    config.minResultsFor (min config.clientsPerRoundCount available) = .ok minimum := by
  have hcount := h.count
  rw [Config.minResultsFor] at hcount ⊢
  rcases hresults : config.minResults with _ | configured
  · rw [hresults] at hcount
    cases hcount
    rw [min_eq_left havailable]
  · rw [hresults] at hcount
    simp only at hcount ⊢
    split_ifs at hcount with hle
    cases hcount
    rw [if_neg (not_lt.2 (le_min (not_lt.1 hle) havailable))]

/-- The constructor accepts a configuration only if its number of results is enough to aggregate. -/
theorem construct_spec {aggregation : AggregationConfig} (hinit : config.postInit = .ok ())
    (h : config.construct aggregation = .ok ()) :
    ∃ minimum, config.Quorum minimum ∧ CountPreconditions aggregation minimum := by
  simp only [postInit] at hinit
  split_ifs at hinit with hrounds hclients hfraction hresults
  rw [construct] at h
  split_ifs at h with hnodes
  rw [validateRoundCounts] at h
  rcases hminimum : config.minResultsFor config.clientsPerRoundCount with e | minimum
  · rw [hminimum] at h
    cases h
  have hpos := minResultsFor_pos (clientsPerRoundCount_pos hnodes hclients) hresults hminimum
  rw [hminimum] at h
  refine ⟨minimum, ⟨hminimum, hpos, minResultsFor_le hminimum⟩, hpos, fun hkrum => ?_,
    fun htrimmed => ?_⟩
  · simp only [if_pos hkrum] at h
    split_ifs at h with hf hk
    refine ⟨not_lt.1 hf, ?_, not_lt.1 hk⟩
    rw [AggregationConfig.candidates]
    split_ifs
    · exact le_rfl
    · exact aggregation.k_pos
  · have hkrum : ¬ (aggregation.method = .krum ∨ aggregation.method = .multiKrum) := by
      rw [htrimmed]
      decide
    simp only [if_neg hkrum, if_pos htrimmed] at h
    split_ifs at h with htrim
    exact not_le.1 htrim

end Config

/-! ## Rounds -/

variable {Params Update : Type} {config : Config} {minimum : ℕ}

/-- An error that is not about the number of results to wait for. -/
def Expected : Option CoordinatorError → Prop
  | some .minResultsExceedClients | some .invalidMinimum => False
  | _ => True

/-- At most as many results as wanted, and all of them successful. -/
structure Collected.Within (collected : Collected Params Update) (count : ℕ) : Prop where
  length : collected.results.length ≤ count
  succeeded : ∀ message ∈ collected.results, message.result.succeeded = true

/-- Where the coordinator is, it waits for `minimum` results. -/
def Phase.Counted (config : Config) (minimum : ℕ) : Phase Params Update → Prop
  | .drain _ => True
  | .waitDrain _ required m | .scanAvailable _ required m _ _ | .scanDead _ required m _ _ _
  | .checkDeadline _ required m _ _ => required = config.clientsPerRoundCount ∧ m = minimum
  | .choose _ required available => required = config.clientsPerRoundCount ∧
      minimum ≤ available.length
  | .send round _ => config.minResultsFor round.selected.length = .ok minimum
  | .collect _ m collected | .receive _ m collected | .scanLost _ m collected _ _ =>
    m = minimum ∧ collected.results.length < minimum ∧ collected.Within minimum
  | .finish _ m collected => m = minimum ∧ collected.Within minimum
  | .closing _ error | .closed error => Expected error

namespace System

theorem length_draw (count : ℕ) {available : List String} (h : count ≤ available.length)
    (drawn : List String) : (draw count available drawn).length = count := by
  rw [draw]
  split_ifs with hdrawn
  · exact hdrawn.2.1
  · rw [List.length_take, min_eq_left h]

theorem counted_enterWait (h : config.Quorum minimum) (roundID : ℕ) :
    (enterWait config roundID : Phase Params Update).Counted config minimum := by
  have hbounds : ¬ (minimum ≤ 0 ∨ minimum > config.clientsPerRoundCount) :=
    not_or.2 ⟨not_le.2 h.pos, not_lt.2 h.le⟩
  simp only [enterWait, h.count, if_neg hbounds]
  exact ⟨rfl, rfl⟩

/-- A result brings the round at most to the number it waits for. -/
theorem counted_observe {round : RoundStart Params} {collected : Collected Params Update}
    (hlt : collected.results.length < minimum) (hwithin : collected.Within minimum)
    (message : Message Params Update) :
    (observe round minimum collected message).Counted config minimum := by
  simp only [observe]
  generalize hnext : (if message.result.succeeded = true then
    { collected with
      results := collected.results ++ [message]
      observed := insert message.result.nodeID collected.observed }
    else
    { collected with
      failures := insert message.result.nodeID collected.failures
      observed := insert message.result.nodeID collected.observed }) = next
  have hnextWithin : next.Within minimum := by
    rw [← hnext]
    split_ifs with hsucceeded
    · refine ⟨by simpa using hlt, fun other hother => ?_⟩
      rcases List.mem_append.1 hother with hother | hother
      · exact hwithin.succeeded other hother
      · rwa [List.mem_singleton.1 hother]
    · exact ⟨hwithin.length, hwithin.succeeded⟩
  split_ifs with hother hobserved hfull hreach
  · exact ⟨rfl, hlt, hwithin⟩
  · exact ⟨rfl, hlt, hwithin⟩
  · exact ⟨rfl, hnextWithin⟩
  · exact ⟨rfl, hnextWithin⟩
  · exact ⟨rfl, not_le.1 hfull, hnextWithin⟩

variable (aggregate : Params → List (WorkerResult Update) → Except String Params)

/-- An action of the coordinator keeps the number. -/
theorem counted_coordinate (hquorum : config.Quorum minimum) {s : System Params Update}
    (h : s.phase.Counted config minimum) (choice : Choice) :
    (s.coordinate config aggregate choice).phase.Counted config minimum := by
  unfold System.coordinate
  cases hphase : s.phase with
  | drain roundID =>
    dsimp only
    split
    · rename_i hpop
      obtain ⟨_, _, _, rfl⟩ := pop_eq_some hpop
      exact h
    · exact counted_enterWait hquorum roundID
  | waitDrain roundID required m =>
    rw [hphase] at h
    dsimp only
    split
    · rename_i hpop
      obtain ⟨_, _, _, rfl⟩ := pop_eq_some hpop
      rw [hphase]
      exact h
    · exact h
  | scanAvailable roundID required m remaining available =>
    rw [hphase] at h
    rcases remaining with _ | ⟨node, remaining⟩ <;> dsimp only <;> split_ifs with hcond
    · exact ⟨h.1, hquorum.le.trans (h.1 ▸ hcond)⟩
    all_goals exact h
  | scanDead roundID required m available remaining dead =>
    rw [hphase] at h
    rcases remaining with _ | ⟨node, remaining⟩ <;> dsimp only <;> split_ifs
    · trivial
    all_goals exact h
  | checkDeadline roundID required m available dead =>
    rw [hphase] at h
    dsimp only
    split_ifs with hexpired hcount
    · exact ⟨h.1, h.2 ▸ hcount⟩
    · trivial
    · exact h
  | choose roundID required available =>
    rw [hphase] at h
    obtain ⟨rfl, hcount⟩ := h
    change config.minResultsFor (draw _ available choice.drawn).length = .ok minimum
    rw [length_draw _ (min_le_right _ _)]
    exact hquorum.minResultsFor hcount
  | send round remaining =>
    rw [hphase] at h
    rcases remaining with _ | ⟨node, remaining⟩ <;> dsimp only
    · rw [show config.minResultsFor round.selected.length = .ok minimum from h]
      exact ⟨rfl, hquorum.pos, Nat.zero_le _, fun _ hmem => absurd hmem List.not_mem_nil⟩
    · split_ifs
      · exact h
      · rw [hphase]
        exact h
  | collect round m collected =>
    rw [hphase] at h
    dsimp only
    split_ifs
    · exact h
    · exact ⟨h.1, h.2.2⟩
  | receive round m collected =>
    rw [hphase] at h
    obtain ⟨rfl, hlt, hwithin⟩ := h
    dsimp only
    split
    · exact counted_observe hlt hwithin _
    · exact ⟨rfl, hlt, hwithin⟩
  | scanLost round m collected remaining dead =>
    rw [hphase] at h
    obtain ⟨rfl, hlt, hwithin⟩ := h
    rcases remaining with _ | ⟨node, remaining⟩ <;> dsimp only <;> split_ifs
    · exact ⟨rfl, hwithin.length, hwithin.succeeded⟩
    · exact ⟨rfl, hlt, hwithin.length, hwithin.succeeded⟩
    all_goals exact ⟨rfl, hlt, hwithin⟩
  | finish round m collected =>
    dsimp only
    split_ifs
    · trivial
    all_goals split <;> trivial
  | closing remaining error =>
    rw [hphase] at h
    rcases remaining with _ | ⟨node, remaining⟩ <;> dsimp only
    · exact h
    · split_ifs <;> exact h
  | closed error =>
    rw [hphase] at h
    dsimp only
    rw [hphase]
    exact h

theorem counted_step (hquorum : config.Quorum minimum) {s : System Params Update}
    (h : s.phase.Counted config minimum) (event : Event Update) :
    (s.step config aggregate event).2.phase.Counted config minimum := by
  cases event with
  | take node =>
    change (s.take node).phase.Counted config minimum
    unfold System.take
    split <;> exact h
  | finish node outcome =>
    change (s.finish node outcome).phase.Counted config minimum
    unfold System.finish
    split <;> exact h
  | die node kept =>
    change (s.die node kept).phase.Counted config minimum
    unfold System.die
    split <;> exact h
  | coordinate choice => exact counted_coordinate aggregate hquorum h choice

theorem counted_final (hquorum : config.Quorum minimum) (model : Params)
    (events : List (Event Update)) :
    (final (step config aggregate) (initial model) events).phase.Counted config minimum :=
  @final_invariant _ _ _ (step config aggregate) (initial model)
    (fun s => s.phase.Counted config minimum) trivial
    (fun _ event h => counted_step aggregate hquorum h event) events

theorem length_filterMap_update {messages : List (Message Params Update)}
    (h : ∀ message ∈ messages, message.result.succeeded = true) :
    (messages.filterMap fun message => message.result.update).length = messages.length := by
  induction messages with
  | nil => rfl
  | cons message messages ih =>
    have hsome := (Bool.and_eq_true_iff.1 (h message List.mem_cons_self)).2
    obtain ⟨update, hupdate⟩ := Option.isSome_iff_exists.1 hsome
    rw [List.filterMap_cons, hupdate, List.length_cons, List.length_cons,
      ih fun other hother => h other (List.mem_cons_of_mem message hother)]

/-- With a configuration that the constructor accepts, in every run, no round fails because of the
number of results to wait for, and a round that reaches the aggregation has as many updates as the
constructor counted on; this many updates of one shape are aggregated. -/
theorem rounds_reach_counts (config : Config) (aggregation : AggregationConfig)
    (hinit : config.postInit = .ok ()) (hconstruct : config.construct aggregation = .ok ())
    (aggregate : Params → List (WorkerResult Update) → Except String Params) (model : Params)
    (events : List (Event Update)) :
    ∃ minimum, config.minResultsFor config.clientsPerRoundCount = .ok minimum ∧
      (∀ remaining, (final (step config aggregate) (initial model) events).phase ≠
        .closing remaining (some .minResultsExceedClients)) ∧
      (final (step config aggregate) (initial model) events).phase ≠ .closed
        (some .minResultsExceedClients) ∧
      (∀ round minResults collected,
        (final (step config aggregate) (initial model) events).phase =
        .finish round minResults collected →
        minResults ≤ collected.results.length →
        minResults = minimum ∧
        (collected.results.filterMap fun message => message.result.update).length = minimum) ∧
      CountPreconditions aggregation minimum ∧
      ∀ (updates : List (List ℚ)) (dimension : ℕ), updates.length = minimum →
        (∀ u ∈ updates, u.length = dimension) →
        (∀ topk, ∃ result, torchAggregate topk aggregation updates = .ok result) ∧
        (0 < dimension → aggregation.method = .krum ∨ aggregation.method = .multiKrum ∨
          aggregation.method = .median →
          ∀ std, ∃ result, nativeAggregate std aggregation updates = .ok result) := by
  obtain ⟨minimum, hquorum, hcounts⟩ := config.construct_spec hinit hconstruct
  have hfinal := counted_final aggregate hquorum model events
  generalize final (step config aggregate) (initial model) events = s at hfinal
  refine ⟨minimum, hquorum.count, fun remaining hphase => ?_, fun hphase => ?_,
    fun round minResults collected hphase hlength => ?_, hcounts,
      fun updates dimension hcount hlength => ?_⟩
  · rw [hphase] at hfinal
    exact hfinal
  · rw [hphase] at hfinal
    exact hfinal
  · rw [hphase] at hfinal
    obtain ⟨rfl, hwithin⟩ := hfinal
    exact ⟨rfl, (length_filterMap_update hwithin.succeeded).trans
      (le_antisymm hwithin.length hlength)⟩
  · subst hcount
    exact ⟨fun topk => hcounts.torchAggregate_ok topk hlength,
      fun hdim hmethod std => hcounts.nativeAggregate_ok std hlength hdim hmethod⟩

end System

theorem acceptsBeta_tenth : acceptsBeta 0.1 = true := by decide +kernel

/-- The default configuration of the aggregation. -/
def medianConfig : AggregationConfig where
  method := .median
  f := 0
  k := 1
  beta := 0.1
  k_pos := one_pos
  beta_accepted := acceptsBeta_tenth

/-- Four workers, of which a round needs two. -/
def quorumConfig : Config where
  nodeIDs := ["a", "b", "c", "d"]
  nodup_nodeIDs := by decide
  rounds := 2
  clientsPerRound := some 4
  clientFraction := 1
  minResults := some 2

/-- A round up to its aggregation: the training of a worker fails, and another one does not
answer. -/
def stragglerRound : List (Event Unit) :=
  List.replicate 13 (.coordinate ⟨none, false, []⟩) ++
    [.take "b", .finish "b" (.error "out of memory"), .take "c", .take "a", .finish "c" (.ok ()),
      .take "d", .finish "a" (.ok ())] ++
    ["b", "c", "a"].flatMap fun sender =>
      [.coordinate ⟨none, false, []⟩, .coordinate ⟨some sender, false, []⟩]

theorem rounds_reach_counts_straggler :
    ∃ round collected, (final (System.step quorumConfig fun () _ => .ok ())
      (System.initial ()) stragglerRound).phase =
      .finish round 2 collected ∧ round.selected = ["a", "b", "c", "d"] ∧
        collected.failures = {"b"} ∧
      collected.results.map (fun message => message.result.nodeID) = ["c", "a"] ∧
      (collected.results.filterMap fun message => message.result.update).length = 2 := by
  obtain ⟨minimum, hminimum, -, -, hcount, -⟩ :=
    System.rounds_reach_counts quorumConfig medianConfig
    (by decide +kernel) (by decide +kernel) (fun () _ => .ok ()) () stragglerRound
  have hphase : ∃ round collected,
      (final (System.step quorumConfig fun () _ => .ok ()) (System.initial ())
      stragglerRound).phase = .finish round 2 collected ∧ round.selected = ["a", "b", "c", "d"] ∧
      collected.failures = {"b"} ∧
      collected.results.map (fun message => message.result.nodeID) = ["c", "a"] := by
    exact ⟨_, _, rfl, by decide +kernel⟩
  obtain ⟨round, collected, hphase, hselected, hfailures, hresults⟩ := hphase
  have hlength := congrArg List.length hresults
  rw [List.length_map] at hlength
  obtain ⟨rfl, hupdates⟩ := hcount round 2 collected hphase hlength.ge
  exact ⟨round, collected, hphase, hselected, hfailures, hresults, hupdates⟩

end Simulation

end ZeroTrustFL
