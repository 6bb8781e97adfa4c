import Mathlib
import ZeroTrustFL.Worker.Composition

/-!
# Privacy accounting of a worker

`protect_model_update` of `privacy/rdp.py` in exact arithmetic, and the loop of
`scripts/run_grpc_worker.py` with the telemetry left out.  The answers of the coordinator, the
training and the noise of each cycle are inputs.  A noise-protected update is accounted for only
after it has been accepted and a heartbeat has returned, while a submission that is refused leaves
the worker running.
-/

namespace ZeroTrustFL

/-! ## The mechanism -/

/-- `protect_model_update`; the norm of the update and the normal draws are given. -/
def protectModelUpdate (update : List ℚ) (norm : ℚ) (noise : List ℚ) (config : LocalDPConfig) :
    Except Raised (List ℚ) :=
  if update.length = 0 then .error ⟨"ValueError", "model update must not be empty"⟩
  else if config.enabled = false then .ok update
  else
    let clippingFactor := min 1 (config.clipNorm / max norm (1 / 10 ^ 12))
    let clipped := update.map (· * clippingFactor)
    .ok (List.zipWith (· + ·) clipped (noise.map (· * config.noiseStd)))

/-! ## The worker -/

/-- The members of `grpc.StatusCode` that an error can carry. -/
inductive StatusCode where
  | CANCELLED | UNKNOWN | INVALID_ARGUMENT | DEADLINE_EXCEEDED | NOT_FOUND | ALREADY_EXISTS
  | PERMISSION_DENIED
  | RESOURCE_EXHAUSTED | FAILED_PRECONDITION | ABORTED | OUT_OF_RANGE | UNIMPLEMENTED | INTERNAL
  | UNAVAILABLE
  | DATA_LOSS | UNAUTHENTICATED
deriving DecidableEq

/-- What ends a cycle early: an error of a remote call or another exception. -/
inductive WorkerError where
  | rpc (code : StatusCode)
  | raised (exception : Raised)
deriving DecidableEq

inductive AttackKind where
  | none | labelFlip | gaussian | signFlip | adaptive | collusion
deriving DecidableEq

structure WorkerArgs where
  attack : AttackKind
  enforceDpOnMalicious : Bool
  once : Bool

/-- How `submit_update` ends: before the request leaves the worker, or after it. -/
inductive SubmitOutcome where
  | notSent (error : WorkerError)
  | rpcError (code : StatusCode)
  | failed (exception : Raised)
  | response (accepted : Bool) (reason updateID : String)
deriving DecidableEq

/-- What a cycle meets. -/
structure CycleInput where
  globalModel : Except WorkerError ℕ
  update : Except WorkerError (List ℚ)
  norm : ℚ
  noise : List ℚ
  submit : SubmitOutcome
  heartbeat : Except WorkerError Unit

inductive PrivacyText where
  | off
  | on (releases : ℕ)
  | bypassed
deriving DecidableEq

/-- The lines that a cycle prints. -/
inductive CycleReport where
  | skipped (roundID : ℕ) (code : StatusCode)
  | submitted (updateID : String) (privacy : PrivacyText)
deriving DecidableEq

/-- The accountant, what has been printed, and the updates that have left the worker, each with
whether it was noise-protected. -/
structure WorkerState where
  accountant : RDPAccountant
  reports : List CycleReport
  sent : List (Bool × List ℚ)

namespace WorkerState

def start (localDP : LocalDPConfig) : WorkerState := ⟨⟨localDP, 0⟩, [], []⟩

def send (s : WorkerState) (dpApplied : Bool) (update : List ℚ) : WorkerState :=
  { s with sent := s.sent ++ [(dpApplied, update)] }

/-- The number of noise-protected updates that have been sent. -/
def disclosed (s : WorkerState) : ℕ := s.sent.countP (·.1)

end WorkerState

def dpApplied (args : WorkerArgs) (localDP : LocalDPConfig) : Bool :=
  localDP.enabled && (args.attack = .none || args.enforceDpOnMalicious)

/-- What `_run_cycle` does after an update was accepted and the heartbeat returned. -/
def account (args : WorkerArgs) (localDP : LocalDPConfig) (updateID : String) (s : WorkerState) :
    Except WorkerError Unit × WorkerState :=
  if dpApplied args localDP then
    match s.accountant.step 1 with
    | .error e => (.error (.raised e), s)
    | .ok accountant =>
      (.ok (), { s with
        accountant
        reports := s.reports ++ [.submitted updateID (.on accountant.releases)] })
  else if args.attack ≠ .none ∧ localDP.enabled = true then
    (.ok (), { s with reports := s.reports ++ [.submitted updateID .bypassed] })
  else (.ok (), { s with reports := s.reports ++ [.submitted updateID .off] })

/-- What `_run_cycle` does with the outcome of `submit_update`. -/
def finishSubmission (args : WorkerArgs) (localDP : LocalDPConfig) (roundID : ℕ)
    (input : CycleInput) (update : List ℚ) (s : WorkerState) :
    Except WorkerError Unit × WorkerState :=
  match input.submit with
  | .notSent e => (.error e, s)
  | .rpcError code =>
    let s := s.send (dpApplied args localDP) update
    if code = .FAILED_PRECONDITION ∨ code = .ALREADY_EXISTS then
      (.ok (), { s with reports := s.reports ++ [.skipped roundID code] })
    else (.error (.rpc code), s)
  | .failed e => (.error (.raised e), s.send (dpApplied args localDP) update)
  | .response accepted reason updateID =>
    let s := s.send (dpApplied args localDP) update
    if accepted = false then
      (.error (.raised ⟨"RuntimeError", "coordinator rejected update: " ++ reason⟩), s)
    else
      match input.heartbeat with
      | .error e => (.error e, s)
      | .ok () => account args localDP updateID s

/-- `_run_cycle`. -/
def runCycle (args : WorkerArgs) (localDP : LocalDPConfig) (input : CycleInput) (s : WorkerState) :
    Except WorkerError Unit × WorkerState :=
  match input.globalModel with
  | .error e => (.error e, s)
  | .ok roundID =>
    match input.update with
    | .error e => (.error e, s)
    | .ok update =>
      let dpConfig := { localDP with enabled := dpApplied args localDP }
      match protectModelUpdate update input.norm input.noise dpConfig with
      | .error e => (.error (.raised e), s)
      | .ok protectedUpdate => finishSubmission args localDP roundID input protectedUpdate s

/-- The loop of `main`: each cycle that runs, with the state after it. -/
def workerLoop (args : WorkerArgs) (localDP : LocalDPConfig) :
    List CycleInput → WorkerState → List (CycleInput × WorkerState)
  | [], _ => []
  | input :: inputs, s =>
    match runCycle args localDP input s with
    | (.error _, s) => [(input, s)]
    | (.ok (), s) => (input, s) :: if args.once then [] else workerLoop args localDP inputs s

/-! ## Releases and disclosures -/

/-- The request has left the worker. -/
def SubmitOutcome.sent : SubmitOutcome → Bool
  | .notSent _ => false
  | .rpcError _ | .failed _ | .response _ _ _ => true

/-- An update is prepared and leaves the worker. -/
def CycleInput.sends (input : CycleInput) : Bool :=
  match input.globalModel, input.update with
  | .ok _, .ok update => update.length != 0 && input.submit.sent
  | _, _ => false

/-- The update is accepted and the heartbeat after it returns. -/
def CycleInput.completes (input : CycleInput) : Bool :=
  match input.submit, input.heartbeat with
  | .response true _ _, .ok () => true
  | _, _ => false

section

variable {args : WorkerArgs} {localDP : LocalDPConfig} {input : CycleInput} {s s' : WorkerState}

/-- What a cycle adds to the disclosures and to the releases. -/
structure Adds (s s' : WorkerState) (disclosures releases : ℕ) : Prop where
  disclosed : s'.disclosed = s.disclosed + disclosures
  releases : s'.accountant.releases = s.accountant.releases + releases

theorem adds_nothing (s : WorkerState) : Adds s s 0 0 := ⟨rfl, rfl⟩

theorem adds_send (s : WorkerState) (protect : Bool) (update : List ℚ) :
    Adds s (s.send protect update) protect.toNat 0 := by
  refine ⟨?_, rfl⟩
  rw [WorkerState.disclosed, WorkerState.send, List.countP_append]
  rcases protect <;> rfl

theorem adds_account (updateID : String) (s : WorkerState) :
    Adds s (account args localDP updateID s).2 0 (dpApplied args localDP).toNat := by
  unfold account
  rcases dpApplied args localDP
  · rw [if_neg Bool.false_ne_true]
    split_ifs <;> exact ⟨rfl, rfl⟩
  · exact ⟨rfl, rfl⟩

theorem Adds.trans {s'' : WorkerState} {d d' r r' : ℕ} (h : Adds s s' d r)
    (h' : Adds s' s'' d' r') : Adds s s'' (d + d') (r + r') :=
  ⟨by rw [h'.disclosed, h.disclosed, add_assoc], by rw [h'.releases, h.releases, add_assoc]⟩

theorem adds_finishSubmission (roundID : ℕ) (update : List ℚ) (s : WorkerState) :
    Adds s (finishSubmission args localDP roundID input update s).2
      (dpApplied args localDP && input.submit.sent).toNat
      (dpApplied args localDP && input.completes).toNat := by
  unfold finishSubmission CycleInput.completes
  have hsend := adds_send s (dpApplied args localDP) update
  rcases input.submit with e | code | e | ⟨_ | _, reason, updateID⟩
  · rw [SubmitOutcome.sent, Bool.and_false]
    exact adds_nothing s
  · rw [SubmitOutcome.sent, Bool.and_true, Bool.and_false]
    dsimp only
    split_ifs <;> exact ⟨hsend.disclosed, hsend.releases⟩
  · rw [SubmitOutcome.sent, Bool.and_true, Bool.and_false]
    exact hsend
  · rw [SubmitOutcome.sent, Bool.and_true, Bool.and_false]
    exact hsend
  · rw [SubmitOutcome.sent, Bool.and_true]
    rcases input.heartbeat with e | _
    · rw [Bool.and_false]
      exact hsend
    · rw [Bool.and_true]
      have h := hsend.trans (@adds_account args localDP updateID _)
      rwa [add_zero, zero_add] at h

/-- A cycle adds at most one disclosure and one release, and the release only when it completes. -/
theorem adds_runCycle (input : CycleInput) (s : WorkerState) :
    Adds s (runCycle args localDP input s).2 (dpApplied args localDP && input.sends).toNat
      (dpApplied args localDP && (input.sends && input.completes)).toNat := by
  have hnothing : (dpApplied args localDP && false).toNat = 0 := by rw [Bool.and_false]; rfl
  unfold runCycle CycleInput.sends
  rcases input.globalModel with e | roundID
  · rw [Bool.false_and, hnothing]
    exact adds_nothing s
  rcases input.update with e | update
  · rw [Bool.false_and, hnothing]
    exact adds_nothing s
  dsimp only
  unfold protectModelUpdate
  by_cases hempty : update.length = 0
  · rw [if_pos hempty, hempty]
    rw [bne_self_eq_false, Bool.false_and, Bool.false_and, hnothing]
    exact adds_nothing s
  · rw [if_neg hempty, (bne_iff_ne.2 hempty : (update.length != 0) = true), Bool.true_and]
    have hcompletes : (input.submit.sent && input.completes) = input.completes := by
      unfold CycleInput.completes
      rcases input.submit with e | code | e | ⟨_ | _, reason, updateID⟩ <;> rfl
    rw [hcompletes]
    split_ifs <;> exact adds_finishSubmission roundID _ s

/-- The cycle sends a noise-protected update without accounting for it. -/
def Uncovered (args : WorkerArgs) (localDP : LocalDPConfig) (input : CycleInput) : Prop :=
  dpApplied args localDP = true ∧ input.sends = true ∧ input.completes = false

theorem covers_iff_of_eq {inputs : List CycleInput} (h : s.disclosed = s.accountant.releases) :
    (∀ c ∈ workerLoop args localDP inputs s, c.2.disclosed ≤ c.2.accountant.releases) ↔
      ∀ c ∈ workerLoop args localDP inputs s, ¬ Uncovered args localDP c.1 := by
  induction inputs generalizing s with
  | nil => exact iff_of_true (fun c hc => absurd hc List.not_mem_nil) fun c hc =>
      absurd hc List.not_mem_nil
  | cons input inputs ih =>
    have hadds : Adds s (runCycle args localDP input s).2 _ _ := adds_runCycle input s
    have hhead : (runCycle args localDP input s).2.disclosed ≤
        (runCycle args localDP input s).2.accountant.releases ↔
        ¬ Uncovered args localDP input := by
      rw [hadds.disclosed, hadds.releases, h, Uncovered]
      rcases dpApplied args localDP <;> rcases input.sends <;> rcases input.completes <;> simp
    have hequal (hcovered : ¬ Uncovered args localDP input) :
        (runCycle args localDP input s).2.disclosed =
          (runCycle args localDP input s).2.accountant.releases := by
      rw [Uncovered] at hcovered
      rw [hadds.disclosed, hadds.releases, h]
      revert hcovered
      rcases dpApplied args localDP <;> rcases input.sends <;> rcases input.completes <;> simp
    unfold workerLoop
    rcases hcycle : runCycle args localDP input s with ⟨e | _, s'⟩
    · rw [hcycle] at hhead
      simpa using hhead
    · rw [hcycle] at hhead hequal
      simp only [List.forall_mem_cons, hhead]
      refine and_congr_right fun hcovered => ?_
      split_ifs
      · exact iff_of_true (fun c hc => absurd hc List.not_mem_nil) fun c hc =>
          absurd hc List.not_mem_nil
      · exact ih (hequal hcovered)

end

/-! ## The reported epsilon -/

/-- The accountant has recorded the disclosures, and reports no less than their epsilon. -/
def WorkerState.Covers (s : WorkerState) : Prop :=
  s.disclosed ≤ s.accountant.releases ∧
    ({ s.accountant with releases := s.disclosed } : RDPAccountant).epsilon.1 ≤
    s.accountant.epsilon.1

/-- The accounting covers the disclosures after every cycle of a run exactly when no cycle of it
sends a noise-protected update that is not accepted or not followed by a heartbeat. -/
theorem accounting_covers_iff (args : WorkerArgs) (localDP : LocalDPConfig)
    (inputs : List CycleInput) :
    (∀ c ∈ workerLoop args localDP inputs (.start localDP), c.2.Covers) ↔
      ∀ c ∈ workerLoop args localDP inputs (.start localDP), ¬ Uncovered args localDP c.1 := by
  have hcovers (s : WorkerState) : s.Covers ↔ s.disclosed ≤ s.accountant.releases :=
    ⟨fun h => h.1, fun h => ⟨h, s.accountant.config.exact.monotone_epsilon h⟩⟩
  simp only [hcovers]
  exact covers_iff_of_eq rfl

/-- A cycle whose update the coordinator refuses because the round has moved on. -/
def refusedCycle : CycleInput where
  globalModel := .ok 1
  update := .ok [1 / 2]
  norm := 1 / 2
  noise := [1 / 10]
  submit := .rpcError .FAILED_PRECONDITION
  heartbeat := .ok ()

/-- Two refused updates leave the worker running with nothing recorded. -/
theorem refused_updates_uncounted :
    (workerLoop ⟨.none, false, false⟩ sampleDP [refusedCycle, refusedCycle] (.start sampleDP)).map
        (fun c => (c.2.disclosed, c.2.accountant.releases)) = [(1, 0), (2, 0)] ∧
      ¬ ∀ c ∈ workerLoop ⟨.none, false, false⟩ sampleDP [refusedCycle, refusedCycle]
        (.start sampleDP), c.2.Covers := by
  have hcounts : (workerLoop ⟨.none, false, false⟩ sampleDP [refusedCycle, refusedCycle]
      (.start sampleDP)).map
      (fun c => (c.2.disclosed, c.2.accountant.releases)) = [(1, 0), (2, 0)] := by decide +kernel
  refine ⟨hcounts, fun h => ?_⟩
  obtain ⟨c, hc, heq⟩ := List.mem_map.1 (hcounts ▸ List.mem_cons_self)
  have hle := (h c hc).1
  rw [(Prod.mk.inj heq).1, (Prod.mk.inj heq).2] at hle
  exact absurd hle (by decide)

end ZeroTrustFL
