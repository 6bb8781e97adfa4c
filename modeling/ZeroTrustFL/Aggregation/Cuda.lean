import Mathlib
import ZeroTrustFL.Lib.Barrier
import ZeroTrustFL.Lib.Stride
import ZeroTrustFL.Aggregation.Native

/-!
# The trimmed mean on the device

`trimmed_mean_kernel` and `launch_trimmed_mean` of `cpp/src/cuda_aggregation.cu`, in exact
arithmetic.  A block works on one coordinate after the other; its lanes meet at `__syncthreads()`,
and what stands between two barriers is a phase.  The loops around barriers have the same bounds on
all lanes, and so a block runs one list of phases.  Widths and strides do not exceed the number of
threads, which the launch bounds.
-/

namespace ZeroTrustFL

namespace Cuda

/-- A finite number or `CUDART_INF`. -/
abbrev Double := WithTop ℚ

/-- A cell of `values`, which the lanes of a block share, or of `output`. -/
inductive Cell where
  | values (i : ℕ)
  | output (coordinate : ℕ)
  deriving DecidableEq

/-- The register of a lane is its `contribution`. -/
abbrev KernelPhase := Phase Cell Double Double

/-! ## Loops -/

/-- The values of `for (width; width <= bound; width <<= 1)`. -/
def doublings (bound width : ℕ) : List ℕ :=
  if _h : 0 < width ∧ width ≤ bound then width :: doublings bound (width <<< 1) else []
  termination_by bound + 1 - width
  decreasing_by rw [Nat.shiftLeft_eq]; omega

/-- The values of `for (stride; stride > 0; stride >>= 1)`. -/
def halvings (stride : ℕ) : List ℕ :=
  if _h : 0 < stride then stride :: halvings (stride >>> 1) else []
  termination_by stride
  decreasing_by rw [Nat.shiftRight_eq_div_pow]; omega

/-- The loop of `next_power_of_two`. -/
def nextPowerOfTwoFrom (value result : ℕ) : ℕ :=
  if _h : 0 < result ∧ result < value then nextPowerOfTwoFrom value (result <<< 1) else result
  termination_by value - result
  decreasing_by rw [Nat.shiftLeft_eq]; omega

def nextPowerOfTwo (value : ℕ) : ℕ := nextPowerOfTwoFrom value 1

/-! ## Phases -/

/-- Every lane stores a value in its cell. -/
def store (value : ℕ → Double → Double) : KernelPhase := fun lane contribution =>
  .write (.values lane) (value lane contribution) (.done contribution)

/-- What only the first lane does. -/
def onFirst (first : Double → Lane Cell Double Double) : KernelPhase := fun lane contribution =>
  if lane = 0 then first contribution else .done contribution

/-- Lanes without a client hold infinity. -/
def load (updates : List (List ℚ)) (coordinate : ℕ) : KernelPhase := store fun lane _ =>
  if lane < updates.length then (((updates.getD lane []).getD coordinate 0 : ℚ) : Double) else ⊤

def exchange (width stride : ℕ) : KernelPhase := fun threadIdx contribution =>
  let partner := threadIdx ^^^ stride
  if partner > threadIdx then
    let ascending := threadIdx &&& width == 0
    .read (.values threadIdx) fun selfValue =>
      .read (.values partner) fun partnerValue =>
        if decide (selfValue > partnerValue) == ascending then
          .write (.values threadIdx) partnerValue
            (.write (.values partner) selfValue (.done contribution))
        else .done contribution
  else .done contribution

def contribute (trim retained : ℕ) : KernelPhase := fun lane _ =>
  if lane < retained then .read (.values (trim + lane)) .done else .done 0

def storeContribution : KernelPhase := store fun _ contribution => contribution

def reduce (stride : ℕ) : KernelPhase := fun threadIdx contribution =>
  if threadIdx < stride then
    .read (.values threadIdx) fun a =>
      .read (.values (threadIdx + stride)) fun b => .write (.values threadIdx) (a + b)
        (.done contribution)
  else .done contribution

def writeOutput (coordinate retained : ℕ) : KernelPhase := onFirst fun contribution =>
  .read (.values 0) fun sum => .write (.output coordinate) (sum.map (· / retained))
    (.done contribution)

/-! ## The kernel -/

def sortPhases (blockDim : ℕ) : List KernelPhase :=
  (doublings blockDim 2).flatMap fun width => (halvings (width >>> 1)).map (exchange width)

/-- The work of a block on one coordinate. -/
def coordinatePhases (updates : List (List ℚ)) (trim blockDim coordinate : ℕ) : List KernelPhase :=
  let retained := updates.length - 2 * trim
  load updates coordinate :: sortPhases blockDim ++
    [contribute trim retained, storeContribution] ++
    (halvings (blockDim / 2)).map reduce ++
    [writeOutput coordinate retained]

/-- All phases of a block. -/
def trimmedMeanKernel (updates : List (List ℚ)) (dimension trim blockDim gridDim blockIdx : ℕ) :
    List KernelPhase :=
  (strided gridDim dimension blockIdx).flatMap (coordinatePhases updates trim blockDim)

/-- The values that are written to `output`, with their coordinates. -/
def outputs (writes : List (Cell × Double)) : List (ℕ × Double) :=
  writes.filterMap fun w => match w.1 with
    | .values _ => none
    | .output coordinate => some (coordinate, w.2)

/-- What the blocks of a grid write to `output`, one block after the other; `start` is the state in
which each block finds its shared memory. -/
def gridOutputs (updates : List (List ℚ)) (dimension trim gridDim : ℕ)
    (start : ℕ → BlockState Cell Double Double) : List (ℕ × Double) :=
  let blockDim := nextPowerOfTwo updates.length
  (List.range gridDim).flatMap fun blockIdx =>
    outputs (phaseWrites blockDim
      (trimmedMeanKernel updates dimension trim blockDim gridDim blockIdx) (start blockIdx))

/-! ## The launch -/

def kMaxTrimmedMeanClients : ℕ := 1024

/-- `launch_trimmed_mean` for device pointers that are not null. -/
def launchTrimmedMean (updates : List (List ℚ)) (dimension : ℕ) (beta : Float32)
    (start : ℕ → BlockState Cell Double Double) : Except String (List (ℕ × Double)) :=
  let clientCount := updates.length
  if clientCount = 0 ∨ dimension = 0 then .error "CUDA aggregation requires non-empty updates"
  else if beta.isFinite = false ∨ value32 beta < 0 ∨ 1 / 2 ≤ value32 beta then
    .error "trim ratio beta must satisfy 0 <= beta < 0.5"
  else if clientCount > kMaxTrimmedMeanClients then
    .error "CUDA trimmed mean supports at most 1024 clients"
  else
    let trim := trimCount (value32 beta) clientCount
    if 2 * trim ≥ clientCount then .error "trim ratio removes every model update"
    else
      let blocks := if dimension < 65535 then dimension else 65535
      .ok (gridOutputs updates dimension trim blocks start)

end Cuda

end ZeroTrustFL
