import Mathlib
import ZeroTrustFL.Lib.Memory
import ZeroTrustFL.Lib.FloatSub

/-!
# Local training of a simulation worker

`_load_global_parameters` and `_execute_training_round` of `engine/worker.py`, up to the update
before attack and privacy processing.  Tensors are views of storages.  The parameters become views
of the prepared global vector, which is the received one when it has the device and the type of the
worker, and the optimizer writes through these views.
-/

namespace ZeroTrustFL

inductive Device where
  | cpu
  | accelerator (name : String)
deriving DecidableEq

inductive DType where
  | float32
  | other (name : String)
deriving DecidableEq

/-- Where a storage lies and what it holds. -/
structure Placement where
  device : Device
  dtype : DType
deriving DecidableEq

/-- Storages of tensors; the elements of another type stand for what their conversion to `float32`
gives. -/
abbrev TensorMemory := Memory Placement Float32

structure Tensor where
  view : View
  shape : List ℕ
  numel : view.positions.length = shape.prod
deriving DecidableEq

/-- A parameter of a model: its data can be replaced by another view of the same size. -/
abbrev Parameter := Tensor

/-- A Python exception. -/
structure Raised where
  kind : String
  message : String
deriving DecidableEq

/-- `tensor.to(device, dtype)`: the same memory when nothing changes, otherwise a copy. -/
def toPlacement (m : TensorMemory) (v : View) (placement : Placement) : View × TensorMemory :=
  if m.tagOf v = some placement then (v, m) else m.alloc placement (m.read v)

def parametersToVector (m : TensorMemory) (parameters : List View) :
    Except Raised (View × TensorMemory) :=
  match parameters.head?.bind m.tagOf with
  | none => .error ⟨"RuntimeError", "torch.cat(): expected a non-empty list of Tensors"⟩
  | some placement => .ok (m.alloc placement (m.readAll parameters))

/-- `vector_to_parameters`: the views that the parameters of a model get. -/
def vectorToParameters (vector : View) (model : List Parameter) : List View :=
  vector.slices 0 (model.map fun p => p.shape.prod)

/-- The prepared global vector, the data of the parameters and the memory. -/
def loadGlobalParameters (m : TensorMemory) (model : List Parameter) (globalParameters : Tensor)
    (device : Device) : Except Raised (View × List View × TensorMemory) :=
  let (prepared, m) := toPlacement m globalParameters.view ⟨device, .float32⟩
  if globalParameters.shape.length ≠ 1 then
    .error ⟨"ValueError", "global parameter vector must be one-dimensional"⟩
  else
    match parametersToVector m (model.map Tensor.view) with
    | .error e => .error e
    | .ok (expected, m) =>
      if expected.positions.length ≤ 0 then
        .error ⟨"ValueError", "model must contain at least one trainable parameter"⟩
      else if prepared.positions.length ≠ expected.positions.length then
        .error
          ⟨"ValueError", s!"global parameter vector has {prepared.positions.length} values; " ++
          s!"model expects {expected.positions.length}"⟩
      else if !(m.read prepared).all Float32.isFinite then
        .error ⟨"ValueError", "global parameter vector contains non-finite values"⟩
      else .ok (prepared, vectorToParameters prepared model, m)

/-- What one batch does to the values of the parameters; it can raise instead. -/
structure OptimizerStep where
  run : List Float32 → Except Raised (List Float32)
  length_run : ∀ xs ys, run xs = .ok ys → ys.length = xs.length

/-- The batches of all epochs, one after the other, on parameters in memory. -/
def train (m : TensorMemory) (parameters : List View) :
    List OptimizerStep → Except Raised TensorMemory
  | [] => .ok m
  | step :: steps =>
    match step.run (m.readAll parameters) with
    | .error e => .error e
    | .ok values => train (m.writeAll parameters values) parameters steps

/-- What a round of training leaves. -/
structure TrainingRound where
  update : List Float32
  parameters : List View
  memory : TensorMemory
deriving DecidableEq

/-- `_execute_training_round` up to the update before attack and privacy processing. -/
def executeTrainingRound (m : TensorMemory) (model : List Parameter) (globalParameters : Tensor)
    (device : Device) (steps : List OptimizerStep) : Except Raised TrainingRound :=
  match loadGlobalParameters m model globalParameters device with
  | .error e => .error e
  | .ok (prepared, parameters, m) =>
    match train m parameters steps with
    | .error e => .error e
    | .ok m =>
      match parametersToVector m parameters with
      | .error e => .error e
      | .ok (vector, m) =>
        let (localParameters, m) := toPlacement m vector ⟨.cpu, .float32⟩
        let (baseline, m) := toPlacement m prepared ⟨.cpu, .float32⟩
        .ok ⟨List.zipWith (· - ·) (m.read localParameters) (m.read baseline), parameters, m⟩

/-! ## What a round should report -/

/-- The update is what the parameters differ by from the vector as it was received, and the memory
of that vector is untouched. -/
structure Reports (m : TensorMemory) (globalParameters : Tensor) (result : TrainingRound) :
    Prop where
  update : result.update =
    List.zipWith (· - ·) (result.memory.readAll result.parameters) (m.read globalParameters.view)
  untouched : result.memory[globalParameters.view.storage]? = m[globalParameters.view.storage]?

/-- The optimizer steps applied to values, without memory. -/
def trained (steps : List OptimizerStep) (values : List Float32) : Except Raised (List Float32) :=
  match steps with
  | [] => .ok values
  | step :: steps =>
    match step.run values with
    | .error e => .error e
    | .ok values => trained steps values

/-- The vector and the model pass the checks of `loadGlobalParameters`. -/
structure Loadable (m : TensorMemory) (model : List Parameter) (globalParameters : Tensor) :
    Prop where
  holds : m.Holds globalParameters.view
  parameters : ∀ p ∈ model, m.Holds p.view
  rank : globalParameters.shape.length = 1
  numel_pos : 0 < globalParameters.view.positions.length
  numel : globalParameters.view.positions.length = (model.map fun p => p.shape.prod).sum
  finite : ∀ x ∈ m.read globalParameters.view, x.isFinite = true

/-- A value is the received one, or it hides that from its difference with itself. -/
def Returned (x received : Float32) : Prop :=
  x = received ∨ x.isNaN = true ∨ (x = 0 ∧ received = -0)

/-- Training ends at the received values: exactly when the worker trains in the memory of the
received vector, otherwise up to values that are not a number and the sign of zero. -/
def ReturnsToReceived (m : TensorMemory) (globalParameters : Tensor) (device : Device)
    (x : List Float32) : Prop :=
  if m.tagOf globalParameters.view = some ⟨device, .float32⟩ then x = m.read globalParameters.view
  else List.Forall₂ Returned x (m.read globalParameters.view)

/-! ## Moving tensors -/

/-- What `toPlacement` gives: a view with the same values at the wanted place. -/
structure Moved (m : TensorMemory) (v : View) (placement : Placement) (v' : View)
    (m' : TensorMemory) : Prop where
  holds : m'.Holds v'
  read : m'.read v' = m.read v
  tagOf : m'.tagOf v' = some placement
  extension : ∃ s, m' = m ++ s
  same : m.tagOf v = some placement → v' = v
  fresh : m.tagOf v ≠ some placement → v'.storage = m.length

theorem moved_toPlacement {m : TensorMemory} {v : View} (h : m.Holds v) (placement : Placement) :
    Moved m v placement (toPlacement m v placement).1 (toPlacement m v placement).2 := by
  by_cases htag : m.tagOf v = some placement
  · rw [toPlacement, if_pos htag]
    exact ⟨h, rfl, htag, ⟨[], (List.append_nil m).symm⟩, fun _ => rfl, fun hne => absurd htag hne⟩
  · rw [toPlacement, if_neg htag]
    exact ⟨m.holds_alloc _ _, m.read_alloc _ _, m.tagOf_alloc _ _, ⟨_, rfl⟩, fun heq =>
      absurd heq htag, fun _ => rfl⟩

theorem length_readAll (m : TensorMemory) (vs : List View) :
    (m.readAll vs).length = (vs.map fun v => v.positions.length).sum := by
  simp [Memory.readAll, List.length_flatMap]

theorem parametersToVector_ok {m : TensorMemory} {v : View} {vs : List View} (h : m.Holds v) :
    ∃ placement, parametersToVector m (v :: vs) =
      .ok (m.alloc placement (m.readAll (v :: vs))) := by
  obtain ⟨placement, htag⟩ : ∃ placement, m.tagOf v = some placement :=
    ⟨_, by rw [Memory.tagOf, List.getElem?_eq_getElem h.lt, Option.map_some]⟩
  exact ⟨placement, by simp only [parametersToVector, List.head?_cons, Option.bind_some, htag]⟩

/-! ## Training in memory -/

theorem length_trained {steps : List OptimizerStep} {xs ys : List Float32}
    (h : trained steps xs = .ok ys) : ys.length = xs.length := by
  induction steps generalizing xs with
  | nil =>
    cases h
    rfl
  | cons step steps ih =>
    rw [trained] at h
    rcases hrun : step.run xs with e | zs <;> rw [hrun] at h
    · cases h
    · rw [ih h, step.length_run xs zs hrun]

/-- Training through consecutive views of a vector writes the trained values to the vector. -/
theorem train_slices {m : TensorMemory} {v : View} (hv : m.Holds v) {ns : List ℕ}
    (hns : v.positions.length = ns.sum) {steps : List OptimizerStep} {x : List Float32}
    (hx : trained steps (m.read v) = .ok x) :
    train m (v.slices 0 ns) steps = .ok (m.write v x) := by
  induction steps generalizing m with
  | nil =>
    cases hx
    rw [train, m.write_read]
  | cons step steps ih =>
    have hread : m.readAll (v.slices 0 ns) = m.read v := by
      rw [m.readAll_slices, List.drop_zero, List.take_of_length_le (by rw [m.length_read, hns])]
    rw [trained] at hx
    rcases hrun : step.run (m.read v) with e | values <;> rw [hrun] at hx
    · cases hx
    · have hlen : v.positions.length = values.length := by
        rw [step.length_run _ _ hrun, m.length_read]
      have hwrite : m.writeAll (v.slices 0 ns) values = m.write v values := by
        rw [m.writeAll_slices v 0 ns (by omega) (by omega), List.drop_zero,
          List.take_of_length_le hns.le]
        rfl
      have hx' : trained steps ((m.write v values).read v) = .ok x := by
        rw [Memory.read_write hv hlen]
        exact hx
      have hxlen : v.positions.length = x.length := by rw [length_trained hx, ← hlen]
      rw [train, hread, hrun]
      simp only
      rw [hwrite, ih (hv.write values) hx', m.write_write v hlen hxlen]

/-- What loading leaves: the prepared vector holds the received values, in the received memory when
the placement is the same and in a fresh storage otherwise. -/
structure Loaded (m : TensorMemory) (globalParameters : Tensor) (device : Device) (prepared : View)
    (m' : TensorMemory) : Prop where
  holds : m'.Holds prepared
  read : m'.read prepared = m.read globalParameters.view
  extension : ∃ s, m' = m ++ s
  same : m.tagOf globalParameters.view = some ⟨device, .float32⟩ → prepared = globalParameters.view
  fresh : m.tagOf globalParameters.view ≠ some ⟨device, .float32⟩ → prepared.storage = m.length

section

variable {m : TensorMemory} {model : List Parameter} {globalParameters : Tensor}

theorem Loadable.model_ne_nil (h : Loadable m model globalParameters) :
    ∃ p ps, model = p :: ps := by
  rcases model with _ | ⟨p, ps⟩
  · have hpos := h.numel_pos
    rw [h.numel] at hpos
    cases hpos
  · exact ⟨p, ps, rfl⟩

theorem loadGlobalParameters_ok (h : Loadable m model globalParameters) (device : Device) :
    ∃ prepared m', loadGlobalParameters m model globalParameters device =
        .ok (prepared, vectorToParameters prepared model, m') ∧
      Loaded m globalParameters device prepared m' := by
  have hmoved := moved_toPlacement h.holds ⟨device, .float32⟩
  rcases hto : toPlacement m globalParameters.view ⟨device, .float32⟩ with ⟨prepared, m₁⟩
  rw [hto] at hmoved
  obtain ⟨s, rfl⟩ := hmoved.extension
  obtain ⟨placement, hvector⟩ : ∃ placement, parametersToVector (m ++ s) (model.map Tensor.view) =
      .ok (Memory.alloc (m ++ s) placement (Memory.readAll (m ++ s) (model.map Tensor.view))) := by
    obtain ⟨p, ps, rfl⟩ := h.model_ne_nil
    exact parametersToVector_ok ((h.parameters p List.mem_cons_self).append s)
  have hlen : prepared.positions.length = globalParameters.view.positions.length := by
    rw [← Memory.length_read (m ++ s), ← Memory.length_read m]
    exact congrArg List.length hmoved.read
  have hexpected : (Memory.readAll (m ++ s) (model.map Tensor.view)).length =
      globalParameters.view.positions.length := by
    rw [length_readAll, List.map_map, h.numel]
    exact congrArg List.sum (List.map_congr_left fun q _ => q.numel)
  generalize Memory.readAll (m ++ s) (model.map Tensor.view) = expected at hvector hexpected
  have hread : Memory.read (m ++ s ++ [⟨placement, expected⟩]) prepared =
      m.read globalParameters.view :=
    (Memory.read_append (m ++ s) _ hmoved.holds.lt).trans hmoved.read
  have hpos := h.numel_pos
  have hfinite : (m.read globalParameters.view).all Float32.isFinite = true :=
    List.all_eq_true.2 h.finite
  refine ⟨prepared, m ++ s ++ [⟨placement, expected⟩], ?_, ?_⟩
  · simp only [loadGlobalParameters, hto, h.rank, hvector, Memory.alloc, List.length_range,
      hexpected, hlen, hread, hfinite, ne_eq, not_true_eq_false, Bool.not_true, Bool.false_eq_true,
      if_false]
    rw [if_neg (by omega)]
  · exact ⟨hmoved.holds.append _, hread, ⟨_, List.append_assoc m s _⟩, hmoved.same, hmoved.fresh⟩

theorem holds_head_slices {m : TensorMemory} {v : View} (h : m.Holds v) (n : ℕ) :
    m.Holds (v.slice 0 n) where
  lt := h.lt
  inside p hp := h.inside p (List.mem_of_mem_drop (List.mem_of_mem_take hp))

theorem executeTrainingRound_ok (h : Loadable m model globalParameters) (device : Device)
    {steps : List OptimizerStep} {x : List Float32}
    (hx : trained steps (m.read globalParameters.view) = .ok x) :
    ∃ prepared m' t, Loaded m globalParameters device prepared m' ∧
      executeTrainingRound m model globalParameters device steps =
        .ok ⟨List.zipWith (· - ·) x x, vectorToParameters prepared model,
          m'.write prepared x ++ t⟩ := by
  obtain ⟨prepared, m₁, hload, hloaded⟩ := loadGlobalParameters_ok h device
  refine ⟨prepared, m₁, ?_⟩
  have hns : prepared.positions.length = (model.map fun p => p.shape.prod).sum := by
    rw [← h.numel, ← m₁.length_read, hloaded.read, m.length_read]
  have hx₁ : trained steps (m₁.read prepared) = .ok x := by rw [hloaded.read, hx]
  have hxlen : prepared.positions.length = x.length := by rw [length_trained hx₁, m₁.length_read]
  have htrain := train_slices hloaded.holds hns hx₁
  have hholds := hloaded.holds.write x
  have hread := Memory.read_write hloaded.holds hxlen
  generalize m₁.write prepared x = m₂ at htrain hholds hread
  have hall : m₂.readAll (vectorToParameters prepared model) = x := by
    rw [vectorToParameters, m₂.readAll_slices, hread, List.drop_zero,
      List.take_of_length_le (by omega)]
  obtain ⟨placement, hvector⟩ : ∃ placement,
      parametersToVector m₂ (vectorToParameters prepared model) =
      .ok (m₂.alloc placement (m₂.readAll (vectorToParameters prepared model))) := by
    obtain ⟨p, ps, rfl⟩ := h.model_ne_nil
    exact parametersToVector_ok (holds_head_slices hholds _)
  rw [hall] at hvector
  have hvec := m₂.read_alloc placement x
  have hvecHolds := m₂.holds_alloc placement x
  rcases hv : m₂.alloc placement x with ⟨vector, m₃⟩
  rw [hv] at hvec hvecHolds hvector
  obtain rfl : m₃ = m₂ ++ [⟨placement, x⟩] := (congrArg Prod.snd hv).symm
  -- The two copies to the host only add storages.
  have hlocal := moved_toPlacement hvecHolds ⟨.cpu, .float32⟩
  rcases hl : toPlacement (m₂ ++ [⟨placement, x⟩]) vector ⟨.cpu, .float32⟩ with
    ⟨localParameters, m₄⟩
  rw [hl] at hlocal
  obtain ⟨s, rfl⟩ := hlocal.extension
  have hprep := (hholds.append [⟨placement, x⟩]).append s
  have hbase := moved_toPlacement hprep ⟨.cpu, .float32⟩
  rcases hb : toPlacement (m₂ ++ [⟨placement, x⟩] ++ s) prepared ⟨.cpu, .float32⟩ with
    ⟨baseline, m₅⟩
  rw [hb] at hbase
  obtain ⟨t, rfl⟩ := hbase.extension
  refine ⟨[⟨placement, x⟩] ++ s ++ t, hloaded, ?_⟩
  have hlocalRead : Memory.read (m₂ ++ [⟨placement, x⟩] ++ s ++ t) localParameters = x :=
    (Memory.read_append _ t hlocal.holds.lt).trans (hlocal.read.trans hvec)
  have hbaseRead : Memory.read (m₂ ++ [⟨placement, x⟩] ++ s ++ t) baseline = x := by
    refine hbase.read.trans ?_
    rw [Memory.read_append _ s (hholds.append _).lt, Memory.read_append _ _ hholds.lt, hread]
  simp only [executeTrainingRound, hload, vectorToParameters] at htrain hvector ⊢
  simp only [htrain, hvector, hl, hb, hlocalRead, hbaseRead]
  simp only [List.append_assoc]

/-! ## When a round reports what was learned -/

theorem zipWith_sub_self_eq_iff {x r : List Float32} (hlen : x.length = r.length)
    (hr : ∀ y ∈ r, y.isFinite = true) :
    List.zipWith (· - ·) x x = List.zipWith (· - ·) x r ↔ List.Forall₂ Returned x r := by
  induction x generalizing r with
  | nil =>
    obtain rfl := List.length_eq_zero_iff.1 hlen.symm
    exact ⟨fun _ => .nil, fun _ => rfl⟩
  | cons a x ih =>
    rcases r with _ | ⟨b, r⟩
    · cases hlen
    · have htail := ih (Nat.succ.inj hlen) fun y hy => hr y (List.mem_cons_of_mem _ hy)
      simp only [List.zipWith_cons_cons, List.cons.injEq, htail, List.forall₂_cons, Returned,
        sub_self_eq_sub_iff (hr b List.mem_cons_self)]

/-- A round reports what was learned exactly when training ends at the received values: the baseline
that is subtracted lies in the memory that training writes. -/
theorem reports_iff_returnsToReceived (h : Loadable m model globalParameters) (device : Device)
    {steps : List OptimizerStep} {x : List Float32}
    (hx : trained steps (m.read globalParameters.view) = .ok x) :
    ∃ result, executeTrainingRound m model globalParameters device steps = .ok result ∧
      (Reports m globalParameters result ↔ ReturnsToReceived m globalParameters device x) := by
  obtain ⟨prepared, m', t, hloaded, hrun⟩ := executeTrainingRound_ok h device hx
  refine ⟨_, hrun, ?_⟩
  obtain ⟨s, rfl⟩ := hloaded.extension
  have hlen : x.length = (m.read globalParameters.view).length := length_trained hx
  have hxlen : prepared.positions.length = x.length := by
    rw [hlen, ← Memory.length_read (m ++ s), hloaded.read]
  have hns : x.length = (model.map fun p => p.shape.prod).sum := by
    rw [hlen, m.length_read, h.numel]
  have hread : Memory.read ((m ++ s).write prepared x ++ t) prepared = x := by
    rw [Memory.read_append _ t (hloaded.holds.write x).lt, Memory.read_write hloaded.holds hxlen]
  have hall : Memory.readAll ((m ++ s).write prepared x ++ t)
      (vectorToParameters prepared model) = x := by
    rw [vectorToParameters, Memory.readAll_slices, hread, List.drop_zero,
      List.take_of_length_le hns.le]
  by_cases htag : m.tagOf globalParameters.view = some ⟨device, .float32⟩
  · obtain rfl := hloaded.same htag
    rw [ReturnsToReceived, if_pos htag]
    constructor
    · rintro ⟨-, huntouched⟩
      rw [← hread]
      simp only [Memory.read, Memory.contents, huntouched]
    · intro heq
      refine ⟨by simp only [hall, ← heq], ?_⟩
      simp only
      rw [heq, ← hloaded.read, Memory.write_read, List.append_assoc,
        List.getElem?_append_left h.holds.lt]
  · have hne : prepared.storage ≠ globalParameters.view.storage := by
      rw [hloaded.fresh htag]
      exact h.holds.lt.ne'
    have hlt : globalParameters.view.storage < ((m ++ s).write prepared x).length := by
      rw [Memory.write, Memory.length_writeAt, List.length_append]
      exact Nat.lt_add_right _ h.holds.lt
    have huntouched : ((m ++ s).write prepared x ++ t)[globalParameters.view.storage]? =
        m[globalParameters.view.storage]? := by
      rw [List.getElem?_append_left hlt, Memory.write, Memory.getElem?_writeAt_of_ne _ hne,
        List.getElem?_append_left h.holds.lt]
    rw [ReturnsToReceived, if_neg htag, ← zipWith_sub_self_eq_iff hlen h.finite]
    constructor
    · rintro ⟨hupdate, -⟩
      rw [← hall]
      simpa only [hall] using hupdate
    · intro heq
      exact ⟨by simpa only [hall] using heq, huntouched⟩

end

/-! A model with one parameter of two elements, and a vector on the host. -/

def sampleVector : Tensor := ⟨⟨1, [0, 1], by decide⟩, [2], rfl⟩

def sampleModel : List Parameter := [⟨⟨0, [0, 1], by decide⟩, [2], rfl⟩]

def sampleMemory : TensorMemory := [⟨⟨.cpu, .float32⟩, [0, 0]⟩, ⟨⟨.cpu, .float32⟩, [1, 2]⟩]

/-- A step that adds one to every parameter. -/
def incrementStep : OptimizerStep where
  run xs := .ok (xs.map (· + 1))
  length_run := by
    intro xs ys h
    cases h
    exact List.length_map ..

theorem sampleVector_loadable : Loadable sampleMemory sampleModel sampleVector where
  holds := ⟨by decide, by decide +kernel⟩
  parameters := by
    intro p hp
    obtain rfl := List.mem_singleton.1 hp
    exact ⟨by decide, by decide +kernel⟩
  rank := rfl
  numel_pos := by decide
  numel := rfl
  finite := by decide +kernel

theorem reports_incrementStep :
    ∃ result, executeTrainingRound sampleMemory sampleModel sampleVector .cpu [incrementStep] =
      .ok result ∧
      (Reports sampleMemory sampleVector result ↔
        ReturnsToReceived sampleMemory sampleVector .cpu [2, 3]) ∧
      ¬ ReturnsToReceived sampleMemory sampleVector .cpu [2, 3] := by
  have hx : trained [incrementStep] (sampleMemory.read sampleVector.view) = .ok [2, 3] := by
    decide +kernel
  obtain ⟨result, hrun, hiff⟩ := reports_iff_returnsToReceived sampleVector_loadable .cpu hx
  refine ⟨result, hrun, hiff, ?_⟩
  rw [ReturnsToReceived, if_pos (by decide +kernel)]
  decide +kernel

/-- One step on the host reports a zero update and overwrites the received vector. -/
theorem incrementStep_not_reported :
    ∃ result, executeTrainingRound sampleMemory sampleModel sampleVector .cpu [incrementStep] =
      .ok result ∧
      result.update = [0, 0] ∧ result.memory.readAll result.parameters = [2, 3] ∧
      sampleMemory.read sampleVector.view = [1, 2] ∧ result.memory.read sampleVector.view = [2, 3] ∧
      ¬ Reports sampleMemory sampleVector result := by
  refine ⟨((executeTrainingRound sampleMemory sampleModel sampleVector .cpu
    [incrementStep]).toOption.getD
    ⟨[], [], []⟩), by decide +kernel, by decide +kernel, by decide +kernel, by decide +kernel,
    by decide +kernel, ?_⟩
  rintro ⟨hupdate, -⟩
  revert hupdate
  decide +kernel

end ZeroTrustFL
