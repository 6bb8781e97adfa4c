import Mathlib

/-!
# Storages and views

Memory as a list of storages, addressed by position, and views that select elements of one storage.
Two views of the same storage share memory.
-/

namespace ZeroTrustFL

/-- A block of memory with a tag that says where it lies and what it holds. -/
structure Storage (τ α : Type) where
  tag : τ
  values : List α
deriving DecidableEq

abbrev Memory (τ α : Type) := List (Storage τ α)

/-- Distinct elements of a storage, in the order of the view. -/
structure View where
  storage : ℕ
  positions : List ℕ
  nodup : positions.Nodup
deriving DecidableEq

/-- The part of a view from one index to another. -/
def View.slice (v : View) (first last : ℕ) : View where
  storage := v.storage
  positions := (v.positions.drop first).take (last - first)
  nodup := v.nodup.sublist ((List.take_sublist _ _).trans (List.drop_sublist _ _))

/-- Consecutive parts of a view of the given lengths, from a pointer on. -/
def View.slices (v : View) (pointer : ℕ) : List ℕ → List View
  | [] => []
  | n :: ns => v.slice pointer (pointer + n) :: v.slices (pointer + n) ns

/-- Overwrites the listed positions. -/
def setAll {α : Type} : List α → List ℕ → List α → List α
  | l, [], _ => l
  | l, _ :: _, [] => l
  | l, p :: ps, x :: xs => setAll (l.set p x) ps xs

section SetAll

variable {α : Type}

variable {ps : List ℕ} (l : List α)

@[simp] theorem length_setAll (ps : List ℕ) (xs : List α) :
    (setAll l ps xs).length = l.length := by
  fun_induction setAll l ps xs with
  | case1 => rfl
  | case2 => rfl
  | case3 l p ps x xs ih => rw [ih, List.length_set]

theorem set_setAll {p : ℕ} (y : α) (l : List α) (hp : p ∉ ps) (xs : List α) :
    (setAll l ps xs).set p y = setAll (l.set p y) ps xs := by
  induction ps generalizing l xs with
  | nil => simp only [setAll]
  | cons q ps ih =>
    obtain ⟨hne, hp⟩ := not_or.1 (fun h => hp (List.mem_cons.2 h))
    cases xs with
    | nil => rfl
    | cons x xs =>
      simp only [setAll]
      rw [ih _ hp, List.set_comm _ _ (Ne.symm hne)]

theorem getElem?_setAll_of_notMem {p : ℕ} (hp : p ∉ ps) (xs : List α) :
    (setAll l ps xs)[p]? = l[p]? := by
  induction ps generalizing l xs with
  | nil => simp only [setAll]
  | cons q ps ih =>
    obtain ⟨hne, hp⟩ := not_or.1 (fun h => hp (List.mem_cons.2 h))
    cases xs with
    | nil => rfl
    | cons x xs =>
      simp only [setAll]
      rw [ih _ hp, List.getElem?_set_ne (Ne.symm hne)]

theorem setAll_append {xs : List α} (h : ps.length = xs.length) (qs : List ℕ) (ys : List α) :
    setAll l (ps ++ qs) (xs ++ ys) = setAll (setAll l ps xs) qs ys := by
  induction ps generalizing l xs with
  | nil =>
    obtain rfl := List.length_eq_zero_iff.1 h.symm
    rfl
  | cons p ps ih =>
    cases xs with
    | nil => cases h
    | cons x xs => exact ih (l.set p x) (Nat.succ.inj h)

theorem setAll_setAll (hps : ps.Nodup) {xs ys : List α} (hx : ps.length = xs.length)
    (hy : ps.length = ys.length) : setAll (setAll l ps xs) ps ys = setAll l ps ys := by
  induction ps generalizing l xs ys with
  | nil => simp only [setAll]
  | cons p ps ih =>
    obtain ⟨hp, hps⟩ := List.nodup_cons.1 hps
    rcases xs with _ | ⟨x, xs⟩
    · cases hx
    · rcases ys with _ | ⟨y, ys⟩
      · cases hy
      · simp only [setAll]
        rw [set_setAll y _ hp, List.set_set, ih _ hps (Nat.succ.inj hx) (Nat.succ.inj hy)]

variable [Inhabited α]

theorem map_getD_setAll {l : List α} {ps : List ℕ} (hps : ps.Nodup) (hl : ∀ p ∈ ps, p < l.length)
    {xs : List α} (hx : ps.length = xs.length) :
    ps.map (fun p => (setAll l ps xs).getD p default) = xs := by
  induction ps generalizing l xs with
  | nil => exact (List.length_eq_zero_iff.1 hx.symm).symm
  | cons p ps ih =>
    obtain ⟨hp, hps⟩ := List.nodup_cons.1 hps
    rcases xs with _ | ⟨x, xs⟩
    · cases hx
    · have hlt : p < l.length := hl p List.mem_cons_self
      have hrest : ∀ q ∈ ps, q < (l.set p x).length := fun q hq => by
        rw [List.length_set]
        exact hl q (List.mem_cons_of_mem _ hq)
      simp only [setAll, List.map_cons, ih hps hrest (Nat.succ.inj hx), List.cons.injEq, and_true]
      rw [List.getD_eq_getElem?_getD, getElem?_setAll_of_notMem _ hp, List.getElem?_set_self hlt]
      rfl

theorem setAll_map_getD (l : List α) (ps : List ℕ) :
    setAll l ps (ps.map fun p => l.getD p default) = l := by
  induction ps with
  | nil => rfl
  | cons p ps ih =>
    have hset : l.set p (l.getD p default) = l := by
      apply List.ext_getElem?
      intro i
      by_cases hi : p = i
      · subst hi
        by_cases hp : p < l.length
        · simp [hp]
        · simp [List.getElem?_eq_none (not_lt.1 hp), List.set_eq_of_length_le (not_lt.1 hp)]
      · rw [List.getElem?_set_ne hi]
    simp only [List.map_cons, setAll, hset, ih]

end SetAll

namespace Memory

variable {τ α : Type}

/-- The contents of a storage. -/
def contents (m : Memory τ α) (storage : ℕ) : List α := ((m[storage]?).map Storage.values).getD []

def tagOf (m : Memory τ α) (v : View) : Option τ := (m[v.storage]?).map Storage.tag

/-- A fresh storage with a view of all its elements. -/
def alloc (m : Memory τ α) (tag : τ) (values : List α) : View × Memory τ α :=
  (⟨m.length, List.range values.length, List.nodup_range⟩, m ++ [⟨tag, values⟩])

/-- Writes elements of a storage in place. -/
def writeAt (m : Memory τ α) (storage : ℕ) (positions : List ℕ) (xs : List α) : Memory τ α :=
  m.modify storage fun s => { s with values := setAll s.values positions xs }

def write (m : Memory τ α) (v : View) (xs : List α) : Memory τ α :=
  m.writeAt v.storage v.positions xs

/-- Writes consecutive parts of a list to several views, one after the other. -/
def writeAll (m : Memory τ α) : List View → List α → Memory τ α
  | [], _ => m
  | v :: vs, xs =>
    (m.write v (xs.take v.positions.length)).writeAll vs (xs.drop v.positions.length)

/-- The view lies within its storage. -/
structure Holds (m : Memory τ α) (v : View) : Prop where
  lt : v.storage < m.length
  inside : ∀ p ∈ v.positions, p < (m.contents v.storage).length

/-! ## Writing -/

variable (m : Memory τ α)

@[simp] theorem contents_writeAt (i : ℕ) (ps : List ℕ) (xs : List α) :
    (m.writeAt i ps xs).contents i = setAll (m.contents i) ps xs := by
  simp only [contents, writeAt, List.getElem?_modify_eq]
  rcases m[i]? with _ | s
  · exact (List.length_eq_zero_iff.1 (length_setAll _ _ _)).symm
  · rfl

theorem getElem?_writeAt_of_ne {i j : ℕ} (h : i ≠ j) (ps : List ℕ) (xs : List α) :
    (m.writeAt i ps xs)[j]? = m[j]? := by
  simp [writeAt, h]

@[simp] theorem length_writeAt (i : ℕ) (ps : List ℕ) (xs : List α) :
    (m.writeAt i ps xs).length = m.length := List.length_modify ..

theorem Holds.write {m : Memory τ α} {v : View} (h : m.Holds v) (xs : List α) :
    (m.write v xs).Holds v where
  lt := by simpa [Memory.write] using h.lt
  inside := by simpa [Memory.write] using h.inside

theorem writeAt_writeAt (i : ℕ) (ps qs : List ℕ) (xs ys : List α) (h : ps.length = xs.length) :
    (m.writeAt i ps xs).writeAt i qs ys = m.writeAt i (ps ++ qs) (xs ++ ys) := by
  simp only [writeAt, List.modify_modify_eq, Function.comp_def, setAll_append _ h]

theorem write_write (v : View) {xs ys : List α} (hx : v.positions.length = xs.length)
    (hy : v.positions.length = ys.length) : (m.write v xs).write v ys = m.write v ys := by
  simp only [write, writeAt, List.modify_modify_eq, Function.comp_def,
    setAll_setAll _ v.nodup hx hy]

theorem writeAll_slices (v : View) (pointer : ℕ) (ns : List ℕ)
    (h : pointer + ns.sum ≤ v.positions.length) {xs : List α} (hx : xs.length = ns.sum) :
    m.writeAll (v.slices pointer ns) xs =
      m.writeAt v.storage ((v.positions.drop pointer).take ns.sum) xs := by
  induction ns generalizing m pointer xs with
  | nil =>
    obtain rfl := List.length_eq_zero_iff.1 hx
    simp only [View.slices, writeAll, List.sum_nil, List.take_zero, writeAt, setAll]
    exact (List.modify_id ..).symm
  | cons n ns ih =>
    rw [List.sum_cons] at h hx
    have hfirst : (v.slice pointer (pointer + n)).positions =
        (v.positions.drop pointer).take n := by
      simp only [View.slice, Nat.add_sub_cancel_left]
    have hlen : (v.slice pointer (pointer + n)).positions.length = n := by
      rw [hfirst, List.length_take, List.length_drop]
      omega
    rw [View.slices, writeAll, hlen,
      ih _ (pointer + n) (by omega) (by rw [List.length_drop]; omega), write, hfirst, List.sum_cons,
      List.take_add, List.drop_drop]
    change (m.writeAt v.storage _ _).writeAt v.storage _ _ = _
    rw [writeAt_writeAt, List.take_append_drop]
    rw [← hfirst, hlen, List.length_take]
    omega

/-! ## Fresh storages -/

theorem contents_append (s : Memory τ α) {i : ℕ} (h : i < m.length) :
    contents (m ++ s) i = contents m i := by
  simp only [contents, List.getElem?_append_left h]

theorem Holds.append {m : Memory τ α} {v : View} (h : m.Holds v) (s : Memory τ α) :
    Holds (m ++ s) v where
  lt := by
    rw [List.length_append]
    exact Nat.lt_add_right _ h.lt
  inside := by
    rw [contents_append m s h.lt]
    exact h.inside

theorem contents_alloc (tag : τ) (values : List α) :
    contents (m.alloc tag values).2 (m.alloc tag values).1.storage = values := by
  simp [contents, alloc]

theorem tagOf_alloc (tag : τ) (values : List α) :
    tagOf (m.alloc tag values).2 (m.alloc tag values).1 = some tag := by
  simp [tagOf, alloc]

theorem holds_alloc (tag : τ) (values : List α) :
    (m.alloc tag values).2.Holds (m.alloc tag values).1 where
  lt := by simp [alloc]
  inside := by
    rw [contents_alloc]
    simp [alloc]

/-! ## Reading -/

variable [Inhabited α]

def read (m : Memory τ α) (v : View) : List α :=
  v.positions.map fun p => (m.contents v.storage).getD p default

/-- Reads several views, one after the other. -/
def readAll (m : Memory τ α) (vs : List View) : List α := vs.flatMap m.read

@[simp] theorem length_read (m : Memory τ α) (v : View) : (m.read v).length = v.positions.length :=
  List.length_map ..

theorem read_write {m : Memory τ α} {v : View} (h : m.Holds v) {xs : List α}
    (hx : v.positions.length = xs.length) : (m.write v xs).read v = xs := by
  simp only [read, write, contents_writeAt]
  exact map_getD_setAll v.nodup h.inside hx

/-- Writing what a view reads changes nothing. -/
theorem write_read (m : Memory τ α) (v : View) : m.write v (m.read v) = m := by
  apply List.ext_getElem?
  intro i
  by_cases hi : v.storage = i
  · subst hi
    simp only [write, writeAt, read, contents, List.getElem?_modify_eq]
    rcases m[v.storage]? with _ | s
    · rfl
    · simp only [Option.map_some, Option.getD_some, Option.map_eq_map, setAll_map_getD]
  · exact m.getElem?_writeAt_of_ne hi _ _

theorem read_append (m s : Memory τ α) {v : View} (h : v.storage < m.length) :
    read (m ++ s) v = read m v := by
  simp only [read, contents_append m s h]

theorem read_alloc (m : Memory τ α) (tag : τ) (values : List α) :
    (m.alloc tag values).2.read (m.alloc tag values).1 = values := by
  simp only [read, contents_alloc]
  simp only [alloc]
  apply List.ext_getElem?
  intro i
  by_cases hi : i < values.length <;> simp [hi]

theorem readAll_slices (m : Memory τ α) (v : View) (pointer : ℕ) (ns : List ℕ) :
    m.readAll (v.slices pointer ns) = ((m.read v).drop pointer).take ns.sum := by
  induction ns generalizing pointer with
  | nil => simp [View.slices, readAll]
  | cons n ns ih =>
    have hfirst : m.read (v.slice pointer (pointer + n)) = ((m.read v).drop pointer).take n := by
      simp [read, View.slice, List.map_take, List.map_drop]
    have hrest := ih (pointer + n)
    simp only [readAll] at hrest
    simp only [View.slices, readAll, List.flatMap_cons, hfirst, hrest, List.sum_cons, List.take_add,
      List.drop_drop]

end Memory

end ZeroTrustFL
