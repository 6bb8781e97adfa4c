import Mathlib

/-!
# Checked folds

Loops over a list that carry a state and stop at the first error, as `List.foldlM` and `List.mapM`
in `Except`.  A loop whose steps can be undone from the state after them is determined by its length
and its last state (`foldlM_backward`).
-/

namespace ZeroTrustFL

universe u v w

variable {ε : Type u} {σ : Type v} {α : Type w}

section Fold

variable {step : σ → α → Except ε σ}

variable {s t : σ} {xs : List α}

theorem foldlM_cons_ok {x : α} :
    (x :: xs).foldlM step s = .ok t ↔ ∃ m, step s x = .ok m ∧ xs.foldlM step m = .ok t := by
  rw [List.foldlM_cons]
  rcases step s x with e | m
  · simp [bind, Except.bind]
  · simp [bind, Except.bind]

theorem foldlM_append_ok {ys : List α} :
    (xs ++ ys).foldlM step s = .ok t ↔ ∃ m, xs.foldlM step s = .ok m ∧
      ys.foldlM step m = .ok t := by
  rw [List.foldlM_append]
  rcases xs.foldlM step s with e | m
  · simp [bind, Except.bind]
  · simp [bind, Except.bind]

theorem foldlM_nil_ok : ([] : List α).foldlM step s = .ok t ↔ s = t := by
  simp [pure, Except.pure]

theorem foldlM_concat_ok {x : α} :
    (xs ++ [x]).foldlM step s = .ok t ↔ ∃ m, xs.foldlM step s = .ok m ∧ step m x = .ok t := by
  simp only [foldlM_append_ok, foldlM_cons_ok, foldlM_nil_ok, exists_eq_right]

/-- A loop stops without an error on every beginning of a list on which it does. -/
theorem foldlM_take_ok (h : xs.foldlM step s = .ok t) (n : ℕ) :
    ∃ m, (xs.take n).foldlM step s = .ok m := by
  rw [← List.take_append_drop n xs, foldlM_append_ok] at h
  obtain ⟨m, hm, -⟩ := h
  exact ⟨m, hm⟩

/-- A property of the elements so far and the state after them holds at the end when it holds at the
start and every step keeps it. -/
theorem foldlM_induction {P : List α → σ → Prop} (start : P [] s)
    (next : ∀ xs x m t, P xs m → step m x = .ok t → P (xs ++ [x]) t) :
    ∀ {xs : List α} {t : σ}, xs.foldlM step s = .ok t → P xs t := by
  intro xs
  induction xs using List.reverseRecOn with
  | nil =>
    intro t h
    rw [← foldlM_nil_ok.1 h]
    exact start
  | append_singleton xs x ih =>
    intro t h
    obtain ⟨m, hm, hx⟩ := foldlM_concat_ok.1 h
    exact next xs x m t (ih hm) hx

/-- Two loops of the same length that end in the same state went through the same elements, as far
as `f` tells them apart, when every step can be undone from the state after it. -/
theorem foldlM_backward {β : Type*} {f : α → β} {ys : List α}
    (undo : ∀ x ∈ xs, ∀ y ∈ ys, ∀ s s' t, step s x = .ok t → step s' y = .ok t → f x = f y ∧ s = s')
    (hlength : xs.length = ys.length) {s' : σ} (hxs : xs.foldlM step s = .ok t)
    (hys : ys.foldlM step s' = .ok t) : xs.map f = ys.map f := by
  induction xs using List.reverseRecOn generalizing ys t with
  | nil =>
    rw [List.length_eq_zero_iff.1 hlength.symm]
  | append_singleton xs x ih =>
    rcases ys.eq_nil_or_concat with rfl | ⟨ys, y, rfl⟩
    · simp at hlength
    · rw [List.concat_eq_append] at hys hlength undo ⊢
      obtain ⟨m, hm, hx⟩ := foldlM_concat_ok.1 hxs
      obtain ⟨m', hm', hy⟩ := foldlM_concat_ok.1 hys
      obtain ⟨hxy, rfl⟩ := undo x (by simp) y (by simp) m m' t hx hy
      have hbefore : xs.map f = ys.map f := ih
        (fun a ha b hb => undo a (List.mem_append_left _ ha) b (List.mem_append_left _ hb))
        (by simpa using hlength) hm hm'
      rw [List.map_append, List.map_append, hbefore, List.map_singleton, List.map_singleton, hxy]

end Fold

/-! ## Element by element -/

/-- A list is translated when each of its elements is. -/
theorem mapM_ok_iff {β : Type*} {f : α → Except ε β} {xs : List α} {ys : List β} :
    xs.mapM f = .ok ys ↔ List.Forall₂ (fun x y => f x = .ok y) xs ys := by
  induction xs generalizing ys with
  | nil => simp [pure, Except.pure, eq_comm]
  | cons x xs ih =>
    rw [List.mapM_cons, List.forall₂_cons_left_iff]
    rcases f x with e | y
    · simp [bind, Except.bind]
    · rcases hxs : xs.mapM f with e | zs
      · simp [bind, Except.bind, ← ih, hxs]
      · simp [bind, Except.bind, pure, Except.pure, ← ih, hxs, eq_comm]

theorem mapM_eq_map {β : Type*} {f : α → Except ε β} {g : α → β} {xs : List α}
    (h : ∀ x ∈ xs, f x = .ok (g x)) : xs.mapM f = .ok (xs.map g) :=
  mapM_ok_iff.2 (List.forall₂_map_right_iff.2 (List.forall₂_same.2 h))

end ZeroTrustFL
