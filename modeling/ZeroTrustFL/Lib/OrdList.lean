import Mathlib
import ZeroTrustFL.Lib.OrdMap

/-!
# Lists in the order of their keys

A list that is ordered by distinct keys is determined by its elements.  Together with what a loop
over a list has inserted into a map, this turns a list that went through a map into a sorted
sublist.
-/

namespace ZeroTrustFL

variable {κ : Type} [LinearOrder κ] {ν α : Type}

/-- A list in strict order of its keys is determined by its elements. -/
theorem eq_insertionSort_of_mem {key : α → κ} {xs ys : List α}
    (hsorted : xs.Pairwise fun a b => key a < key b) (hys : (ys.map key).Nodup)
    (hmem : ∀ x, x ∈ xs ↔ x ∈ ys) : xs = ys.insertionSort fun a b => key a ≤ key b := by
  have hkeys : (xs.map key).Nodup := List.pairwise_map.2 (hsorted.imp fun hlt => ne_of_lt hlt)
  have hperm : xs.Perm ys := (List.perm_ext_iff_of_nodup hkeys.of_map hys.of_map).2 hmem
  have hsort := ys.perm_insertionSort fun a b => key a ≤ key b
  have hordered : (ys.insertionSort fun a b => key a ≤ key b).Pairwise fun a b =>
      key a ≤ key b := by
    have : Std.Total fun a b : α => key a ≤ key b := ⟨fun a b => le_total _ _⟩
    have : IsTrans α fun a b => key a ≤ key b := ⟨fun a b c hab hbc => le_trans hab hbc⟩
    exact List.pairwise_insertionSort _ ys
  refine (hperm.trans hsort.symm).eq_of_pairwise ?_ (hsorted.imp fun hlt => le_of_lt hlt) hordered
  intro a b ha hb hab hba
  exact List.inj_on_of_nodup_map hkeys ha ((hmem b).2 (hsort.subset hb)) (le_antisymm hab hba)

namespace OrdMap

theorem foldl_insert_skip (skip : α → Bool) (key : α → κ) (value : α → ν) (xs : List α)
    (m : OrdMap κ ν) :
    xs.foldl (fun m x => if skip x then m else m.insert (key x) (value x)) m =
      (xs.filter fun x => !skip x).foldl (fun m x => m.insert (key x) (value x)) m := by
  rw [List.foldl_filter]
  congr 1
  funext m x
  cases skip x <;> rfl

/-- What a loop that inserts the elements of a list with distinct keys and skips some of them has
stored. -/
theorem get?_foldl_insert_skip {skip : α → Bool} {key : α → κ} {value : α → ν} {xs : List α}
    (hxs : (xs.map key).Nodup) {k : κ} {v : ν} :
    (xs.foldl (fun m x => if skip x then m else m.insert (key x) (value x))
        (∅ : OrdMap κ ν)).get? k = some v ↔ ∃ x ∈ xs, skip x = false ∧ key x = k ∧ value x = v := by
  have hkept :
      (((xs.filter fun x => !skip x).map fun x => (key x, value x)).map Prod.fst).Nodup := by
    rw [List.map_map]
    exact hxs.sublist (List.filter_sublist.map key)
  have hlist : (xs.filter fun x => !skip x).foldl (fun m x => m.insert (key x) (value x))
      (∅ : OrdMap κ ν) = ofList ((xs.filter fun x => !skip x).map fun x => (key x, value x)) := by
    rw [ofList, List.foldl_map]
  rw [foldl_insert_skip, hlist, get?_ofList_eq_some_iff hkept, List.mem_map]
  simp only [List.mem_filter, Bool.not_eq_true', Prod.mk.injEq, and_assoc]

/-- The entries of a map as records are in the order of their keys. -/
theorem pairwise_entries (m : OrdMap κ ν) {make : κ × ν → α} {key : α → κ}
    (hkey : ∀ e, key (make e) = e.1) : (m.entries.map make).Pairwise fun a b => key a < key b := by
  rw [List.pairwise_map]
  have hkeys := m.sorted
  rw [List.pairwise_map] at hkeys
  refine hkeys.imp fun {a b} hlt => ?_
  rw [hkey, hkey]
  exact hlt

theorem Keyed.pairwise_values {m : OrdMap κ ν} {key : ν → κ} (h : m.Keyed key) :
    m.values.Pairwise fun a b => key a < key b := by
  have hsorted := m.sorted
  rwa [← h.map_values, List.pairwise_map] at hsorted

end OrdMap

end ZeroTrustFL
