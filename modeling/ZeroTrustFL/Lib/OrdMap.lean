import Mathlib.Data.List.Sort
import Mathlib.Data.List.Nodup

/-!
# Finite maps with ordered keys

A finite map is a list of entries whose keys strictly increase, so that two maps with the same
lookups are equal (`OrdMap.ext_get?`).  A loop over such a map in an unspecified order visits
`order.arrange m.entries` for some `order : IterOrder`.
-/

namespace ZeroTrustFL

/-- A finite map, stored as entries with strictly increasing keys. -/
structure OrdMap (κ ν : Type) [LinearOrder κ] where
  entries : List (κ × ν)
  sorted : (entries.map Prod.fst).Pairwise (· < ·)
deriving DecidableEq

/-- An order in which a loop visits the elements of a collection. -/
structure IterOrder where
  arrange : ∀ {α : Type}, List α → List α
  perm : ∀ {α : Type} (l : List α), (arrange l).Perm l

/-- The order in which the elements are listed. -/
def IterOrder.listed : IterOrder := ⟨fun l => l, fun l => List.Perm.refl l⟩

/-- The reverse of the order in which the elements are listed. -/
def IterOrder.reversed : IterOrder := ⟨List.reverse, List.reverse_perm⟩

theorem IterOrder.mem_arrange (order : IterOrder) {α : Type} {l : List α} {a : α} :
    a ∈ order.arrange l ↔ a ∈ l := (order.perm l).mem_iff

theorem IterOrder.length_arrange (order : IterOrder) {α : Type} (l : List α) :
    (order.arrange l).length = l.length := (order.perm l).length_eq

namespace OrdMap

variable {κ ν : Type} [LinearOrder κ]

/-! ## Operations -/

/-- The empty map. -/
def empty : OrdMap κ ν := ⟨[], List.Pairwise.nil⟩

instance : EmptyCollection (OrdMap κ ν) := ⟨empty⟩

instance : Inhabited (OrdMap κ ν) := ⟨∅⟩

/-- The value stored under a key. -/
def get? (m : OrdMap κ ν) (k : κ) : Option ν := m.entries.lookup k

/-- The number of entries. -/
def size (m : OrdMap κ ν) : ℕ := m.entries.length

/-- The stored values, in the order of their keys. -/
def values (m : OrdMap κ ν) : List ν := m.entries.map Prod.snd

/-- Insertion into an ordered list of entries; an existing value under the key is replaced. -/
def insertEntry (k : κ) (v : ν) : List (κ × ν) → List (κ × ν)
  | [] => [(k, v)]
  | (k', v') :: l =>
    if k < k' then (k, v) :: (k', v') :: l
    else if k = k' then (k, v) :: l
    else (k', v') :: insertEntry k v l

variable {l : List (κ × ν)} {key : ν → κ} (m : OrdMap κ ν) (k x : κ) (v : ν)

theorem mem_keys_insertEntry {k x : κ} {v : ν} (hx : x ∈ (insertEntry k v l).map Prod.fst) :
    x = k ∨ x ∈ l.map Prod.fst := by
  induction l with
  | nil => simpa [insertEntry] using hx
  | cons e l ih =>
    obtain ⟨k', v'⟩ := e
    rw [insertEntry] at hx
    split_ifs at hx with hlt heq
    · simpa using hx
    · subst heq
      simp only [List.map_cons, List.mem_cons] at hx ⊢
      tauto
    · simp only [List.map_cons, List.mem_cons] at hx ⊢
      rcases hx with hx | hx
      · exact Or.inr (Or.inl hx)
      · rcases ih hx with h | h
        · exact Or.inl h
        · exact Or.inr (Or.inr h)

theorem sorted_insertEntry (hl : (l.map Prod.fst).Pairwise (· < ·)) :
    ((insertEntry k v l).map Prod.fst).Pairwise (· < ·) := by
  induction l with
  | nil => simp [insertEntry]
  | cons e l ih =>
    obtain ⟨k', v'⟩ := e
    rw [List.map_cons, List.pairwise_cons] at hl
    rw [insertEntry]
    split_ifs with hlt heq
    · simp only [List.map_cons, List.pairwise_cons, List.mem_cons]
      refine ⟨?_, hl⟩
      rintro x (rfl | hx)
      · exact hlt
      · exact hlt.trans (hl.1 x hx)
    · subst heq
      exact List.pairwise_cons.2 hl
    · refine List.pairwise_cons.2 ⟨?_, ih hl.2⟩
      intro x hx
      rcases mem_keys_insertEntry hx with rfl | hx
      · exact lt_of_le_of_ne (not_lt.1 hlt) (Ne.symm heq)
      · exact hl.1 x hx

/-- Stores a value under a key. -/
def insert (m : OrdMap κ ν) (k : κ) (v : ν) : OrdMap κ ν :=
  ⟨insertEntry k v m.entries, sorted_insertEntry k v m.sorted⟩

/-- Keeps the entries that satisfy a test. -/
def filter (m : OrdMap κ ν) (p : κ → ν → Bool) : OrdMap κ ν :=
  ⟨m.entries.filter fun e => p e.1 e.2,
    m.sorted.sublist (List.filter_sublist.map Prod.fst)⟩

/-- Removes a key. -/
def erase (m : OrdMap κ ν) (k : κ) : OrdMap κ ν := m.filter fun k' _ => k' ≠ k

/-- The map that holds the entries of a list, later ones replacing earlier ones. -/
def ofList (l : List (κ × ν)) : OrdMap κ ν := l.foldl (fun m e => m.insert e.1 e.2) ∅

/-! ## Lookups -/

theorem nodup_keys : (m.entries.map Prod.fst).Nodup :=
  m.sorted.imp fun h => ne_of_lt h

theorem nodup_entries : m.entries.Nodup := m.nodup_keys.of_map _

theorem lookup_cons_ite (l : List (κ × ν)) :
    ((k, v) :: l).lookup x = if x = k then some v else l.lookup x := by
  rw [List.lookup_cons]
  by_cases h : x = k
  · simp [h]
  · have hb : (x == k) = false := by simpa using h
    rw [hb, if_neg h]

theorem lookup_eq_some_iff_mem (hl : (l.map Prod.fst).Nodup) {k : κ} {v : ν} :
    l.lookup k = some v ↔ (k, v) ∈ l := by
  induction l with
  | nil => simp
  | cons e l ih =>
    obtain ⟨k', v'⟩ := e
    rw [List.map_cons, List.nodup_cons] at hl
    rw [lookup_cons_ite, List.mem_cons, Prod.mk.injEq]
    by_cases h : k = k'
    · subst h
      have hmem : (k, v) ∉ l := fun hin => hl.1 (List.mem_map.2 ⟨_, hin, rfl⟩)
      simp [hmem, eq_comm]
    · simp [h, ih hl.2]

/-- An entry is in the list of a map exactly when its key looks it up. -/
theorem get?_eq_some_iff {k : κ} {v : ν} :
    m.get? k = some v ↔ (k, v) ∈ m.entries := lookup_eq_some_iff_mem m.nodup_keys

theorem get?_eq_none_iff {k : κ} :
    m.get? k = none ↔ k ∉ m.entries.map Prod.fst := by
  constructor
  · intro h hk
    obtain ⟨⟨k', v⟩, hv, rfl⟩ := List.mem_map.1 hk
    rw [m.get?_eq_some_iff.2 hv] at h
    cases h
  · intro h
    rcases hv : m.get? k with _ | v
    · rfl
    · exact absurd (List.mem_map_of_mem (f := Prod.fst) (m.get?_eq_some_iff.1 hv)) h

theorem mem_values_iff {v : ν} : v ∈ m.values ↔ ∃ k, m.get? k = some v := by
  simp [values, get?_eq_some_iff]

/-- Two maps with the same lookups are equal. -/
theorem ext_get? {m m' : OrdMap κ ν} (h : ∀ k, m.get? k = m'.get? k) : m = m' := by
  have hmem : ∀ e, e ∈ m.entries ↔ e ∈ m'.entries := by
    rintro ⟨k, v⟩
    rw [← get?_eq_some_iff, ← get?_eq_some_iff, h]
  have hp : m.entries.Perm m'.entries :=
    (List.perm_ext_iff_of_nodup m.nodup_entries m'.nodup_entries).2 hmem
  have he : m.entries = m'.entries :=
    hp.eq_of_pairwise (fun a b _ _ hab hba => absurd hab (not_lt.2 (le_of_lt hba)))
      (List.pairwise_map.1 m.sorted) (List.pairwise_map.1 m'.sorted)
  cases m
  cases m'
  cases he
  rfl

@[simp] theorem get?_empty : (∅ : OrdMap κ ν).get? k = none := rfl

@[simp] theorem entries_empty : (∅ : OrdMap κ ν).entries = [] := rfl

@[simp] theorem size_empty : (∅ : OrdMap κ ν).size = 0 := rfl

@[simp] theorem values_empty : (∅ : OrdMap κ ν).values = [] := rfl

theorem lookup_insertEntry (l : List (κ × ν)) :
    (insertEntry k v l).lookup x = if x = k then some v else l.lookup x := by
  induction l with
  | nil => simp [insertEntry, lookup_cons_ite]
  | cons e l ih =>
    obtain ⟨k', v'⟩ := e
    rw [insertEntry]
    by_cases hlt : k < k'
    · rw [if_pos hlt, lookup_cons_ite]
    · rw [if_neg hlt]
      by_cases heq : k = k'
      · subst heq
        rw [if_pos rfl, lookup_cons_ite, lookup_cons_ite]
        split_ifs <;> rfl
      · rw [if_neg heq, lookup_cons_ite, lookup_cons_ite, ih]
        by_cases hx : x = k
        · subst hx
          simp [heq]
        · simp [hx]

theorem get?_insert :
    (m.insert k v).get? x = if x = k then some v else m.get? x := lookup_insertEntry k x v m.entries

@[simp] theorem get?_insert_self :
    (m.insert k v).get? k = some v := by simp [get?_insert]

theorem get?_insert_of_ne {k x : κ} (h : x ≠ k) :
    (m.insert k v).get? x = m.get? x := by simp [get?_insert, h]

theorem insert_of_get?_eq_some {k : κ} {v : ν} (h : m.get? k = some v) :
    m.insert k v = m := by
  refine ext_get? fun x => ?_
  rw [get?_insert]
  split_ifs with hx
  · rw [hx, h]
  · rfl

theorem get?_filter (p : κ → ν → Bool) (k : κ) :
    (m.filter p).get? k = (m.get? k).filter (p k) := by
  ext v
  rw [get?_eq_some_iff, Option.filter_eq_some_iff, get?_eq_some_iff]
  exact List.mem_filter

theorem get?_erase :
    (m.erase k).get? x = if x = k then none else m.get? x := by
  rw [erase, get?_filter]
  by_cases h : x = k
  · subst h
    simp
  · rcases m.get? x with _ | v <;> simp [h]

@[simp] theorem get?_erase_self : (m.erase k).get? k = none := by
  simp [get?_erase]

theorem get?_erase_of_ne {k x : κ} (h : x ≠ k) :
    (m.erase k).get? x = m.get? x := by simp [get?_erase, h]

/-- Inserting a new key and removing it again gives the map back. -/
theorem erase_insert {k : κ} (h : m.get? k = none) :
    (m.insert k v).erase k = m := by
  refine ext_get? fun x => ?_
  by_cases hx : x = k
  · simp [hx, h]
  · rw [get?_erase_of_ne _ hx, get?_insert_of_ne _ _ hx]

/-! ## Sizes -/

theorem length_insertEntry (h : k ∉ l.map Prod.fst) :
    (insertEntry k v l).length = l.length + 1 := by
  induction l with
  | nil => rfl
  | cons e l ih =>
    obtain ⟨k', v'⟩ := e
    simp only [List.map_cons, List.mem_cons, not_or] at h
    rw [insertEntry, if_neg h.1]
    split_ifs
    · rfl
    · simp [ih h.2]

theorem size_insert_of_none {k : κ} (h : m.get? k = none) :
    (m.insert k v).size = m.size + 1 :=
  length_insertEntry k v (m.get?_eq_none_iff.1 h)

theorem size_filter_le (p : κ → ν → Bool) : (m.filter p).size ≤ m.size :=
  List.length_filter_le _ _

theorem size_erase_le : (m.erase k).size ≤ m.size := m.size_filter_le _

theorem length_values : m.values.length = m.size := by simp [values, size]

/-! ## Maps from lists -/

theorem get?_foldl_insert (l : List (κ × ν)) (hl : (l.map Prod.fst).Nodup) (m : OrdMap κ ν)
    (k : κ) : (l.foldl (fun m e => m.insert e.1 e.2) m).get? k = (l.lookup k).or (m.get? k) := by
  induction l generalizing m with
  | nil => simp
  | cons e l ih =>
    obtain ⟨k', v'⟩ := e
    rw [List.map_cons, List.nodup_cons] at hl
    rw [List.foldl_cons, ih hl.2, lookup_cons_ite, get?_insert]
    by_cases h : k = k'
    · subst h
      have hn : l.lookup k = none := by
        rcases hv : l.lookup k with _ | v
        · rfl
        · exact absurd (List.mem_map_of_mem (f := Prod.fst)
            ((lookup_eq_some_iff_mem hl.2).1 hv)) hl.1
      simp [hn]
    · simp [h]

/-- With distinct keys, the map of a list looks up exactly the entries of the list. -/
theorem get?_ofList_eq_some_iff (hl : (l.map Prod.fst).Nodup) {k : κ} {v : ν} :
    (ofList l).get? k = some v ↔ (k, v) ∈ l := by
  rw [ofList, get?_foldl_insert l hl, get?_empty, Option.or_none, lookup_eq_some_iff_mem hl]

theorem get?_ofList_map (f : κ → ν → ν) (l : List (κ × ν)) (k : κ) :
    (ofList (l.map fun e => (e.1, f e.1 e.2))).get? k = ((ofList l).get? k).map (f k) := by
  have hfold (l : List (κ × ν)) (m m' : OrdMap κ ν) (hm : m'.get? k = (m.get? k).map (f k)) :
      ((l.map fun e => (e.1, f e.1 e.2)).foldl (fun m e => m.insert e.1 e.2) m').get? k =
        ((l.foldl (fun m e => m.insert e.1 e.2) m).get? k).map (f k) := by
    induction l generalizing m m' with
    | nil => exact hm
    | cons e l ih =>
      refine ih _ _ ?_
      rw [get?_insert, get?_insert]
      split_ifs with hk
      · rw [hk, Option.map_some]
      · exact hm
  exact hfold l ∅ ∅ rfl

/-- What a loop that inserts or skips the elements of a list leaves under a key. -/
theorem of_get?_foldl_insert {α : Type} (skip : α → Prop) [DecidablePred skip] (key : α → κ)
    (value : α → ν) (l : List α) (m : OrdMap κ ν) {k : κ} {v : ν}
    (h : (l.foldl (fun m x => if skip x then m else m.insert (key x) (value x)) m).get? k =
      some v) :
    (∃ x ∈ l, key x = k ∧ value x = v) ∨ m.get? k = some v := by
  induction l generalizing m with
  | nil => exact .inr h
  | cons x l ih =>
    rw [List.foldl_cons] at h
    rcases ih _ h with ⟨y, hy, hkv⟩ | hget
    · exact .inl ⟨y, List.mem_cons_of_mem _ hy, hkv⟩
    · split_ifs at hget with hskip
      · exact .inr hget
      · rw [get?_insert] at hget
        split_ifs at hget with hk
        · exact .inl ⟨x, List.mem_cons_self, hk.symm, Option.some.inj hget⟩
        · exact .inr hget

theorem ofList_entries : ofList m.entries = m :=
  ext_get? fun k => Option.ext fun v => by
    rw [get?_ofList_eq_some_iff m.nodup_keys, get?_eq_some_iff]

/-! ## Values that know their key -/

/-- The values are stored under their own keys. -/
def Keyed (key : ν → κ) (m : OrdMap κ ν) : Prop := ∀ k v, m.get? k = some v → key v = k

theorem Keyed.entries_eq {m : OrdMap κ ν} (h : m.Keyed key) :
    m.values.map (fun v => (key v, v)) = m.entries := by
  rw [values, List.map_map]
  conv_rhs => rw [← List.map_id m.entries]
  refine List.map_congr_left fun e he => ?_
  have hkey := h _ _ (m.get?_eq_some_iff.2 he)
  simp [hkey]

theorem Keyed.map_values {m : OrdMap κ ν} (h : m.Keyed key) :
    m.values.map key = m.entries.map Prod.fst := by
  rw [← h.entries_eq, List.map_map]
  rfl

theorem Keyed.nodup_values {m : OrdMap κ ν} (h : m.Keyed key) : (m.values.map key).Nodup := by
  rw [h.map_values]
  exact m.nodup_keys

/-- The values are in the order of their keys. -/
theorem Keyed.insertionSort_values {m : OrdMap κ ν} (h : m.Keyed key) :
    m.values.insertionSort (fun a b => key a ≤ key b) = m.values := by
  have hsorted := m.sorted
  rw [← h.map_values, List.pairwise_map] at hsorted
  exact (hsorted.imp fun hab => le_of_lt hab).insertionSort_eq

/-- A map is rebuilt from its values. -/
theorem Keyed.foldl_insert_values {m : OrdMap κ ν} (h : m.Keyed key) :
    m.values.foldl (fun m v => m.insert (key v) v) ∅ = m := by
  have hfold : m.values.foldl (fun m v => m.insert (key v) v) ∅ = ofList m.entries := by
    rw [← h.entries_eq, ofList, List.foldl_map]
  rw [hfold, ofList_entries]

theorem values_filter (p : ν → Bool) :
    (m.filter fun _ v => p v).values = m.values.filter p := by
  simp [values, filter, List.filter_map, Function.comp_def]

/-- A loop that rebuilds a map from its entries and skips some of them. -/
theorem foldl_insert_entries (skip : κ → ν → Bool) :
    m.entries.foldl (fun m e => if skip e.1 e.2 then m else m.insert e.1 e.2) ∅ =
      m.filter fun k v => !skip k v := by
  have hloop : ∀ (l : List (κ × ν)) (m : OrdMap κ ν),
      l.foldl (fun m e => if skip e.1 e.2 then m else m.insert e.1 e.2) m =
        (l.filter fun e => !skip e.1 e.2).foldl (fun m e => m.insert e.1 e.2) m := by
    intro l m
    rw [List.foldl_filter]
    congr 1
    funext m e
    cases skip e.1 e.2 <;> rfl
  rw [hloop]
  exact ofList_entries (m.filter fun k v => !skip k v)

theorem filter_filter (p q : κ → ν → Bool) (h : ∀ k v, p k v = true → q k v = true) :
    (m.filter q).filter p = m.filter p := by
  refine ext_get? fun k => Option.ext fun v => ?_
  simp only [get?_filter, Option.filter_eq_some_iff]
  constructor
  · exact fun hv => ⟨hv.1.1, hv.2⟩
  · exact fun hv => ⟨⟨hv.1, h k v hv.2⟩, hv.2⟩

/-! ## Maps that extend others -/

/-- Every entry of the first map has a related entry under its key in the second. -/
def Extends (r : κ → ν → ν → Prop) (m m' : OrdMap κ ν) : Prop :=
  ∀ k v, m.get? k = some v → ∃ v', m'.get? k = some v' ∧ r k v v'

theorem Extends.refl {r : κ → ν → ν → Prop} {m : OrdMap κ ν}
    (h : ∀ k v, m.get? k = some v → r k v v) : Extends r m m := fun k v hv => ⟨v, hv, h k v hv⟩

theorem Extends.trans {r : κ → ν → ν → Prop} {m₁ m₂ m₃ : OrdMap κ ν}
    (hr : ∀ k u v w, r k u v → r k v w → r k u w) (h₁ : Extends r m₁ m₂) (h₂ : Extends r m₂ m₃) :
    Extends r m₁ m₃ := by
  intro k u hu
  obtain ⟨v, hv, huv⟩ := h₁ k u hu
  obtain ⟨w, hw, hvw⟩ := h₂ k v hv
  exact ⟨w, hw, hr k u v w huv hvw⟩

end OrdMap

end ZeroTrustFL
