import Mathlib

/-!
# Prefix codes

An encoding is a prefix code on a set of values when the code of a value can be told from what
follows it.  Codes of a fixed length are prefix codes, and so are codes put one after the other and
lists that are preceded by their length.
-/

namespace ZeroTrustFL

variable {α β γ : Type*}

/-- The code of a value of the set can be read off the front of a text. -/
def PrefixCode (encode : α → List β) (s : Set α) : Prop :=
  ∀ ⦃x⦄, x ∈ s → ∀ ⦃y⦄, y ∈ s → ∀ ⦃u v⦄, encode x ++ u = encode y ++ v → x = y ∧ u = v

namespace PrefixCode

variable {encode : α → List β} {s : Set α}

theorem injOn (h : PrefixCode encode s) : Set.InjOn encode s := fun _ hx _ hy hxy =>
  (h hx hy (congrArg (· ++ []) hxy)).1

/-- Codes of one length. -/
theorem of_length {n : ℕ} (hlength : ∀ x ∈ s, (encode x).length = n) (hinj : Set.InjOn encode s) :
    PrefixCode encode s := by
  intro x hx y hy u v h
  obtain ⟨hcode, hrest⟩ := List.append_inj h ((hlength x hx).trans (hlength y hy).symm)
  exact ⟨hinj hx hy hcode, hrest⟩

theorem comp (h : PrefixCode encode s) {f : γ → α} {t : Set γ} (hmaps : Set.MapsTo f t s)
    (hinj : Set.InjOn f t) : PrefixCode (fun x => encode (f x)) t := by
  intro x hx y hy u v huv
  obtain ⟨hf, hrest⟩ := h (hmaps hx) (hmaps hy) huv
  exact ⟨hinj hx hy hf, hrest⟩

/-- Codes of the parts of a pair, one after the other. -/
theorem prod {encode' : γ → List β} {t : Set γ} (h : PrefixCode encode s)
    (h' : PrefixCode encode' t) :
    PrefixCode (fun p : α × γ => encode p.1 ++ encode' p.2) (s ×ˢ t) := by
  intro p hp q hq u v huv
  simp only [List.append_assoc] at huv
  obtain ⟨hfirst, hrest⟩ := h hp.1 hq.1 huv
  obtain ⟨hsecond, hrest⟩ := h' hp.2 hq.2 hrest
  exact ⟨Prod.ext hfirst hsecond, hrest⟩

/-- Lists of one length. -/
theorem flatMap (h : PrefixCode encode s) {xs ys : List α} (hxs : ∀ x ∈ xs, x ∈ s)
    (hys : ∀ y ∈ ys, y ∈ s) (hlength : xs.length = ys.length) {u v : List β}
    (huv : xs.flatMap encode ++ u = ys.flatMap encode ++ v) : xs = ys ∧ u = v := by
  induction xs generalizing ys with
  | nil =>
    obtain rfl := List.length_eq_zero_iff.1 hlength.symm
    exact ⟨rfl, huv⟩
  | cons x xs ih =>
    obtain ⟨y, ys, rfl⟩ := List.exists_cons_of_length_eq_add_one hlength.symm
    rw [List.flatMap_cons, List.flatMap_cons, List.append_assoc, List.append_assoc] at huv
    obtain ⟨rfl, hrest⟩ := h (hxs x List.mem_cons_self) (hys y List.mem_cons_self) huv
    obtain ⟨rfl, htail⟩ := ih (fun z hz => hxs z (List.mem_cons_of_mem _ hz))
      (fun z hz => hys z (List.mem_cons_of_mem _ hz)) (Nat.succ.inj hlength) hrest
    exact ⟨rfl, htail⟩

/-- Lists that are preceded by their length. -/
theorem list {size : ℕ → List β} {lengths : Set ℕ} (hsize : PrefixCode size lengths)
    (h : PrefixCode encode s) :
    PrefixCode (fun xs : List α => size xs.length ++ xs.flatMap encode)
      {xs | xs.length ∈ lengths ∧ ∀ x ∈ xs, x ∈ s} := by
  intro xs hxs ys hys u v huv
  simp only [List.append_assoc] at huv
  obtain ⟨hlength, hrest⟩ := hsize hxs.1 hys.1 huv
  exact h.flatMap hxs.2 hys.2 hlength hrest

end PrefixCode

end ZeroTrustFL
