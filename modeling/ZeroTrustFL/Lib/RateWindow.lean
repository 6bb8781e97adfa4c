import Mathlib

/-!
# Restarting windows

A limiter that counts admissions in a window and starts the next window with the first request after
the current one has ended.  `Tracks` says what a window, or none, tells about the admissions so far;
forgetting a window that has ended keeps it.  The windows of the admissions then follow one another
(`Spaced`), and so no interval of the length of a window has more than twice the limit.
-/

namespace ZeroTrustFL

namespace RateWindow

/-- The start of the window that counted an admission, and the time of the admission. -/
structure Admission (T : Type*) where
  window : T
  time : T

section

variable {T : Type*} [LinearOrder T]

/-- The admissions of a window. -/
def countOf (history : List (Admission T)) (window : T) : ℕ :=
  history.countP fun a => a.window = window

theorem countOf_append (history : List (Admission T)) (a : Admission T) (w : T) :
    countOf (history ++ [a]) w = countOf history w + if a.window = w then 1 else 0 := by
  rw [countOf, List.countP_append, List.countP_singleton, countOf]
  simp only [decide_eq_true_eq]

variable [AddCommGroup T]

/-- The window of an admission ends before that of another starts. -/
structure Admission.Precedes (length : T) (a b : Admission T) : Prop where
  spaced : a.window + length ≤ b.window
  before : a.time ≤ b.window
  started : b.window ≤ b.time

/-- The windows follow one another and keep to the limit. -/
structure Spaced (length : T) (limit : ℤ) (history : List (Admission T)) : Prop where
  windows : ∀ a ∈ history, ∀ b ∈ history, a.window = b.window ∨ a.Precedes length b ∨
    b.Precedes length a
  count : ∀ window, (countOf history window : ℤ) ≤ limit

/-- The window, if there is one, counts the admissions since its start, and the windows before it
have ended; without a window all have. -/
structure Tracks (length : T) (window : Option (T × ℤ)) (history : List (Admission T)) (now : T) :
    Prop where
  known : ∀ a ∈ history, a.window + length ≤ now ∨ ∃ count, window = some (a.window, count)
  counted : ∀ start count, window = some (start, count) → (countOf history start : ℤ) ≤ count
  earlier : ∀ start count, window = some (start, count) → ∀ a ∈ history,
    a.window = start ∨ a.window + length ≤ start ∧ a.time ≤ start ∧ start ≤ now

/-! ## What a window knows -/

variable {length now later start : T} {limit count : ℤ} {window : Option (T × ℤ)}
  {history : List (Admission T)}

theorem tracks_nil (window : Option (T × ℤ))
    (h : ∀ start count, window = some (start, count) → 0 ≤ count) (now : T) :
    Tracks length window [] now where
  known _ hmem := absurd hmem List.not_mem_nil
  counted start count heq := h start count heq
  earlier _ _ _ _ hmem := absurd hmem List.not_mem_nil

theorem Tracks.mono (h : Tracks length window history now) (hle : now ≤ later) :
    Tracks length window history later where
  known a ha := (h.known a ha).imp_left fun hended => hended.trans hle
  counted := h.counted
  earlier start count heq a ha := (h.earlier start count heq a ha).imp_right fun ⟨h₁, h₂, h₃⟩ =>
    ⟨h₁, h₂, h₃.trans hle⟩

/-- When its window has ended, so have those of all admissions. -/
theorem Tracks.ended (h : Tracks length window history now) (hle : now ≤ later)
    (hended : ∀ start count, window = some (start, count) → start + length ≤ later)
    {a : Admission T} (ha : a ∈ history) : a.window + length ≤ later := by
  rcases h.known a ha with hnow | ⟨count, heq⟩
  · exact hnow.trans hle
  · exact hended _ _ heq

/-- A window that has ended can be forgotten. -/
theorem Tracks.filter (h : Tracks length window history now) (hle : now ≤ later)
    (keep : T × ℤ → Bool)
    (hdropped : ∀ start count, window = some (start, count) → keep (start, count) = false →
      start + length ≤ later) : Tracks length (window.filter keep) history later where
  known a ha := by
    rcases h.known a ha with hnow | ⟨count, heq⟩
    · exact .inl (hnow.trans hle)
    rcases hkeep : keep (a.window, count) with _ | _
    · exact .inl (hdropped _ _ heq hkeep)
    · exact .inr ⟨count, by rw [heq, Option.filter_some_pos hkeep]⟩
  counted start count heq := h.counted start count (Option.filter_eq_some_iff.1 heq).1
  earlier start count heq := (h.mono hle).earlier start count (Option.filter_eq_some_iff.1 heq).1

/-- The window counts one more. -/
theorem Tracks.increment (h : Tracks length (some (start, count)) history now) :
    Tracks length (some (start, count + 1)) history now where
  known a ha := by
    refine (h.known a ha).imp_right fun ⟨_, heq⟩ => ⟨count + 1, ?_⟩
    cases heq
    rfl
  counted s c heq := by
    cases heq
    exact (h.counted _ _ rfl).trans (by omega)
  earlier s c heq := by
    cases heq
    exact h.earlier _ _ rfl

/-! ## Admissions -/

/-- An admission that the window has counted. -/
theorem Tracks.admit (h : Tracks length (some (start, count)) history now)
    (hroom : (countOf history start : ℤ) < count) (time : T) :
    Tracks length (some (start, count)) (history ++ [⟨start, time⟩]) now where
  known a ha := by
    rcases List.mem_append.1 ha with ha | ha
    · exact h.known a ha
    · rw [List.mem_singleton.1 ha]
      exact .inr ⟨count, rfl⟩
  counted s c heq := by
    cases heq
    rw [countOf_append, if_pos rfl]
    push_cast
    omega
  earlier s c heq a ha := by
    cases heq
    rcases List.mem_append.1 ha with ha | ha
    · exact h.earlier _ _ rfl a ha
    · rw [List.mem_singleton.1 ha]
      exact .inl rfl

/-- With an admission that a window has counted, the windows still follow one another. -/
theorem Spaced.admit (hspaced : Spaced length limit history)
    (h : Tracks length (some (start, count)) history now)
    (hroom : (countOf history start : ℤ) < count) (hlimit : count ≤ limit) {time : T}
    (htime : now ≤ time) : Spaced length limit (history ++ [⟨start, time⟩]) where
  windows a ha b hb := by
    have hnew (c : Admission T) (hc : c ∈ history) :
        c.window = start ∨ c.Precedes length ⟨start, time⟩ :=
      (h.earlier _ _ rfl c hc).imp_right fun ⟨h₁, h₂, h₃⟩ => ⟨h₁, h₂, h₃.trans htime⟩
    rcases List.mem_append.1 ha with ha | ha <;> rcases List.mem_append.1 hb with hb | hb
    · exact hspaced.windows a ha b hb
    · rw [List.mem_singleton.1 hb]
      exact (hnew a ha).imp_right .inl
    · rw [List.mem_singleton.1 ha]
      exact (hnew b hb).imp Eq.symm .inr
    · rw [List.mem_singleton.1 ha, List.mem_singleton.1 hb]
      exact .inl rfl
  count w := by
    rw [countOf_append]
    split_ifs with hw
    · have hw : start = w := hw
      subst hw
      push_cast
      omega
    · exact hspaced.count w

/-! ## The next window -/

variable [IsOrderedAddMonoid T]

theorem countOf_eq_zero (hlength : 0 < length) (hended : ∀ a ∈ history, a.window + length ≤ now) :
    countOf history now = 0 := by
  refine List.countP_eq_zero.2 fun a ha heq => ?_
  have hlt := lt_add_of_pos_right a.window hlength
  rw [of_decide_eq_true heq] at hlt
  have hle := hended a ha
  rw [of_decide_eq_true heq] at hle
  exact hle.not_gt hlt

/-- The next window starts after the current one has ended; there is room for an admission in it. -/
theorem Tracks.restart (h : Tracks length window history now) (hlength : 0 < length)
    (hle : now ≤ later)
    (hended : ∀ start count, window = some (start, count) → start + length ≤ later)
    (htimes : ∀ a ∈ history, a.time ≤ later) :
    Tracks length (some (later, 1)) history later ∧ countOf history later = 0 := by
  have hall : ∀ a ∈ history, a.window + length ≤ later := fun a ha => h.ended hle hended ha
  have hcount := countOf_eq_zero hlength hall
  refine ⟨⟨fun a ha => .inl (hall a ha), fun start count heq => ?_, fun start count heq a ha => ?_⟩,
    hcount⟩
  · cases heq
    rw [hcount]
    exact zero_le_one
  · cases heq
    exact .inr ⟨hall a ha, htimes a ha, le_rfl⟩

/-! ## Intervals -/

/-- Between the windows of two admissions in an interval of the length of a window there is no third
one. -/
theorem Spaced.between (h : Spaced length limit history) (hlength : 0 < length) {u : T}
    {a b c : Admission T} (hmem : a ∈ history ∧ b ∈ history ∧ c ∈ history) (ha : u ≤ a.time)
    (hb : b.time < u + length) (hac : a.window ≤ c.window) (hcb : c.window ≤ b.window) :
    c.window = a.window ∨ c.window = b.window := by
  have hprecedes {x y : Admission T} (hx : x ∈ history) (hy : y ∈ history)
      (hlt : x.window < y.window) : x.Precedes length y := by
    rcases h.windows x hx y hy with heq | hxy | hyx
    · exact absurd heq hlt.ne
    · exact hxy
    · exact absurd ((lt_add_of_pos_right _ hlength).trans_le hyx.spaced) hlt.not_gt
  by_contra hne
  rw [not_or] at hne
  have h₁ := hprecedes hmem.1 hmem.2.2 (hac.lt_of_ne (Ne.symm hne.1))
  have h₂ := hprecedes hmem.2.2 hmem.2.1 (hcb.lt_of_ne hne.2)
  have hchain : c.window + length < c.window + length :=
    calc c.window + length ≤ b.window := h₂.spaced
      _ ≤ b.time := h₂.started
      _ < u + length := hb
      _ ≤ a.time + length := add_le_add_left ha length
      _ ≤ c.window + length := add_le_add_left h₁.before length
  exact lt_irrefl _ hchain

/-- An interval of the length of a window has at most twice the limit of admissions. -/
theorem Spaced.count_interval (h : Spaced length limit history) (hlength : 0 < length) (u : T) :
    (history.countP (fun a => u ≤ a.time ∧ a.time < u + length) : ℤ) ≤ 2 * limit := by
  have hlimit : 0 ≤ limit := (Int.natCast_nonneg _).trans (h.count u)
  rw [List.countP_eq_length_filter]
  generalize hinside : history.filter (fun a => decide (u ≤ a.time ∧ a.time < u + length)) = inside
  have hmem (a : Admission T) (ha : a ∈ inside) : a ∈ history ∧ u ≤ a.time ∧
      a.time < u + length := by
    rw [← hinside, List.mem_filter, decide_eq_true_eq] at ha
    exact ha
  have hsub : inside.Sublist history := hinside ▸ List.filter_sublist
  rcases hmin : inside.argmin Admission.window with _ | a
  · rw [List.argmin_eq_none.1 hmin]
    simpa using hlimit
  rcases hmax : inside.argmax Admission.window with _ | b
  · rw [List.argmax_eq_none.1 hmax]
    simpa using hlimit
  have ha := List.argmin_mem hmin
  have hb := List.argmax_mem hmax
  -- every other admission is in the first or in the last window
  have hrest : inside.countP (fun c => decide ¬ (decide (c.window = a.window) = true)) ≤
      countOf inside b.window := by
    refine List.countP_mono_left fun c hc hne => ?_
    have hcase := h.between hlength ⟨(hmem a ha).1, (hmem b hb).1, (hmem c hc).1⟩ (hmem a ha).2.1
      (hmem b hb).2.2 (List.le_of_mem_argmin hc hmin) (List.le_of_mem_argmax hc hmax)
    simpa using hcase.resolve_left (by simpa using hne)
  have hfirst : countOf inside a.window ≤ countOf history a.window := hsub.countP_le
  have hlast : countOf inside b.window ≤ countOf history b.window := hsub.countP_le
  have htotal : inside.length = countOf inside a.window +
      inside.countP (fun c => decide ¬ (decide (c.window = a.window) = true)) :=
    List.length_eq_countP_add_countP fun c : Admission T => decide (c.window = a.window)
  have h₁ := h.count a.window
  have h₂ := h.count b.window
  omega

end

end RateWindow

end ZeroTrustFL
