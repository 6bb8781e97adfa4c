import Mathlib.Tactic

/-!
# Times and clocks

A time is an integer: the nanoseconds since the zero time of the Go standard library, the first
instant of the year 1.  Durations are nanoseconds too.  A `Clock` gives the successive clock
readings of one operation.
-/

namespace ZeroTrustFL

/-- The zero time marks an absent instant. -/
def isZeroTime (t : ℤ) : Bool := t = 0

def second : ℤ := 1000000000

def minute : ℤ := 60 * second

/-- Seconds from the zero time to the Unix epoch. -/
def unixToInternal : Int64 := 62135596800

/-- `time.Unix(sec, 0)`; the internal second counter wraps around. -/
def unixTime (sec : Int64) : ℤ := (sec + unixToInternal).toInt * second

/-- `Time.Unix`. -/
def unixSeconds (t : ℤ) : ℤ := t / second - unixToInternal.toInt

/-- `Time.Truncate(time.Microsecond)`. -/
def truncateMicrosecond (t : ℤ) : ℤ := t - t % 1000

theorem truncateMicrosecond_idem (t : ℤ) :
    truncateMicrosecond (truncateMicrosecond t) = truncateMicrosecond t := by
  simp only [truncateMicrosecond]
  omega

/-- The clock readings of one operation: they do not decrease, lie after the zero time and end at
`finish`. -/
structure Clock where
  read : ℕ → ℤ
  finish : ℤ
  mono : Monotone read
  le_finish : ∀ i, read i ≤ finish
  pos : 0 < read 0

namespace Clock

/-- The first reading. -/
def start (c : Clock) : ℤ := c.read 0

/-- The readings left after the first `n`. -/
def drop (c : Clock) (n : ℕ) : Clock where
  read i := c.read (n + i)
  finish := c.finish
  mono _ _ h := c.mono (Nat.add_le_add_left h n)
  le_finish i := c.le_finish (n + i)
  pos := lt_of_lt_of_le c.pos (c.mono (Nat.zero_le _))

/-- A clock that stands still. -/
def still (t : ℤ) (h : 0 < t) : Clock where
  read _ := t
  finish := t
  mono _ _ _ := le_rfl
  le_finish _ := le_rfl
  pos := h

/-- A clock that shows the nanosecond after the given one. -/
def tick (t : ℕ) : Clock := still (t.succ : ℕ) (Int.natCast_succ_pos t)

/-- One operation ends before another starts. -/
def Before (c d : Clock) : Prop := c.finish ≤ d.start

instance (c d : Clock) : Decidable (Before c d) := inferInstanceAs (Decidable (_ ≤ _))

variable (c : Clock) (i : ℕ)

@[simp] theorem read_drop (n i : ℕ) : (c.drop n).read i = c.read (n + i) := rfl

@[simp] theorem finish_drop (n : ℕ) : (c.drop n).finish = c.finish := rfl

theorem drop_drop (m n : ℕ) : (c.drop m).drop n = c.drop (m + n) := by
  simp only [drop, Nat.add_assoc]

theorem start_le_read : c.start ≤ c.read i := c.mono (Nat.zero_le i)

theorem start_le_finish : c.start ≤ c.finish := c.le_finish 0

theorem read_pos : 0 < c.read i := lt_of_lt_of_le c.pos (c.start_le_read i)

theorem read_le_read {i j : ℕ} (h : i ≤ j) : c.read i ≤ c.read j := c.mono h

theorem isZeroTime_read : isZeroTime (c.read i) = false := by
  have := c.read_pos i
  simp only [isZeroTime, decide_eq_false_iff_not]
  omega

theorem Before.read_le_read {c d : Clock} (h : c.Before d) (i j : ℕ) : c.read i ≤ d.read j :=
  le_trans (c.le_finish i) (le_trans h (d.start_le_read j))

end Clock

end ZeroTrustFL
