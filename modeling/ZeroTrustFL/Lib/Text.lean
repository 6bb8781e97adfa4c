import Mathlib.Data.List.DropRight
import Mathlib.Data.List.Basic
import ZeroTrustFL.Lib.Sha256

/-!
# Strings

The string functions of the Go standard library that the coordinator uses: trimming of Unicode
white space, substrings, lower case, hexadecimal text.
-/

namespace ZeroTrustFL

/-- `unicode.IsSpace`. -/
def isSpace (c : Char) : Bool :=
  c.toNat ∈ [0x09, 0x0a, 0x0b, 0x0c, 0x0d, 0x20, 0x85, 0xa0, 0x1680, 0x2028, 0x2029, 0x202f, 0x205f,
    0x3000] || (0x2000 ≤ c.toNat && c.toNat ≤ 0x200a)

/-- `strings.TrimSpace`. -/
def trimSpace (s : String) : String := .ofList ((s.toList.dropWhile isSpace).rdropWhile isSpace)

/-- `unicode.ToLower`, on the characters whose lower case is an ASCII character.  The others stay as
they are, so a text in lower case can differ from Go's where it is not ASCII. -/
def lowerChar (c : Char) : Char :=
  if c.toNat = 0x130 then 'i' else if c.toNat = 0x212a then 'k' else c.toLower

/-- `strings.ToLower`. -/
def toLower (s : String) : String := .ofList (s.toList.map lowerChar)

/-- `hex.EncodeToString`, as a list of characters. -/
def hexChars (b : Bytes) : List Char :=
  b.flatMap fun x => [Nat.digitChar (x.toNat / 16), Nat.digitChar (x.toNat % 16)]

/-- `hex.EncodeToString`. -/
def hexEncode (b : Bytes) : String := .ofList (hexChars b)

/-- The value of a hexadecimal digit of either case. -/
def hexValue (c : Char) : Option ℕ :=
  if '0' ≤ c ∧ c ≤ '9' then some (c.toNat - '0'.toNat)
  else if 'a' ≤ c ∧ c ≤ 'f' then some (c.toNat - 'a'.toNat + 10)
  else if 'A' ≤ c ∧ c ≤ 'F' then some (c.toNat - 'A'.toNat + 10)
  else none

/-- `hex.DecodeString`. -/
def hexDecode : List Char → Option Bytes
  | [] => some []
  | [_] => none
  | h :: l :: rest => do
    let hi ← hexValue h
    let lo ← hexValue l
    let bytes ← hexDecode rest
    return UInt8.ofNat (16 * hi + lo) :: bytes

/-- `strconv.Quote`; characters beyond ASCII count as printable, where Go escapes some of them. -/
def quote (s : String) : String :=
  "\"" ++ String.join (s.toList.map fun c =>
    if c = '"' then "\\\"" else if c = '\\' then "\\\\"
    else if c.toNat = 7 then "\\a" else if c.toNat = 8 then "\\b" else if c.toNat = 9 then "\\t"
    else if c.toNat = 10 then "\\n" else if c.toNat = 11 then "\\v" else if c.toNat = 12 then "\\f"
    else if c.toNat = 13 then "\\r"
    else if c.toNat < 32 || c.toNat = 127 then "\\x" ++ hexEncode [UInt8.ofNat c.toNat]
    else c.toString) ++ "\""

/-- The decimal digits of a number, with zeros in front up to a width. -/
def zeroPadded (width n : ℕ) : List Char := (Nat.toDigits 10 n).leftpad width '0'

/-- `strings.Contains`. -/
def containsChars (pattern : List Char) : List Char → Bool
  | [] => pattern.isEmpty
  | c :: chars => pattern.isPrefixOf (c :: chars) || containsChars pattern chars

/-- The bytes of a string. -/
def stringBytes (s : String) : Bytes := s.toUTF8.data.toList

variable {n : ℕ} {c : Char} {b : Bytes}

theorem containsChars_eq_false {pattern chars : List Char} (hc : pattern.head? = some c)
    (h : c ∉ chars) : containsChars pattern chars = false := by
  obtain ⟨tail, rfl⟩ : ∃ tail, pattern = c :: tail := by
    rcases pattern with _ | ⟨d, tail⟩
    · cases hc
    · exact ⟨tail, by simpa using hc⟩
  induction chars with
  | nil => rfl
  | cons d chars ih =>
    rw [List.mem_cons, not_or] at h
    rw [containsChars, ih h.2, Bool.or_false, List.isPrefixOf, beq_eq_false_iff_ne.2 h.1,
      Bool.false_and]

/-! ## Blank strings -/

theorem trimSpace_eq_empty_iff (s : String) : trimSpace s = "" ↔ ∀ c ∈ s.toList, isSpace c := by
  rw [trimSpace, ← String.toList_inj, String.toList_ofList, String.toList_empty,
    List.rdropWhile_eq_nil_iff]
  constructor
  · intro h c hc
    rw [← List.takeWhile_append_dropWhile (p := isSpace) (l := s.toList), List.mem_append] at hc
    rcases hc with hc | hc
    · exact List.mem_takeWhile_imp hc
    · exact h c hc
  · intro h c hc
    exact h c ((List.dropWhile_sublist _).subset hc)

/-- A string with a character that is no white space is not blank. -/
theorem trimSpace_ne_empty_of_mem {s : String} (hc : c ∈ s.toList) (h : isSpace c = false) :
    trimSpace s ≠ "" := by
  intro he
  rw [(trimSpace_eq_empty_iff s).1 he c hc] at h
  cases h

theorem ne_empty_of_trimSpace_ne_empty {s : String} (h : trimSpace s ≠ "") : s ≠ "" := by
  rintro rfl
  exact h (by decide)

theorem rdropWhile_cons_of_neg {α : Type} {p : α → Bool} {a : α} (h : ¬ p a) (l : List α) :
    (a :: l).rdropWhile p = a :: l.rdropWhile p := by
  induction l using List.reverseRecOn with
  | nil => simp [List.rdropWhile_singleton, h]
  | append_singleton l b ih =>
    by_cases hb : p b
    · rw [← List.cons_append, List.rdropWhile_concat_pos _ _ _ hb,
        List.rdropWhile_concat_pos _ _ _ hb, ih]
    · rw [← List.cons_append, List.rdropWhile_concat_neg _ _ _ hb,
        List.rdropWhile_concat_neg _ _ _ hb, List.cons_append]

/-- Trimming twice is trimming once. -/
theorem trimSpace_trimSpace (s : String) : trimSpace (trimSpace s) = trimSpace s := by
  rw [trimSpace, trimSpace, String.toList_ofList]
  congr 1
  rcases hd : s.toList.dropWhile isSpace with _ | ⟨a, l⟩
  · rfl
  · have ha : ¬ isSpace a := by
      have := List.head_dropWhile_not isSpace (l := s.toList) (by simp [hd])
      simpa [hd] using this
    rw [rdropWhile_cons_of_neg ha, List.dropWhile_cons_of_neg ha, rdropWhile_cons_of_neg ha,
      List.rdropWhile_idempotent]

/-! ## Hexadecimal text -/

theorem digitChar_mem (h : n < 16) : Nat.digitChar n ∈ "0123456789abcdef".toList :=
  (by decide : ∀ n < 16, Nat.digitChar n ∈ "0123456789abcdef".toList) n h

theorem mem_hexChars (h : c ∈ hexChars b) : c ∈ "0123456789abcdef".toList := by
  obtain ⟨x, -, hx⟩ := List.mem_flatMap.1 h
  have hlt := x.toNat_lt
  simp only [List.mem_cons, List.not_mem_nil, or_false] at hx
  rcases hx with rfl | rfl
  · exact digitChar_mem (by omega)
  · exact digitChar_mem (by omega)

theorem digitChar_inj {m : ℕ} (hm : m < 16) (hn : n < 16) (h : Nat.digitChar m = Nat.digitChar n) :
    m = n :=
  (by decide : ∀ m < 16, ∀ n < 16, Nat.digitChar m = Nat.digitChar n → m = n) m hm n hn h

/-- Hexadecimal text determines the bytes. -/
theorem hexChars_injective : Function.Injective hexChars := by
  intro b
  induction b with
  | nil =>
    rintro (_ | ⟨y, b'⟩) h
    · rfl
    · simp [hexChars] at h
  | cons x b ih =>
    rintro (_ | ⟨y, b'⟩) h
    · simp [hexChars] at h
    · simp only [hexChars, List.flatMap_cons, List.cons_append, List.nil_append,
        List.cons.injEq] at h
      obtain ⟨hh, hl, hr⟩ := h
      have hx := x.toNat_lt
      have hy := y.toNat_lt
      have h₁ := digitChar_inj (by omega) (by omega) hh
      have h₂ := digitChar_inj (by omega) (by omega) hl
      rw [ih hr, UInt8.toNat_inj.1 (by omega : x.toNat = y.toNat)]

/-- The text of a non-empty byte list is not blank. -/
theorem trimSpace_hexEncode_ne_empty (h : b ≠ []) : trimSpace (hexEncode b) ≠ "" := by
  rcases b with _ | ⟨x, b⟩
  · exact absurd rfl h
  · have hc : Nat.digitChar (x.toNat / 16) ∈ hexChars (x :: b) := by simp [hexChars]
    refine trimSpace_ne_empty_of_mem (c := Nat.digitChar (x.toNat / 16)) ?_ ?_
    · rw [hexEncode, String.toList_ofList]
      exact hc
    · have hall : ("0123456789abcdef".toList.all fun c => !isSpace c) = true := by decide
      simpa using List.all_eq_true.1 hall _ (mem_hexChars hc)

theorem hexValue_digitChar (h : n < 16) : hexValue (Nat.digitChar n) = some n :=
  (by decide : ∀ n < 16, hexValue (Nat.digitChar n) = some n) n h

theorem lowerChar_digitChar (h : n < 16) : lowerChar (Nat.digitChar n) = Nat.digitChar n :=
  (by decide : ∀ n < 16, lowerChar (Nat.digitChar n) = Nat.digitChar n) n h

theorem toNat_lt_of_hexValue (h : hexValue c = some n) : c.toNat < 128 := by
  unfold hexValue at h
  simp only [Char.le_def, UInt32.le_iff_toNat_le] at h
  split_ifs at h with h₁ h₂ h₃
  · exact lt_of_le_of_lt h₁.2 (by decide)
  · exact lt_of_le_of_lt h₂.2 (by decide)
  · exact lt_of_le_of_lt h₃.2 (by decide)

/-- A digit in lower case is the one its value is written with. -/
theorem digitChar_of_hexValue (h : hexValue c = some n) (hl : lowerChar c = c) :
    n < 16 ∧ Nat.digitChar n = c := by
  have hall : ∀ k < 128, lowerChar (Char.ofNat k) = Char.ofNat k → ∀ m ∈ hexValue (Char.ofNat k),
      m < 16 ∧ Nat.digitChar m = Char.ofNat k := by
    decide
  have hc := hall c.toNat (toNat_lt_of_hexValue h)
  rw [Char.ofNat_toNat] at hc
  exact hc hl n h

theorem hexDecode_hexChars (b : Bytes) : hexDecode (hexChars b) = some b := by
  induction b with
  | nil => rfl
  | cons x b ih =>
    have hx := x.toNat_lt
    have hsum : 16 * (x.toNat / 16) + x.toNat % 16 = x.toNat := Nat.div_add_mod _ _
    change hexDecode (_ :: _ :: hexChars b) = _
    simp only [hexDecode, hexValue_digitChar (show x.toNat / 16 < 16 by omega),
      hexValue_digitChar (show x.toNat % 16 < 16 by omega), ih, hsum, UInt8.ofNat_toNat,
      Option.pure_def, Option.bind_eq_bind, Option.bind_some]

theorem toLower_hexEncode (b : Bytes) : toLower (hexEncode b) = hexEncode b := by
  rw [toLower, hexEncode, String.toList_ofList]
  congr 1
  induction b with
  | nil => rfl
  | cons x b ih =>
    have hx := x.toNat_lt
    change lowerChar _ :: lowerChar _ :: (hexChars b).map lowerChar = _
    rw [ih, lowerChar_digitChar (by omega), lowerChar_digitChar (by omega)]
    rfl

/-- Text in lower case is the one that its bytes are written with. -/
theorem hexChars_of_hexDecode {chars : List Char} (h : hexDecode chars = some b)
    (hl : chars.map lowerChar = chars) : hexChars b = chars := by
  fun_induction hexDecode chars generalizing b with
  | case1 => cases h; rfl
  | case2 => cases h
  | case3 hi lo rest ih =>
    simp only [Option.pure_def, Option.bind_eq_bind, Option.bind_eq_some_iff,
      Option.some.injEq] at h
    obtain ⟨m, hm, n, hn, bytes, hbytes, rfl⟩ := h
    simp only [List.map_cons, List.cons.injEq] at hl
    obtain ⟨hm16, hhi⟩ := digitChar_of_hexValue hm hl.1
    obtain ⟨hn16, hlo⟩ := digitChar_of_hexValue hn hl.2.1
    have hx : (UInt8.ofNat (16 * m + n)).toNat = 16 * m + n := by
      rw [UInt8.toNat_ofNat']
      omega
    change Nat.digitChar _ :: Nat.digitChar _ :: hexChars bytes = _
    rw [hx, ih hbytes hl.2.2, show (16 * m + n) / 16 = m by omega,
      show (16 * m + n) % 16 = n by omega, hhi, hlo]

/-! ## Numbers -/

/-- Padding keeps the number. -/
theorem zeroPadded_injective (width : ℕ) : Function.Injective (zeroPadded width) := by
  have hvalue (n : ℕ) : Nat.ofDigitChars 10 (zeroPadded width n) 0 = n := by
    rw [zeroPadded, List.leftpad, Nat.ofDigitChars_append, Nat.ofDigitChars_replicate_zero,
      Nat.mul_zero, Nat.ofDigitChars_ten_toDigits]
  intro m n h
  rw [← hvalue m, h, hvalue]

/-! ## Separators -/

/-- A list is cut uniquely at its last occurrence of a separator. -/
theorem append_cons_inj_of_notMem {α : Type} {a b x y : List α} {c : α} (hx : c ∉ x) (hy : c ∉ y)
    (h : a ++ c :: x = b ++ c :: y) : a = b ∧ x = y := by
  induction a generalizing b with
  | nil =>
    rcases b with _ | ⟨d, b⟩
    · simpa using h
    · simp only [List.nil_append, List.cons_append, List.cons.injEq] at h
      exact absurd (h.2 ▸ List.mem_append_right b List.mem_cons_self) hx
  | cons d a ih =>
    rcases b with _ | ⟨e, b⟩
    · simp only [List.nil_append, List.cons_append, List.cons.injEq] at h
      exact absurd (h.2 ▸ List.mem_append_right a List.mem_cons_self) hy
    · simp only [List.cons_append, List.cons.injEq] at h
      obtain ⟨h₁, h₂⟩ := ih h.2
      exact ⟨by rw [h.1, h₁], h₂⟩

end ZeroTrustFL
