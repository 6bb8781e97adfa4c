import Mathlib.Tactic
import ZeroTrustFL.Lib.Float
import ZeroTrustFL.Lib.Text

/-!
# The NumPy vector format

`pkg/coordinator/npy.go`: model vectors travel as one-dimensional NumPy arrays of little-endian
single-precision floats.  A header is matched as the list of its bytes, read as characters.
Decoding what was encoded gives the vector back (`decodeNPYFloat32_encodeNPYFloat32`).
-/

namespace ZeroTrustFL

/-- How a function fails: with an error, or by a panic that ends the process. -/
inductive Fault where
  | error (message : String)
  | crash (message : String)
deriving DecidableEq

/-! ## Bytes -/

def ofLittleEndian : Bytes → ℕ
  | [] => 0
  | b :: bytes => b.toNat + 256 * ofLittleEndian bytes

def toLittleEndian : ℕ → ℕ → Bytes
  | 0, _ => []
  | width + 1, n => UInt8.ofNat n :: toLittleEndian width (n / 256)

def byteChar (b : UInt8) : Char := Char.ofNat b.toNat

def charByte (c : Char) : UInt8 := UInt8.ofNat c.toNat

/-- `math.IsNaN(float64(value)) || math.IsInf(float64(value), 0)`. -/
def isNonFinite (value : Float32) : Bool := (float64 value).isNaN || (float64 value).isInf

/-! ## Matching headers -/

/-- White space of regular expressions. -/
def isRegexpSpace (c : Char) : Bool := c.toNat ∈ [0x09, 0x0a, 0x0c, 0x0d, 0x20]

def dropLiteral (literal chars : List Char) : Option (List Char) :=
  if literal.isPrefixOf chars then some (chars.drop literal.length) else none

def dropQuote : List Char → Option (List Char)
  | c :: chars => if c = '\'' ∨ c = '"' then some chars else none
  | [] => none

/-- Matches the part of `npyShapePattern` from its group on and returns the group. -/
def matchLength (chars : List Char) : Option (List Char) :=
  let digits := chars.takeWhile Char.isDigit
  if digits.isEmpty then none
  else do
    let chars ← dropLiteral [','] ((chars.dropWhile Char.isDigit).dropWhile isRegexpSpace)
    let _ ← dropLiteral [')'] (chars.dropWhile isRegexpSpace)
    return digits

/-- Matches `npyShapePattern` at the front and returns its group. -/
def matchShape (chars : List Char) : Option (List Char) := do
  let chars ← dropQuote chars
  let chars ← dropLiteral "shape".toList chars
  let chars ← dropQuote chars
  let chars ← dropLiteral [':'] (chars.dropWhile isRegexpSpace)
  let chars ← dropLiteral ['('] (chars.dropWhile isRegexpSpace)
  matchLength chars

/-- `npyShapePattern.FindStringSubmatch`. -/
def findShape : List Char → Option (List Char)
  | [] => none
  | c :: chars => (matchShape (c :: chars)).or (findShape chars)

/-- `strconv.Atoi` of a string of digits. -/
def atoi (digits : List Char) : Option ℕ :=
  let n := Nat.ofDigitChars 10 digits 0
  if n < 2 ^ 63 then some n else none

/-! ## Decoding and encoding -/

/-- The magic bytes that start a NumPy file. -/
def npyMagic : Bytes := [0x93, 0x4e, 0x55, 0x4d, 0x50, 0x59]

/-- Reads the vector elements. -/
def decodeNPYValues : Bytes → Except Fault (List Float32)
  | b₀ :: b₁ :: b₂ :: b₃ :: body =>
    let value := Float32.ofBits (UInt32.ofNat (ofLittleEndian [b₀, b₁, b₂, b₃]))
    if isNonFinite value then .error (.error "model vector contains non-finite values")
    else
      match decodeNPYValues body with
      | .error e => .error e
      | .ok values => .ok (value :: values)
  | _ => .ok []

/-- Checks a header and reads the vector that follows it. -/
def decodeNPYBody (header : List Char) (body : Bytes) : Except Fault (List Float32) :=
  if !containsChars "'descr': '<f4'".toList header &&
      !containsChars "\"descr\": \"<f4\"".toList header &&
      !containsChars "'descr': '|f4'".toList header && !containsChars "\"descr\": \"|f4\"".toList
        header then
    .error (.error "model vector must use little-endian float32 dtype")
  else if containsChars "'fortran_order': True".toList header ||
      containsChars "\"fortran_order\": True".toList header then
    .error (.error "Fortran-ordered model arrays are not supported")
  else
    match findShape header with
    | none => .error (.error "model payload must be a one-dimensional NumPy array")
    | some digits =>
      match atoi digits with
      | none | some 0 => .error (.error "model payload has an invalid vector length")
      | some count =>
        -- The product is computed in 64 bits, so a large count can wrap around to the body's
        -- length.
        if (body.length : ℤ) ≠ (Int64.ofNat count * 4).toInt then
          .error (.error "NumPy payload length does not match declared vector shape")
        else if 2 ^ 63 ≤ count * 4 then .error (.crash "runtime error: makeslice: len out of range")
        else decodeNPYValues body

def decodeNPYFloat32 (payload : Bytes) : Except Fault (List Float32) :=
  if payload.length < 10 ∨ payload.take 6 ≠ npyMagic then
    .error (.error "payload is not a NumPy .npy file")
  else
    let major := payload.getD 6 0
    let decode (headerLength headerOffset : ℕ) :=
      if headerLength = 0 ∨ payload.length < headerOffset + headerLength then
        .error (.error "invalid NumPy header length")
      else
        decodeNPYBody (((payload.drop headerOffset).take headerLength).map byteChar)
          (payload.drop (headerOffset + headerLength))
    if major = 1 then decode (ofLittleEndian ((payload.drop 8).take 2)) 10
    else if major = 2 ∨ major = 3 then
      if payload.length < 12 then .error (.error "truncated NumPy v2/v3 header")
      else decode (ofLittleEndian ((payload.drop 8).take 4)) 12
    else .error (.error s!"unsupported NumPy format version {major.toNat}")

/-- The header before the vector length. -/
def npyHeaderStart : List Char := "\x7b'descr': '<f4', 'fortran_order': False, 'shape': (".toList

/-- The header after the vector length. -/
def npyHeaderEnd : List Char := ",), \x7d".toList

/-- The header of a vector of the given length, without its padding. -/
def npyHeaderText (length : ℕ) : List Char :=
  npyHeaderStart ++ (Nat.toDigits 10 length ++ npyHeaderEnd)

/-- The number of blanks that align a header. -/
def npyPadding (headerLength : ℕ) : ℕ :=
  let padding := 16 - (10 + headerLength + 1) % 16
  if padding = 16 then 0 else padding

def npyHeader (length : ℕ) : List Char :=
  npyHeaderText length ++ (List.replicate (npyPadding (npyHeaderText length).length) ' ' ++ ['\n'])

/-- The bytes before the values: the magic, the version, the length of the header and the header. -/
def npyRegion (length : ℕ) : Bytes :=
  npyMagic ++ ([1, 0] ++ (toLittleEndian 2 (npyHeader length).length ++
    (npyHeader length).map charByte))

def encodeNPYFloat32 (values : List Float32) : Except Fault Bytes :=
  if values = [] then .error (.error "cannot encode an empty model vector")
  else if values.any isNonFinite then .error (.error "cannot encode non-finite model values")
  else if 65535 < (npyHeader values.length).length then .error (.error "NumPy header is too large")
  else
    .ok (npyRegion values.length ++ values.flatMap fun value => toLittleEndian 4 value.toBits.toNat)

/-! ## The round trip -/

theorem length_toLittleEndian (width n : ℕ) : (toLittleEndian width n).length = width := by
  induction width generalizing n with
  | zero => rfl
  | succ width ih => rw [toLittleEndian, List.length_cons, ih]

theorem ofLittleEndian_toLittleEndian (width n : ℕ) :
    ofLittleEndian (toLittleEndian width n) = n % 256 ^ width := by
  induction width generalizing n with
  | zero => simp [toLittleEndian, ofLittleEndian, Nat.mod_one]
  | succ width ih =>
    rw [toLittleEndian, ofLittleEndian, ih, pow_succ', Nat.mod_mul, UInt8.toNat_ofNat']

theorem decodeNPYValues_flatMap {values : List Float32} (h : ∀ v ∈ values, isNonFinite v = false) :
    decodeNPYValues (values.flatMap fun value => toLittleEndian 4 value.toBits.toNat) =
      .ok values := by
  induction values with
  | nil => rfl
  | cons v values ih =>
    have hbits : UInt32.ofNat (ofLittleEndian (toLittleEndian 4 v.toBits.toNat)) = v.toBits := by
      rw [ofLittleEndian_toLittleEndian, Nat.mod_eq_of_lt (show _ < 256 ^ 4 from v.toBits.toNat_lt),
         UInt32.ofNat_toNat]
    have hstep : ∀ body, decodeNPYValues (toLittleEndian 4 v.toBits.toNat ++ body) =
        match decodeNPYValues body with
        | .error e => .error e
        | .ok values => .ok (v :: values) := by
      intro body
      have hvalue : Float32.ofBits
          (UInt32.ofNat (ofLittleEndian (toLittleEndian 4 v.toBits.toNat))) = v := by
        rw [hbits, ofBits_toBits]
      simp only [toLittleEndian] at hvalue ⊢
      simp only [List.cons_append, List.nil_append, decodeNPYValues, hvalue, h v (by simp),
        Bool.false_eq_true, if_false]
    rw [List.flatMap_cons, hstep, ih fun x hx => h x (List.mem_cons_of_mem _ hx)]

theorem length_flatMap_toLittleEndian (values : List Float32) :
    (values.flatMap fun value => toLittleEndian 4 value.toBits.toNat).length =
      values.length * 4 := by
  simp [List.length_flatMap, length_toLittleEndian]

section Header

variable (n : ℕ)

/-- What follows the digits in a header. -/
def npyHeaderTail : List Char :=
  npyHeaderEnd ++ (List.replicate (npyPadding (npyHeaderText n).length) ' ' ++ ['\n'])

theorem npyHeader_eq : npyHeader n = npyHeaderStart ++ (Nat.toDigits 10 n ++ npyHeaderTail n) := by
  simp only [npyHeader, npyHeaderTail, npyHeaderText, List.append_assoc]

/-- The characters of the end of a header. -/
theorem mem_digits_append_tail {c : Char} (hc : c ∈ Nat.toDigits 10 n ++ npyHeaderTail n) :
    c.isDigit = true ∨ c ∈ npyHeaderEnd ∨ c = ' ' ∨ c = '\n' := by
  rw [List.mem_append, npyHeaderTail, List.mem_append, List.mem_append, List.mem_singleton] at hc
  rcases hc with hc | hc | hc | hc
  · exact .inl (Nat.isDigit_of_mem_toDigits (by omega) (by omega) hc)
  · exact .inr (.inl hc)
  · exact .inr (.inr (.inl (List.eq_of_mem_replicate hc)))
  · exact .inr (.inr (.inr hc))

theorem quote_notMem_tail : '\'' ∉ Nat.toDigits 10 n ++ npyHeaderTail n ∧
    '"' ∉ Nat.toDigits 10 n ++ npyHeaderTail n :=
  ⟨fun h => absurd (mem_digits_append_tail n h) (by decide),
    fun h => absurd (mem_digits_append_tail n h) (by decide)⟩

theorem containsChars_descr : containsChars "'descr': '<f4'".toList (npyHeader n) = true := by
  rw [npyHeader_eq]
  rfl

theorem containsChars_fortran : containsChars "'fortran_order': True".toList (npyHeader n) = false ∧
    containsChars "\"fortran_order\": True".toList (npyHeader n) = false := by
  rw [npyHeader_eq]
  have h₁ : containsChars "'fortran_order': True".toList
      (Nat.toDigits 10 n ++ npyHeaderTail n) = false :=
    containsChars_eq_false (c := '\'') rfl (quote_notMem_tail n).1
  have h₂ : containsChars "\"fortran_order\": True".toList
      (Nat.toDigits 10 n ++ npyHeaderTail n) = false :=
    containsChars_eq_false (c := '"') rfl (quote_notMem_tail n).2
  exact ⟨h₁, h₂⟩

theorem matchLength_tail : matchLength (Nat.toDigits 10 n ++ npyHeaderTail n) =
    some (Nat.toDigits 10 n) := by
  have hdigits : ∀ c ∈ Nat.toDigits 10 n, c.isDigit = true := fun c hc =>
    Nat.isDigit_of_mem_toDigits (by omega) (by omega) hc
  have htail : npyHeaderTail n = ',' :: ')' :: ',' :: ' ' :: '\x7d' ::
      (List.replicate (npyPadding (npyHeaderText n).length) ' ' ++ ['\n']) := rfl
  have htake : (Nat.toDigits 10 n ++ npyHeaderTail n).takeWhile Char.isDigit =
      Nat.toDigits 10 n := by
    rw [List.takeWhile_append_of_pos hdigits, htail, List.takeWhile_cons_of_neg (by decide),
      List.append_nil]
  have hdrop : (Nat.toDigits 10 n ++ npyHeaderTail n).dropWhile Char.isDigit = npyHeaderTail n := by
    rw [List.dropWhile_append_of_pos hdigits, htail, List.dropWhile_cons_of_neg (by decide)]
  have hne : (Nat.toDigits 10 n).isEmpty = false := by simp [Nat.toDigits_ne_nil]
  rw [matchLength, htake, hdrop, hne, htail]
  rfl

theorem findShape_npyHeader : findShape (npyHeader n) = some (Nat.toDigits 10 n) := by
  have hstart : ∀ l, findShape (npyHeaderStart ++ l) =
      (matchLength l).or (findShape ("shape': (".toList ++ l)) := fun l => rfl
  rw [npyHeader_eq, hstart, matchLength_tail, Option.some_or]

theorem toNat_lt_of_mem_npyHeader {c : Char} (hc : c ∈ npyHeader n) : c.toNat < 256 := by
  rw [npyHeader_eq, List.mem_append] at hc
  rcases hc with hc | hc
  · have hall : (npyHeaderStart.all fun c => decide (c.toNat < 256)) = true := by decide
    exact of_decide_eq_true (List.all_eq_true.1 hall c hc)
  · rcases mem_digits_append_tail n hc with h | h | rfl | rfl
    · simp only [Char.isDigit, Bool.and_eq_true, decide_eq_true_eq] at h
      exact lt_of_le_of_lt (UInt32.le_iff_toNat_le.1 h.2) (by decide)
    · have hall : (npyHeaderEnd.all fun c => decide (c.toNat < 256)) = true := by decide
      exact of_decide_eq_true (List.all_eq_true.1 hall c h)
    · decide
    · decide

theorem length_npyHeader (hn : n < 2 ^ 63) :
    0 < (npyHeader n).length ∧ (npyHeader n).length ≤ 65535 := by
  have hdigits : (Nat.toDigits 10 n).length ≤ 19 :=
    (Nat.length_toDigits_le_iff (by omega) (by omega)).2 (lt_of_lt_of_le hn (by decide))
  have hpad : npyPadding (npyHeaderText n).length ≤ 16 := by
    simp only [npyPadding]
    split_ifs <;> omega
  have hstart : npyHeaderStart.length = 51 := rfl
  have hend : npyHeaderEnd.length = 5 := rfl
  rw [npyHeader_eq, npyHeaderTail]
  simp only [List.length_append, List.length_replicate, List.length_singleton, hstart, hend]
  omega

end Header

theorem toInt_ofNat_mul_four {count : ℕ} (h : count * 4 < 2 ^ 63) :
    (Int64.ofNat count * 4).toInt = count * 4 := by
  have hmul : Int64.ofNat count * 4 = Int64.ofNat (count * 4) := by
    rw [Int64.ofNat_mul]
    rfl
  rw [hmul, Int64.toInt_ofNat_of_lt h]
  push_cast
  rfl

theorem decodeNPYBody_npyHeader {values : List Float32} (hne : values ≠ [])
    (hfinite : ∀ v ∈ values, isNonFinite v = false) (hlength : values.length * 4 < 2 ^ 63) :
    decodeNPYBody (npyHeader values.length)
      (values.flatMap fun value => toLittleEndian 4 value.toBits.toNat) = .ok values := by
  have hatoi : atoi (Nat.toDigits 10 values.length) = some values.length := by
    rw [atoi, Nat.ofDigitChars_ten_toDigits, if_pos (by omega)]
  obtain ⟨count, hcount⟩ : ∃ count, values.length = count + 1 :=
    Nat.exists_eq_succ_of_ne_zero (by simpa using hne)
  obtain ⟨hf₁, hf₂⟩ := containsChars_fortran values.length
  simp only [decodeNPYBody, containsChars_descr, hf₁, hf₂, findShape_npyHeader, hatoi,
    Bool.not_true, Bool.false_and, Bool.or_self, Bool.false_eq_true, if_false]
  rw [length_flatMap_toLittleEndian, decodeNPYValues_flatMap hfinite]
  rw [hcount] at hlength ⊢
  simp only [toInt_ofNat_mul_four hlength, not_le.2 hlength, Nat.cast_mul, Nat.cast_ofNat, ne_eq,
    not_true_eq_false, if_false]

theorem byteChar_charByte {c : Char} (hc : c.toNat < 256) : byteChar (charByte c) = c := by
  rw [byteChar, charByte, UInt8.toNat_ofNat', Nat.mod_eq_of_lt hc, Char.ofNat_toNat]

theorem decodeNPYFloat32_of_header {header : List Char} (hchars : ∀ c ∈ header, c.toNat < 256)
    (hpos : 0 < header.length) (hle : header.length ≤ 65535) (body : Bytes) :
    decodeNPYFloat32 (npyMagic ++ ([1, 0] ++ (toLittleEndian 2 header.length ++
      (header.map charByte ++ body)))) = decodeNPYBody header body := by
  obtain ⟨x, y, hxy⟩ : ∃ x y, toLittleEndian 2 header.length = [x, y] := ⟨_, _, rfl⟩
  have hlength : ofLittleEndian [x, y] = header.length := by
    rw [← hxy, ofLittleEndian_toLittleEndian, Nat.mod_eq_of_lt (by omega)]
  have hback : (header.map charByte).map byteChar = header := by
    rw [List.map_map]
    conv_rhs => rw [← List.map_id header]
    exact List.map_congr_left fun c hc => byteChar_charByte (hchars c hc)
  have htake : (header.map charByte ++ body).take header.length = header.map charByte := by
    rw [List.take_append_of_le_length (by simp), List.take_of_length_le (by simp)]
  have hdrop : (header.map charByte ++ body).drop header.length = body := by
    rw [List.drop_append_of_le_length (by simp), List.drop_of_length_le (by simp), List.nil_append]
  have hsize : (header.map charByte ++ body).length = header.length + body.length := by simp
  rw [hxy]
  generalize header.map charByte ++ body = rest at *
  have hten : ∀ k, (npyMagic ++ ([1, 0] ++ ([x, y] ++ rest))).drop (10 + k) = rest.drop k := by
    intro k
    rw [← List.drop_drop]
    rfl
  have hmajor : (npyMagic ++ ([1, 0] ++ ([x, y] ++ rest))).getD 6 0 = 1 := rfl
  have hword : ((npyMagic ++ ([1, 0] ++ ([x, y] ++ rest))).drop 8).take 2 = [x, y] := rfl
  have hmagic : (npyMagic ++ ([1, 0] ++ ([x, y] ++ rest))).take 6 = npyMagic := rfl
  have htotal : (npyMagic ++ ([1, 0] ++ ([x, y] ++ rest))).length = 10 + rest.length := by
    simp only [List.length_append, List.length_cons, List.length_nil, npyMagic]
    omega
  have hrest := hten 0
  rw [Nat.add_zero, List.drop_zero] at hrest
  simp only [decodeNPYFloat32, hmajor, hword, hmagic, hlength, htotal, hrest, hten, htake, hback,
    hdrop, hsize, if_true]
  rw [if_neg (by simp), if_neg (by omega)]

theorem encodeNPYFloat32_eq {values : List Float32} (hne : values ≠ [])
    (hfinite : ∀ v ∈ values, isNonFinite v = false) (hlength : values.length * 4 < 2 ^ 63) :
    encodeNPYFloat32 values = .ok (npyRegion values.length ++
      values.flatMap fun value => toLittleEndian 4 value.toBits.toNat) := by
  have hle := (length_npyHeader values.length (by omega)).2
  have hany : values.any isNonFinite = false := by simpa using hfinite
  simp only [encodeNPYFloat32, hne, hany, not_lt.2 hle, if_false, Bool.false_eq_true]

/-- Decoding what was encoded gives the vector back. -/
theorem decodeNPYFloat32_encodeNPYFloat32 {values : List Float32} (hne : values ≠ [])
    (hfinite : ∀ v ∈ values, isNonFinite v = false) (hlength : values.length * 4 < 2 ^ 63) :
    ∃ payload, encodeNPYFloat32 values = .ok payload ∧ payload ≠ [] ∧
      decodeNPYFloat32 payload = .ok values := by
  obtain ⟨hpos, hle⟩ := length_npyHeader values.length (by omega)
  refine ⟨_, encodeNPYFloat32_eq hne hfinite hlength, by simp [npyRegion, npyMagic], ?_⟩
  simp only [npyRegion, List.append_assoc]
  rw [decodeNPYFloat32_of_header (fun c hc => toNat_lt_of_mem_npyHeader _ hc) hpos hle,
    decodeNPYBody_npyHeader hne hfinite hlength]

/-! ## What decoding accepts -/

theorem decodeNPYValues_ok {body : Bytes} {values : List Float32}
    (h : decodeNPYValues body = .ok values) :
    (∀ v ∈ values, isNonFinite v = false) ∧ values.length * 4 ≤ body.length ∧
      body.length < values.length * 4 + 4 := by
  fun_induction decodeNPYValues body generalizing values with
  | case1 => cases h
  | case2 => cases h
  | case3 b₀ b₁ b₂ b₃ body value hv rest hrest =>
    rename_i ih
    cases h
    obtain ⟨h₁, h₂, h₃⟩ := ih hrest
    refine ⟨?_, by simp only [List.length_cons]; omega, by simp only [List.length_cons]; omega⟩
    simp only [List.mem_cons, forall_eq_or_imp]
    exact ⟨by simpa using hv, h₁⟩
  | case4 body hbody =>
    cases h
    refine ⟨by simp, by simp, ?_⟩
    rcases body with _ | ⟨b₀, _ | ⟨b₁, _ | ⟨b₂, _ | ⟨b₃, body⟩⟩⟩⟩
    · simp
    · simp
    · simp
    · simp
    · exact absurd rfl (hbody b₀ b₁ b₂ b₃ body)

/-- A vector that was decoded is not empty, is finite and has a length that fits. -/
theorem decodeNPYFloat32_ok {payload : Bytes} {values : List Float32}
    (h : decodeNPYFloat32 payload = .ok values) :
    values ≠ [] ∧ values.length * 4 < 2 ^ 63 ∧ ∀ v ∈ values, isNonFinite v = false := by
  have hbody : ∀ header body, decodeNPYBody header body = .ok values →
      values ≠ [] ∧ values.length * 4 < 2 ^ 63 ∧ ∀ v ∈ values, isNonFinite v = false := by
    intro header body h
    unfold decodeNPYBody at h
    split_ifs at h with h₁ h₂
    rcases hs : findShape header with _ | digits
    · rw [hs] at h
      cases h
    · rcases ha : atoi digits with _ | _ | count
      · simp only [hs, ha, reduceCtorEq] at h
      · simp only [hs, ha, reduceCtorEq] at h
      · simp only [hs, ha] at h
        split_ifs at h with h₃ h₄
        rw [not_le] at h₄
        rw [not_not, toInt_ofNat_mul_four h₄] at h₃
        obtain ⟨hf, hlo, hhi⟩ := decodeNPYValues_ok h
        have hlen : body.length = (count + 1) * 4 := by exact_mod_cast h₃
        refine ⟨?_, by omega, hf⟩
        rintro rfl
        simp only [List.length_nil] at hhi
        omega
  simp only [decodeNPYFloat32] at h
  split_ifs at h
  · exact hbody _ _ h
  · exact hbody _ _ h

end ZeroTrustFL
