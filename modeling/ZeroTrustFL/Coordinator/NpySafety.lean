import Mathlib
import ZeroTrustFL.Coordinator.Npy

/-!
# Bounds of the vector decoder

`decodeNPYFloat32` with its slices, its allocation and its loop written out, so that an index out of
range or an impossible allocation shows as a crash.  It decodes what the decoder of the format
decodes (`decodeNPYFloat32Indexed_eq`); it is safe on every payload but those that declare a length
whose product with the size of an element wraps around to the length of the body.
-/

namespace ZeroTrustFL

/-! ## The decoder with its indices -/

/-- `s[low:high]`. -/
def sliceBytes (s : Bytes) (low high : ℕ) : Except Fault Bytes :=
  if low ≤ high ∧ high ≤ s.length then .ok ((s.drop low).take (high - low))
  else .error (.crash "runtime error: slice bounds out of range")

/-- `s[i]`. -/
def indexByte (s : Bytes) (i : ℕ) : Except Fault UInt8 :=
  if i < s.length then .ok (s.getD i 0) else .error (.crash "runtime error: index out of range")

/-- The length that a header declares. -/
def npyCount (header : List Char) : Except Fault ℕ :=
  if !containsChars "'descr': '<f4'".toList header &&
      !containsChars "\"descr\": \"<f4\"".toList header &&
      !containsChars "'descr': '|f4'".toList header && !containsChars "\"descr\": \"|f4\"".toList
        header then
    .error (.error "model vector must use little-endian float32 dtype")
  else if containsChars "'fortran_order': True".toList header ||
      containsChars "\"fortran_order\": True".toList header then
    .error (.error "Fortran-ordered model arrays are not supported")
  else
    match findShape header with
    | none => .error (.error "model payload must be a one-dimensional NumPy array")
    | some digits =>
      match atoi digits with
      | none | some 0 => .error (.error "model payload has an invalid vector length")
      | some count => .ok count

/-- The header and the body of a payload, by the length and the position of the header. -/
def splitNPY (payload : Bytes) (headerLength headerOffset : ℕ) : Except Fault (Bytes × Bytes) :=
  if headerLength ≤ 0 ∨ headerOffset + headerLength > payload.length then
    .error (.error "invalid NumPy header length")
  else do
    let header ← sliceBytes payload headerOffset (headerOffset + headerLength)
    let body ← sliceBytes payload (headerOffset + headerLength) payload.length
    return (header, body)

/-- The header and the body of a payload. -/
def openNPY (payload : Bytes) : Except Fault (Bytes × Bytes) :=
  if payload.length < 10 then .error (.error "payload is not a NumPy .npy file")
  else do
    let magic ← sliceBytes payload 0 6
    if magic ≠ npyMagic then .error (.error "payload is not a NumPy .npy file")
    else
      let major ← indexByte payload 6
      if major = 1 then
        let field ← sliceBytes payload 8 10
        splitNPY payload (ofLittleEndian field) 10
      else if major = 2 ∨ major = 3 then
        if payload.length < 12 then .error (.error "truncated NumPy v2/v3 header")
        else
          let field ← sliceBytes payload 8 12
          splitNPY payload (ofLittleEndian field) 12
      else .error (.error s!"unsupported NumPy format version {major.toNat}")

/-- The decoder up to its length check: the number of elements and the body. -/
def checkNPYLength (payload : Bytes) : Except Fault (ℕ × Bytes) := do
  let (header, body) ← openNPY payload
  let count ← npyCount (header.map byteChar)
  if (body.length : ℤ) ≠ (Int64.ofNat count * 4).toInt then
    .error (.error "NumPy payload length does not match declared vector shape")
  else return (count, body)

/-- `make([]float32, count)`. -/
def makeFloat32Slice (count : ℕ) : Except Fault Unit :=
  if 2 ^ 63 ≤ count * 4 then .error (.crash "runtime error: makeslice: len out of range")
  else .ok ()

/-- The loop over the elements, from the given index on. -/
def readNPYValues (body : Bytes) : ℕ → ℕ → Except Fault (List Float32)
  | _, 0 => .ok []
  | i, remaining + 1 => do
    let word ← sliceBytes body (i * 4) (i * 4 + 4)
    let value := Float32.ofBits (UInt32.ofNat (ofLittleEndian word))
    if isNonFinite value then .error (.error "model vector contains non-finite values")
    else
      let values ← readNPYValues body (i + 1) remaining
      return value :: values

def decodeNPYFloat32Indexed (payload : Bytes) : Except Fault (List Float32) := do
  let (count, body) ← checkNPYLength payload
  let _ ← makeFloat32Slice count
  readNPYValues body 0 count

/-! ## Bounds -/

theorem sliceBytes_of_le {s : Bytes} {low high : ℕ} (hlow : low ≤ high) (hhigh : high ≤ s.length) :
    sliceBytes s low high = .ok ((s.drop low).take (high - low)) := if_pos ⟨hlow, hhigh⟩

theorem indexByte_of_lt {s : Bytes} {i : ℕ} (h : i < s.length) : indexByte s i = .ok (s.getD i 0) :=
  if_pos h

theorem splitNPY_eq (payload : Bytes) (headerLength headerOffset : ℕ) :
    splitNPY payload headerLength headerOffset =
      if headerLength = 0 ∨ payload.length < headerOffset + headerLength then
        .error (.error "invalid NumPy header length")
      else .ok ((payload.drop headerOffset).take headerLength,
          payload.drop (headerOffset + headerLength)) := by
  simp only [splitNPY, Nat.le_zero, gt_iff_lt]
  split_ifs with h
  · rfl
  · rw [not_or, not_lt] at h
    rw [sliceBytes_of_le (Nat.le_add_right _ _) h.2, sliceBytes_of_le h.2 le_rfl,
      Nat.add_sub_cancel_left]
    simp only [bind, Except.bind, pure, Except.pure, Except.ok.injEq, Prod.mk.injEq, true_and]
    rw [List.take_of_length_le (by rw [List.length_drop])]

theorem openNPY_eq (payload : Bytes) :
    openNPY payload =
      if payload.length < 10 ∨ payload.take 6 ≠ npyMagic then
        .error (.error "payload is not a NumPy .npy file")
      else if payload.getD 6 0 = 1 then
        splitNPY payload (ofLittleEndian ((payload.drop 8).take 2)) 10
      else if payload.getD 6 0 = 2 ∨ payload.getD 6 0 = 3 then
        if payload.length < 12 then .error (.error "truncated NumPy v2/v3 header")
        else splitNPY payload (ofLittleEndian ((payload.drop 8).take 4)) 12
      else .error (.error s!"unsupported NumPy format version {(payload.getD 6 0).toNat}") := by
  unfold openNPY
  by_cases hlength : payload.length < 10
  · rw [if_pos hlength, if_pos (.inl hlength)]
  have hten : 10 ≤ payload.length := not_lt.1 hlength
  rw [if_neg hlength, sliceBytes_of_le (Nat.zero_le 6) (by omega),
    indexByte_of_lt (show 6 < _ by omega), sliceBytes_of_le (show 8 ≤ 10 by omega) hten]
  simp only [bind, Except.bind, List.drop_zero, Nat.sub_zero, hlength, false_or]
  split_ifs with hmagic hone htwo hshort
  · rfl
  · rfl
  · rfl
  · rw [sliceBytes_of_le (show 8 ≤ 12 by omega) (not_lt.1 hshort)]
  · rfl

/-- The loop reads the elements one after the other, and no index is out of range. -/
theorem readNPYValues_eq (body : Bytes) (i remaining : ℕ) (h : body.length = (i + remaining) * 4) :
    readNPYValues body i remaining = decodeNPYValues (body.drop (i * 4)) := by
  induction remaining generalizing i with
  | zero =>
    rw [List.drop_of_length_le (by omega)]
    rfl
  | succ remaining ih =>
    have hnext : (body.drop (i * 4)).drop 4 = body.drop ((i + 1) * 4) := by
      rw [List.drop_drop]
      congr 1
      omega
    have hsize : 4 ≤ (body.drop (i * 4)).length := by
      rw [List.length_drop]
      omega
    rw [readNPYValues, sliceBytes_of_le (by omega) (by omega), ih (i + 1) (by omega), ← hnext,
      Nat.add_sub_cancel_left]
    generalize body.drop (i * 4) = suffix at hsize ⊢
    obtain ⟨b₀, b₁, b₂, b₃, rest, rfl⟩ :
        ∃ b₀ b₁ b₂ b₃ rest, suffix = b₀ :: b₁ :: b₂ :: b₃ :: rest := by
      match suffix, hsize with
      | b₀ :: b₁ :: b₂ :: b₃ :: rest, _ => exact ⟨b₀, b₁, b₂, b₃, rest, rfl⟩
    simp only [bind, Except.bind, List.take_succ_cons, List.take_zero, List.drop_succ_cons,
      List.drop_zero, decodeNPYValues]
    split_ifs
    · rfl
    rcases decodeNPYValues rest with e | values
    · rfl
    · rfl

variable {header body : Bytes} {count : ℕ}

/-- An accepted length is that of the body, or wraps around to it. -/
theorem length_of_checked (hcount : count < 2 ^ 63)
    (hcheck : (body.length : ℤ) = (Int64.ofNat count * 4).toInt) :
    count * 4 = body.length ∧ count * 4 < 2 ^ 63 ∨ count * 4 = body.length + 2 ^ 64 := by
  have hproduct : (Int64.ofNat count * 4).toInt = ((count : ℤ) * 4).bmod (2 ^ 64) := by
    rw [Int64.toInt_mul, Int64.toInt_ofNat_of_lt hcount]
    rfl
  rw [hproduct, Int.bmod_def] at hcheck
  split_ifs at hcheck <;> omega

theorem checked_of_wraps (hbody : body.length < 2 ^ 63)
    (hwraps : count * 4 = body.length + 2 ^ 64) :
    (body.length : ℤ) = (Int64.ofNat count * 4).toInt := by
  have hproduct : (Int64.ofNat count * 4).toInt = ((count : ℤ) * 4).bmod (2 ^ 64) := by
    rw [Int64.toInt_mul, Int64.toInt_ofNat_of_lt (by omega)]
    rfl
  rw [hproduct, Int.bmod_def]
  split_ifs <;> omega

theorem decodeNPYBody_eq (header : List Char) (body : Bytes) :
    decodeNPYBody header body =
      (npyCount header).bind fun count =>
        if (body.length : ℤ) ≠ (Int64.ofNat count * 4).toInt then
          .error (.error "NumPy payload length does not match declared vector shape")
        else if 2 ^ 63 ≤ count * 4 then .error (.crash "runtime error: makeslice: len out of range")
        else decodeNPYValues body := by
  unfold decodeNPYBody npyCount
  split_ifs
  · rfl
  · rfl
  rcases findShape header with _ | digits
  · rfl
  rcases ha : atoi digits with _ | _ | n <;> simp only [ha] <;> rfl

theorem decodeNPYFloat32_eq (payload : Bytes) :
    decodeNPYFloat32 payload = (openNPY payload).bind fun parts =>
      decodeNPYBody (parts.1.map byteChar) parts.2 := by
  simp only [decodeNPYFloat32, openNPY_eq, splitNPY_eq]
  split_ifs <;> rfl

/-- With its indices written out, the decoder decodes the same vectors and fails in the same
ways. -/
theorem decodeNPYFloat32Indexed_eq (payload : Bytes) :
    decodeNPYFloat32Indexed payload = decodeNPYFloat32 payload := by
  rw [decodeNPYFloat32_eq]
  simp only [decodeNPYFloat32Indexed, checkNPYLength, bind]
  rcases openNPY payload with e | ⟨header, body⟩
  · rfl
  simp only [Except.bind, decodeNPYBody_eq]
  rcases hc : npyCount (header.map byteChar) with e | count
  · rfl
  simp only
  split_ifs with hcheck hwraps
  · rfl
  · simp only [pure, Except.pure, makeFloat32Slice, if_pos hwraps]
  · simp only [pure, Except.pure, makeFloat32Slice, if_neg hwraps]
    rw [not_le] at hwraps
    rw [not_not, toInt_ofNat_mul_four hwraps] at hcheck
    rw [readNPYValues_eq body 0 count (by omega), Nat.zero_mul, List.drop_zero]

/-! ## Which payloads are decoded safely -/

/-- The payload is a NumPy file with the header and the body. -/
inductive NPYFile : Bytes → Bytes → Bytes → Prop
  | version1 (minor : UInt8) (header body : Bytes) (nonempty : header ≠ [])
      (fits : header.length < 2 ^ 16) :
      NPYFile (npyMagic ++ ([1, minor] ++ (toLittleEndian 2 header.length ++ (header ++ body))))
        header body
  | version2 (major minor : UInt8) (header body : Bytes) (known : major = 2 ∨ major = 3)
      (nonempty : header ≠ []) (fits : header.length < 2 ^ 32) :
      NPYFile (npyMagic ++ ([major, minor] ++ (toLittleEndian 4 header.length ++ (header ++ body))))
        header body

/-- The header names the element type and a C-ordered vector of the given length. -/
structure DeclaresVector (header : List Char) (count : ℕ) : Prop where
  descr : containsChars "'descr': '<f4'".toList header ∨
    containsChars "\"descr\": \"<f4\"".toList header ∨
    containsChars "'descr': '|f4'".toList header ∨ containsChars "\"descr\": \"|f4\"".toList header
  c_order : ¬ containsChars "'fortran_order': True".toList header ∧
    ¬ containsChars "\"fortran_order\": True".toList header
  shape : ∃ digits, findShape header = some digits ∧ Nat.ofDigitChars 10 digits 0 = count

/-- The payload declares a vector whose size in bytes exceeds that of its body by `2 ^ 64`. -/
def WrapsAround (payload : Bytes) : Prop :=
  ∃ header body count, NPYFile payload header body ∧ DeclaresVector (header.map byteChar) count ∧
    count * 4 = body.length + 2 ^ 64

theorem npyCount_ok_iff {header : List Char} :
    npyCount header = .ok count ↔ DeclaresVector header count ∧ 0 < count ∧ count < 2 ^ 63 := by
  unfold npyCount
  split_ifs with hdescr hfortran
  · simp only [Bool.and_eq_true, Bool.not_eq_true', false_iff] at hdescr ⊢
    obtain ⟨⟨⟨h₁, h₂⟩, h₃⟩, h₄⟩ := hdescr
    rintro ⟨h, -⟩
    have hdescr := h.descr
    rw [h₁, h₂, h₃, h₄] at hdescr
    simp at hdescr
  · simp only [Bool.or_eq_true, false_iff] at hfortran ⊢
    rintro ⟨h, -⟩
    exact hfortran.elim h.c_order.1 h.c_order.2
  simp only [Bool.and_eq_true, Bool.not_eq_true', Bool.or_eq_true, not_and_or, not_or,
    Bool.not_eq_false] at hdescr hfortran
  rcases hs : findShape header with _ | digits
  · simp only [reduceCtorEq, false_iff]
    rintro ⟨h, -⟩
    simpa [hs] using h.shape
  have hdeclares : DeclaresVector header count ↔ Nat.ofDigitChars 10 digits 0 = count := by
    constructor
    · intro h
      simpa [hs] using h.shape
    · intro h
      exact ⟨by simpa only [or_assoc] using hdescr, hfortran, digits, hs, h⟩
  rw [hdeclares]
  simp only [atoi]
  generalize Nat.ofDigitChars 10 digits 0 = n
  split_ifs with hn
  · rcases n with _ | n
    · simp only [reduceCtorEq, false_iff]
      rintro ⟨rfl, hpos, -⟩
      exact lt_irrefl 0 hpos
    · simp only [Except.ok.injEq]
      constructor
      · rintro rfl
        exact ⟨rfl, Nat.succ_pos n, hn⟩
      · exact fun h => h.1
  · simp only [false_iff]
    rintro ⟨rfl, -, hlt⟩
    exact hn hlt

theorem toLittleEndian_ofLittleEndian (bytes : Bytes) :
    toLittleEndian bytes.length (ofLittleEndian bytes) = bytes := by
  induction bytes with
  | nil => rfl
  | cons b bytes ih =>
    have hlow : UInt8.ofNat (b.toNat + 256 * ofLittleEndian bytes) = b := by
      refine UInt8.toNat_inj.1 ?_
      rw [UInt8.toNat_ofNat', Nat.add_mul_mod_self_left, Nat.mod_eq_of_lt b.toNat_lt]
    have hhigh : (b.toNat + 256 * ofLittleEndian bytes) / 256 = ofLittleEndian bytes := by
      have hb := b.toNat_lt
      omega
    rw [List.length_cons, ofLittleEndian, toLittleEndian, hlow, hhigh, ih]

theorem ofLittleEndian_lt_two (x y : UInt8) : ofLittleEndian [x, y] < 2 ^ 16 := by
  have hx := x.toNat_lt
  have hy := y.toNat_lt
  simp only [ofLittleEndian]
  omega

theorem ofLittleEndian_lt_four (x y z w : UInt8) : ofLittleEndian [x, y, z, w] < 2 ^ 32 := by
  have hx := x.toNat_lt
  have hy := y.toNat_lt
  have hz := z.toNat_lt
  have hw := w.toNat_lt
  simp only [ofLittleEndian]
  omega

theorem splitNPY_append (start rest : Bytes) (headerLength : ℕ) :
    splitNPY (start ++ rest) headerLength start.length =
      if headerLength = 0 ∨ rest.length < headerLength then
        .error (.error "invalid NumPy header length")
      else .ok (rest.take headerLength, rest.drop headerLength) := by
  rw [splitNPY_eq, List.length_append, List.drop_left, ← List.drop_drop, List.drop_left]
  simp only [Nat.add_lt_add_iff_left]

/-- A file of version 1 is split by the two bytes of its header length. -/
theorem openNPY_one (minor x y : UInt8) (rest : Bytes) :
    openNPY (npyMagic ++ ([1, minor] ++ ([x, y] ++ rest))) =
      if ofLittleEndian [x, y] = 0 ∨ rest.length < ofLittleEndian [x, y] then
        .error (.error "invalid NumPy header length")
      else .ok (rest.take (ofLittleEndian [x, y]), rest.drop (ofLittleEndian [x, y])) := by
  have hmajor : (npyMagic ++ ([1, minor] ++ ([x, y] ++ rest))).getD 6 0 = 1 := rfl
  have hfield : ((npyMagic ++ ([1, minor] ++ ([x, y] ++ rest))).drop 8).take 2 = [x, y] := rfl
  rw [openNPY_eq, hmajor, hfield, if_neg (by simp [npyMagic]), if_pos rfl]
  exact splitNPY_append (npyMagic ++ [1, minor, x, y]) rest _

/-- A file of version 2 or 3 is split by the four bytes of its header length. -/
theorem openNPY_two {major : UInt8} (hmajor : major = 2 ∨ major = 3) (minor x y z w : UInt8)
    (rest : Bytes) :
    openNPY (npyMagic ++ ([major, minor] ++ ([x, y, z, w] ++ rest))) =
      if ofLittleEndian [x, y, z, w] = 0 ∨ rest.length < ofLittleEndian [x, y, z, w] then
        .error (.error "invalid NumPy header length")
      else .ok (rest.take (ofLittleEndian [x, y, z, w]),
          rest.drop (ofLittleEndian [x, y, z, w])) := by
  have hsix : (npyMagic ++ ([major, minor] ++ ([x, y, z, w] ++ rest))).getD 6 0 = major := rfl
  have hfield : ((npyMagic ++ ([major, minor] ++ ([x, y, z, w] ++ rest))).drop 8).take 4 =
    [x, y, z, w] := rfl
  have hone : major ≠ 1 := by
    rintro rfl
    exact absurd hmajor (by decide)
  rw [openNPY_eq, hsix, hfield, if_neg (by simp [npyMagic]), if_neg hone, if_pos hmajor,
    if_neg (by simp [npyMagic])]
  exact splitNPY_append (npyMagic ++ [major, minor, x, y, z, w]) rest _

/-- A header of the length its field states is what the file is split into. -/
theorem split_ok_iff {n : ℕ} {rest : Bytes} :
    (if n = 0 ∨ rest.length < n then .error (.error "invalid NumPy header length")
      else .ok (rest.take n, rest.drop n) : Except Fault (Bytes × Bytes)) = .ok (header, body) ↔
      rest = header ++ body ∧ header.length = n ∧ header ≠ [] := by
  split_ifs with h
  · simp only [false_iff]
    rintro ⟨rfl, rfl, hne⟩
    rcases h with h | h
    · exact hne (List.length_eq_zero_iff.1 h)
    · rw [List.length_append] at h
      omega
  · rw [not_or, not_lt] at h
    simp only [Except.ok.injEq, Prod.mk.injEq]
    constructor
    · rintro ⟨rfl, rfl⟩
      have hlength : (rest.take n).length = n := List.length_take_of_le h.2
      refine ⟨(List.take_append_drop n rest).symm, hlength, fun hnil => h.1 ?_⟩
      rw [← hlength, hnil, List.length_nil]
    · rintro ⟨rfl, rfl, -⟩
      exact ⟨List.take_left, List.drop_left⟩

theorem openNPY_ok_iff {payload : Bytes} :
    openNPY payload = .ok (header, body) ↔ NPYFile payload header body := by
  constructor
  · intro h
    by_cases hstart : payload.length < 10 ∨ payload.take 6 ≠ npyMagic
    · rw [openNPY_eq, if_pos hstart] at h
      cases h
    rw [not_or, not_lt, not_not] at hstart
    obtain ⟨major, minor, x, y, rest, rfl⟩ : ∃ major minor x y rest,
        payload = npyMagic ++ ([major, minor] ++ ([x, y] ++ rest)) := by
      have hsize : 4 ≤ (payload.drop 6).length := by
        rw [List.length_drop]
        omega
      match hdrop : payload.drop 6, hsize with
      | major :: minor :: x :: y :: rest, _ =>
        exact ⟨major, minor, x, y, rest,
          by rw [← List.take_append_drop 6 payload, hstart.2, hdrop]; rfl⟩
    by_cases hone : major = 1
    · subst hone
      rw [openNPY_one] at h
      obtain ⟨rfl, hlength, hne⟩ := split_ok_iff.1 h
      have hfield : [x, y] = toLittleEndian 2 header.length := by
        rw [hlength]
        exact (toLittleEndian_ofLittleEndian [x, y]).symm
      rw [hfield]
      exact .version1 minor header body hne (lt_of_eq_of_lt hlength (ofLittleEndian_lt_two x y))
    by_cases htwo : major = 2 ∨ major = 3
    · have hsix : (npyMagic ++ ([major, minor] ++ ([x, y] ++ rest))).getD 6 0 = major := rfl
      rcases rest with _ | ⟨z, _ | ⟨w, rest⟩⟩
      · rw [openNPY_eq, hsix, if_neg (by simp [npyMagic]), if_neg hone, if_pos htwo,
          if_pos (by simp [npyMagic])] at h
        cases h
      · rw [openNPY_eq, hsix, if_neg (by simp [npyMagic]), if_neg hone, if_pos htwo,
          if_pos (by simp [npyMagic])] at h
        cases h
      have hfour := openNPY_two htwo minor x y z w rest
      rw [show openNPY (npyMagic ++ ([major, minor] ++ ([x, y] ++ z :: w :: rest))) = _ from
        hfour] at h
      obtain ⟨rfl, hlength, hne⟩ := split_ok_iff.1 h
      have hfield : [x, y, z, w] = toLittleEndian 4 header.length := by
        rw [hlength]
        exact (toLittleEndian_ofLittleEndian [x, y, z, w]).symm
      have hfile := NPYFile.version2 major minor header body htwo hne
        (lt_of_eq_of_lt hlength (ofLittleEndian_lt_four x y z w))
      rw [← hfield] at hfile
      exact hfile
    · have hsix : (npyMagic ++ ([major, minor] ++ ([x, y] ++ rest))).getD 6 0 = major := rfl
      rw [openNPY_eq, hsix, if_neg (by simp [npyMagic]), if_neg hone, if_neg htwo] at h
      cases h
  · intro h
    rcases h with ⟨minor, _, _, hne, hfits⟩ | ⟨major, minor, _, _, hknown, hne, hfits⟩
    · obtain ⟨x, y, hxy⟩ : ∃ x y, toLittleEndian 2 header.length = [x, y] := ⟨_, _, rfl⟩
      have hlength : ofLittleEndian [x, y] = header.length := by
        rw [← hxy, ofLittleEndian_toLittleEndian, Nat.mod_eq_of_lt (by omega)]
      rw [hxy, openNPY_one]
      exact split_ok_iff.2 ⟨rfl, hlength.symm, hne⟩
    · obtain ⟨x, y, z, w, hword⟩ : ∃ x y z w, toLittleEndian 4 header.length = [x, y, z, w] :=
        ⟨_, _, _, _, rfl⟩
      have hlength : ofLittleEndian [x, y, z, w] = header.length := by
        rw [← hword, ofLittleEndian_toLittleEndian, Nat.mod_eq_of_lt (by omega)]
      rw [hword, openNPY_two hknown]
      exact split_ok_iff.2 ⟨rfl, hlength.symm, hne⟩

theorem checkNPYLength_ok_iff {payload : Bytes} :
    checkNPYLength payload = .ok (count, body) ↔
      ∃ header, NPYFile payload header body ∧ DeclaresVector (header.map byteChar) count ∧
      0 < count ∧ count < 2 ^ 63 ∧ (body.length : ℤ) = (Int64.ofNat count * 4).toInt := by
  have hparts (header : Bytes) : openNPY payload = .ok (header, body) ↔
      NPYFile payload header body :=
    openNPY_ok_iff
  simp only [← hparts, checkNPYLength, bind]
  rcases openNPY payload with e | ⟨header, body'⟩
  · simp [Except.bind]
  simp only [Except.bind, Except.ok.injEq, Prod.mk.injEq]
  have hcount := @npyCount_ok_iff count (header.map byteChar)
  generalize npyCount (header.map byteChar) = result at hcount
  rcases result with e | count'
  · simp only [reduceCtorEq, false_iff] at hcount ⊢
    rintro ⟨header', ⟨rfl, -⟩, hdeclares, hpos, hlt, -⟩
    exact hcount ⟨hdeclares, hpos, hlt⟩
  · simp only [Except.ok.injEq] at hcount ⊢
    split_ifs with hcheck
    · simp only [false_iff]
      rintro ⟨header', ⟨rfl, rfl⟩, hdeclares, hpos, hlt, heq⟩
      rw [hcount.2 ⟨hdeclares, hpos, hlt⟩] at hcheck
      exact hcheck heq
    · simp only [pure, Except.pure, Except.ok.injEq, Prod.mk.injEq]
      constructor
      · rintro ⟨rfl, rfl⟩
        obtain ⟨hdeclares, hpos, hlt⟩ := hcount.1 rfl
        exact ⟨header, ⟨rfl, rfl⟩, hdeclares, hpos, hlt, not_not.1 hcheck⟩
      · rintro ⟨header', ⟨rfl, rfl⟩, hdeclares, hpos, hlt, -⟩
        exact ⟨hcount.2 ⟨hdeclares, hpos, hlt⟩, rfl⟩

/-! ## No other crashes -/

theorem openNPY_ne_crash (payload : Bytes) (message : String) :
    openNPY payload ≠ .error (.crash message) := by
  rw [openNPY_eq]
  simp only [splitNPY_eq]
  split_ifs <;> simp

theorem npyCount_ne_crash (header : List Char) (message : String) :
    npyCount header ≠ .error (.crash message) := by
  unfold npyCount
  split_ifs
  · simp
  · simp
  rcases findShape header with _ | digits
  · simp
  rcases ha : atoi digits with _ | _ | n <;> simp [ha]

theorem checkNPYLength_ne_crash (payload : Bytes) (message : String) :
    checkNPYLength payload ≠ .error (.crash message) := by
  simp only [checkNPYLength, bind]
  rcases ho : openNPY payload with e | ⟨header, body⟩
  · intro h
    cases h
    exact openNPY_ne_crash payload message ho
  simp only [Except.bind]
  rcases hc : npyCount (header.map byteChar) with e | count
  · intro h
    cases h
    exact npyCount_ne_crash _ message hc
  simp only
  split_ifs <;> simp [pure, Except.pure]

theorem decodeNPYValues_ne_crash (body : Bytes) (message : String) :
    decodeNPYValues body ≠ .error (.crash message) := by
  fun_induction decodeNPYValues body with
  | case1 => simp
  | case2 b₀ b₁ b₂ b₃ body value hv e he ih =>
    intro h
    cases h
    exact ih he
  | case3 => simp
  | case4 => simp

/-- Decoding ends without a crash, and the elements it allocates have the size of the body. -/
structure DecodesSafely (payload : Bytes) : Prop where
  no_crash : ∀ message, decodeNPYFloat32Indexed payload ≠ .error (.crash message)
  allocation : ∀ count body, checkNPYLength payload = .ok (count, body) →
    count * 4 = body.length ∧ body <:+ payload
  vector : ∀ values, decodeNPYFloat32Indexed payload = .ok values →
    ∃ body, checkNPYLength payload = .ok (values.length, body)

theorem NPYFile.suffix {payload : Bytes} (h : NPYFile payload header body) : body <:+ payload := by
  rcases h with ⟨minor, _, _, -, -⟩ | ⟨major, minor, _, _, -, -, -⟩
  · exact ⟨npyMagic ++ ([1, minor] ++ (toLittleEndian 2 header.length ++ header)), by simp⟩
  · exact ⟨npyMagic ++ ([major, minor] ++ (toLittleEndian 4 header.length ++ header)), by simp⟩

/-- Such a payload passes the length check, with a size that is not that of its body. -/
theorem WrapsAround.checked {payload : Bytes} (h : WrapsAround payload)
    (hlength : payload.length < 2 ^ 63) :
    ∃ count body, checkNPYLength payload = .ok (count, body) ∧ count * 4 ≠ body.length := by
  obtain ⟨header, body, count, hfile, hdeclares, hwraps⟩ := h
  have hbody : body.length ≤ payload.length := hfile.suffix.length_le
  exact ⟨count, body, checkNPYLength_ok_iff.2 ⟨header, hfile, hdeclares, by omega, by omega,
    checked_of_wraps (by omega) hwraps⟩, by omega⟩

/-- Decoding is safe for just the payloads whose declared size does not exceed that of their body by
`2 ^ 64`. -/
theorem decodesSafely_iff (payload : Bytes) (hlength : payload.length < 2 ^ 63) :
    DecodesSafely payload ↔ ¬ WrapsAround payload := by
  constructor
  · intro hsafe hwraps
    obtain ⟨count, body, hchecked, hne⟩ := hwraps.checked hlength
    exact hne (hsafe.allocation count body hchecked).1
  · intro hnot
    have hsize {count : ℕ} {body : Bytes} (h : checkNPYLength payload = .ok (count, body)) :
        count * 4 = body.length ∧ count * 4 < 2 ^ 63 ∧ body <:+ payload := by
      obtain ⟨header, hfile, hdeclares, hpos, hlt, hcheck⟩ := checkNPYLength_ok_iff.1 h
      rcases length_of_checked hlt hcheck with ⟨hexact, hfits⟩ | hwraps
      · exact ⟨hexact, hfits, hfile.suffix⟩
      · exact absurd ⟨header, body, count, hfile, hdeclares, hwraps⟩ hnot
    have hdecode {count : ℕ} {body : Bytes} (h : checkNPYLength payload = .ok (count, body)) :
        decodeNPYFloat32Indexed payload = decodeNPYValues body := by
      obtain ⟨hexact, hfits, -⟩ := hsize h
      simp only [decodeNPYFloat32Indexed, h, bind, Except.bind, makeFloat32Slice,
        if_neg (not_le.2 hfits)]
      rw [readNPYValues_eq body 0 count (by omega), Nat.zero_mul, List.drop_zero]
    have hstop {e : Fault} (h : checkNPYLength payload = .error e) :
        decodeNPYFloat32Indexed payload = .error e := by
      simp only [decodeNPYFloat32Indexed, h, bind, Except.bind]
    refine ⟨fun message hcrash => ?_, fun count body h => ⟨(hsize h).1, (hsize h).2.2⟩,
      fun values hok => ?_⟩
    · rcases h : checkNPYLength payload with e | ⟨count, body⟩
      · rw [hstop h] at hcrash
        cases hcrash
        exact checkNPYLength_ne_crash payload message h
      · rw [hdecode h] at hcrash
        exact decodeNPYValues_ne_crash body message hcrash
    · rcases h : checkNPYLength payload with e | ⟨count, body⟩
      · rw [hstop h] at hok
        cases hok
      · rw [hdecode h] at hok
        obtain ⟨-, hlow, hhigh⟩ := decodeNPYValues_ok hok
        have hexact := (hsize h).1
        have hcount : values.length = count := by omega
        exact ⟨body, by rw [hcount]⟩

/-- The numbers 1.5 and 2. -/
def pairPayload : Bytes := npyRegion 2 ++ [0, 0, 192, 63, 0, 0, 0, 64]

theorem decodesSafely_pairPayload : pairPayload.length < 2 ^ 63 ∧
    decodeNPYFloat32Indexed pairPayload = .ok [1.5, 2] ∧ DecodesSafely pairPayload := by
  have hlength : pairPayload.length < 2 ^ 63 := by decide +kernel
  have hpassed : checkNPYLength pairPayload = .ok (2, [0, 0, 192, 63, 0, 0, 0, 64]) := by
    decide +kernel
  refine ⟨hlength, by decide +kernel, (decodesSafely_iff _ hlength).2 fun hwraps => ?_⟩
  obtain ⟨count, body, hchecked, hne⟩ := hwraps.checked hlength
  cases hpassed.symm.trans hchecked
  exact hne rfl

/-- Without a body, `2 ^ 62` elements pass the length check and cannot be allocated. -/
theorem wrapped_length_crashes :
    (npyRegion (2 ^ 62)).length = 96 ∧
      checkNPYLength (npyRegion (2 ^ 62)) = .ok (2 ^ 62, []) ∧
      decodeNPYFloat32Indexed (npyRegion (2 ^ 62)) =
        .error (.crash "runtime error: makeslice: len out of range") := by
  decide +kernel

end ZeroTrustFL
