import Mathlib

/-!
# SHA-256

The hash function of FIPS 180-4 on byte lists.  Words are natural numbers below `2 ^ 32`.
-/

namespace ZeroTrustFL

/-- Byte sequences. -/
abbrev Bytes := List UInt8

namespace Sha256

/-- Round constants. -/
def roundConstants : List ℕ :=
  [0x428a2f98, 0x71374491, 0xb5c0fbcf, 0xe9b5dba5, 0x3956c25b, 0x59f111f1, 0x923f82a4, 0xab1c5ed5,
   0xd807aa98, 0x12835b01, 0x243185be, 0x550c7dc3, 0x72be5d74, 0x80deb1fe, 0x9bdc06a7, 0xc19bf174,
   0xe49b69c1, 0xefbe4786, 0x0fc19dc6, 0x240ca1cc, 0x2de92c6f, 0x4a7484aa, 0x5cb0a9dc, 0x76f988da,
   0x983e5152, 0xa831c66d, 0xb00327c8, 0xbf597fc7, 0xc6e00bf3, 0xd5a79147, 0x06ca6351, 0x14292967,
   0x27b70a85, 0x2e1b2138, 0x4d2c6dfc, 0x53380d13, 0x650a7354, 0x766a0abb, 0x81c2c92e, 0x92722c85,
   0xa2bfe8a1, 0xa81a664b, 0xc24b8b70, 0xc76c51a3, 0xd192e819, 0xd6990624, 0xf40e3585, 0x106aa070,
   0x19a4c116, 0x1e376c08, 0x2748774c, 0x34b0bcb5, 0x391c0cb3, 0x4ed8aa4a, 0x5b9cca4f, 0x682e6ff3,
   0x748f82ee, 0x78a5636f, 0x84c87814, 0x8cc70208, 0x90befffa, 0xa4506ceb, 0xbef9a3f7, 0xc67178f2]

/-- The eight working variables. -/
structure State where
  a : ℕ
  b : ℕ
  c : ℕ
  d : ℕ
  e : ℕ
  f : ℕ
  g : ℕ
  h : ℕ

/-- The initial hash value. -/
def initial : State :=
  ⟨0x6a09e667, 0xbb67ae85, 0x3c6ef372, 0xa54ff53a, 0x510e527f, 0x9b05688c, 0x1f83d9ab, 0x5be0cd19⟩

/-- Rotation of a word to the right. -/
def rotr (x n : ℕ) : ℕ := ((x >>> n) ||| (x <<< (32 - n))) % 2 ^ 32

/-- Extends the message schedule, newest word first, by `n` words. -/
def extend : ℕ → List ℕ → List ℕ
  | 0, w => w
  | n + 1, w =>
    let x := w.getD 14 0
    let y := w.getD 1 0
    let s₀ := rotr x 7 ^^^ rotr x 18 ^^^ (x >>> 3)
    let s₁ := rotr y 17 ^^^ rotr y 19 ^^^ (y >>> 10)
    extend n ((w.getD 15 0 + s₀ + w.getD 6 0 + s₁) % 2 ^ 32 :: w)

/-- One round, with the round constant and the schedule word. -/
def round (s : State) (kw : ℕ × ℕ) : State :=
  let S₁ := rotr s.e 6 ^^^ rotr s.e 11 ^^^ rotr s.e 25
  let ch := (s.e &&& s.f) ^^^ ((s.e ^^^ 0xffffffff) &&& s.g)
  let t₁ := s.h + S₁ + ch + kw.1 + kw.2
  let S₀ := rotr s.a 2 ^^^ rotr s.a 13 ^^^ rotr s.a 22
  let maj := (s.a &&& s.b) ^^^ (s.a &&& s.c) ^^^ (s.b &&& s.c)
  ⟨(t₁ + S₀ + maj) % 2 ^ 32, s.a, s.b, s.c, (s.d + t₁) % 2 ^ 32, s.e, s.f, s.g⟩

/-- The words of a byte list, most significant byte first. -/
def words : Bytes → List ℕ
  | a :: b :: c :: d :: l =>
    (a.toNat * 2 ^ 24 + b.toNat * 2 ^ 16 + c.toNat * 2 ^ 8 + d.toNat) :: words l
  | _ => []

/-- The compression function on one block of 64 bytes. -/
def compress (s : State) (block : Bytes) : State :=
  let w := (extend 48 (words block).reverse).reverse
  let t := (roundConstants.zip w).foldl round s
  ⟨(s.a + t.a) % 2 ^ 32, (s.b + t.b) % 2 ^ 32, (s.c + t.c) % 2 ^ 32, (s.d + t.d) % 2 ^ 32,
   (s.e + t.e) % 2 ^ 32, (s.f + t.f) % 2 ^ 32, (s.g + t.g) % 2 ^ 32, (s.h + t.h) % 2 ^ 32⟩

/-- The big-endian bytes of the low `8 * n` bits of a number. -/
def bigEndian : ℕ → ℕ → Bytes
  | 0, _ => []
  | n + 1, x => UInt8.ofNat (x >>> (8 * n)) :: bigEndian n x

/-- A message with the padding appended. -/
def pad (message : Bytes) : Bytes :=
  message ++ 0x80 :: List.replicate ((119 - message.length % 64) % 64) 0 ++
    bigEndian 8 (8 * message.length)

/-- Compression of the first `n` blocks. -/
def compressBlocks : ℕ → State → Bytes → State
  | 0, s, _ => s
  | n + 1, s, l => compressBlocks n (compress s (l.take 64)) (l.drop 64)

/-- The words of the hash value. -/
def State.toBytes (s : State) : Bytes :=
  [s.a, s.b, s.c, s.d, s.e, s.f, s.g, s.h].flatMap (bigEndian 4)

end Sha256

/-- The SHA-256 digest of a message. -/
def sha256 (message : Bytes) : Bytes :=
  let padded := Sha256.pad message
  (Sha256.compressBlocks (padded.length / 64) Sha256.initial padded).toBytes

theorem Sha256.length_bigEndian (n x : ℕ) : (Sha256.bigEndian n x).length = n := by
  induction n with
  | zero => rfl
  | succ n ih => simp [Sha256.bigEndian, ih]

/-- A digest has 32 bytes. -/
theorem length_sha256 (message : Bytes) : (sha256 message).length = 32 := by
  simp [sha256, Sha256.State.toBytes, Sha256.length_bigEndian]

example : sha256 [0x61, 0x62, 0x63] =
    [0xba, 0x78, 0x16, 0xbf, 0x8f, 0x01, 0xcf, 0xea, 0x41, 0x41, 0x40, 0xde, 0x5d, 0xae, 0x22, 0x23,
     0xb0, 0x03, 0x61, 0xa3, 0x96, 0x17, 0x7a, 0x9c, 0xb4, 0x10, 0xff, 0x61, 0xf2, 0x00,
     0x15, 0xad] := by
  decide +kernel

end ZeroTrustFL
