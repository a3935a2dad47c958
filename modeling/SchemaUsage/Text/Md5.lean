import SchemaUsage.Text.Digits

/-!
# MD5 digests

Model of `md5_hex`: the MD5 message digest (RFC 1321) of a list of bytes, and its text of 32
lower-case hexadecimal digits.

Results:
- `length_pad`: a padded message is a whole number of blocks.
-/

namespace SchemaUsage.Text.Md5

/-- The four words of the running digest. -/
structure Digest where
  a : UInt32
  b : UInt32
  c : UInt32
  d : UInt32
  deriving Repr, DecidableEq

/-- The digest before the first block. -/
def Digest.start : Digest := ⟨0x67452301, 0xefcdab89, 0x98badcfe, 0x10325476⟩

/-- The additive constant of each of the 64 steps. -/
def constants : Array UInt32 :=
  #[0xd76aa478, 0xe8c7b756, 0x242070db, 0xc1bdceee,
   0xf57c0faf, 0x4787c62a, 0xa8304613, 0xfd469501,
   0x698098d8, 0x8b44f7af, 0xffff5bb1, 0x895cd7be,
   0x6b901122, 0xfd987193, 0xa679438e, 0x49b40821,
   0xf61e2562, 0xc040b340, 0x265e5a51, 0xe9b6c7aa,
   0xd62f105d, 0x02441453, 0xd8a1e681, 0xe7d3fbc8,
   0x21e1cde6, 0xc33707d6, 0xf4d50d87, 0x455a14ed,
   0xa9e3e905, 0xfcefa3f8, 0x676f02d9, 0x8d2a4c8a,
   0xfffa3942, 0x8771f681, 0x6d9d6122, 0xfde5380c,
   0xa4beea44, 0x4bdecfa9, 0xf6bb4b60, 0xbebfbc70,
   0x289b7ec6, 0xeaa127fa, 0xd4ef3085, 0x04881d05,
   0xd9d4d039, 0xe6db99e5, 0x1fa27cf8, 0xc4ac5665,
   0xf4292244, 0x432aff97, 0xab9423a7, 0xfc93a039,
   0x655b59c3, 0x8f0ccc92, 0xffeff47d, 0x85845dd1,
   0x6fa87e4f, 0xfe2ce6e0, 0xa3014314, 0x4e0811a1,
   0xf7537e82, 0xbd3af235, 0x2ad7d2bb, 0xeb86d391]

/-- The rotations of a round, one for each residue of the step modulo four. -/
def rotations : Nat → List UInt32
  | 0 => [7, 12, 17, 22]
  | 1 => [5, 9, 14, 20]
  | 2 => [4, 11, 16, 23]
  | _ => [6, 10, 15, 21]

/-- Rotates a word to the left. -/
def rotateLeft (x n : UInt32) : UInt32 := (x <<< n) ||| (x >>> (32 - n))

/-- The mixing function of a step and the index of the word that it reads. -/
def mix (step : Nat) (h : Digest) : UInt32 × Nat :=
  match step / 16 with
  | 0 => ((h.b &&& h.c) ||| (~~~h.b &&& h.d), step)
  | 1 => ((h.d &&& h.b) ||| (~~~h.d &&& h.c), (5 * step + 1) % 16)
  | 2 => (h.b ^^^ h.c ^^^ h.d, (3 * step + 5) % 16)
  | _ => (h.c ^^^ (h.b ||| ~~~h.d), (7 * step) % 16)

/-- One step over a block of sixteen words. -/
def stepOn (words : Array UInt32) (h : Digest) (step : Nat) : Digest :=
  let (f, g) := mix step h
  let sum := f + h.a + constants.getD step 0 + words.getD g 0
  let amount := (rotations (step / 16)).getD (step % 4) 0
  ⟨h.d, h.b + rotateLeft sum amount, h.b, h.c⟩

/-- The digest after one more block. -/
def absorb (h : Digest) (words : Array UInt32) : Digest :=
  let r := (List.range 64).foldl (stepOn words) h
  ⟨h.a + r.a, h.b + r.b, h.c + r.c, h.d + r.d⟩

/-- The lowest `width` bytes of a number, the least one first. -/
def littleEndian (n : Nat) : Nat → List UInt8
  | 0 => []
  | width + 1 => UInt8.ofNat n :: littleEndian (n / 256) width

theorem length_littleEndian (n width : Nat) : (littleEndian n width).length = width := by
  induction width generalizing n with
  | zero => rfl
  | succ width ih => simp [littleEndian, ih]

/-- The message, a one bit, zeros, and the length in bits as 64-bit number. -/
def pad (bytes : List UInt8) : List UInt8 :=
  bytes ++ 0x80 :: List.replicate ((119 - bytes.length % 64) % 64) 0 ++
    littleEndian (8 * bytes.length) 8

theorem length_pad (bytes : List UInt8) : (pad bytes).length % 64 = 0 := by
  simp only [pad, List.length_append, List.length_cons, List.length_replicate,
    length_littleEndian]
  omega

/-- The words of a row of bytes, the least byte of a word first. -/
def words : List UInt8 → List UInt32
  | w :: x :: y :: z :: rest =>
    (w.toUInt32 ||| (x.toUInt32 <<< 8) ||| (y.toUInt32 <<< 16) ||| (z.toUInt32 <<< 24)) ::
      words rest
  | _ => []

/-- Feeds `n` blocks of sixteen words. -/
def absorbBlocks : Nat → List UInt32 → Digest → Digest
  | 0, _, h => h
  | n + 1, ws, h => absorbBlocks n (ws.drop 16) (absorb h (ws.take 16).toArray)

/-- The digest of a message. -/
def digest (bytes : List UInt8) : Digest :=
  let padded := pad bytes
  absorbBlocks (padded.length / 64) (words padded) .start

/-- The bytes of a digest. -/
def Digest.bytes (h : Digest) : List UInt8 :=
  [h.a, h.b, h.c, h.d].flatMap fun w => littleEndian w.toNat 4

/-- **The digest of a text's UTF-8 bytes**, as lower-case hexadecimal digits. -/
def hex (text : String) : String :=
  String.ofList ((digest text.toUTF8.toList).bytes.flatMap fun b => hexOfWidth b.toNat 2)

end SchemaUsage.Text.Md5
