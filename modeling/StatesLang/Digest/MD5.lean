import StatesLang.Digest.Message

/-!
# MD5

* `MD5.digest`: the digest of a message, 16 bytes.
-/

namespace StatesLang.Digest.MD5

/-- The whole parts of `2^32 · |sin i|` for `i` from 1 to 64. -/
def sines : List UInt32 := [
  0xd76aa478, 0xe8c7b756, 0x242070db, 0xc1bdceee, 0xf57c0faf, 0x4787c62a,
  0xa8304613, 0xfd469501, 0x698098d8, 0x8b44f7af, 0xffff5bb1, 0x895cd7be,
  0x6b901122, 0xfd987193, 0xa679438e, 0x49b40821, 0xf61e2562, 0xc040b340,
  0x265e5a51, 0xe9b6c7aa, 0xd62f105d, 0x02441453, 0xd8a1e681, 0xe7d3fbc8,
  0x21e1cde6, 0xc33707d6, 0xf4d50d87, 0x455a14ed, 0xa9e3e905, 0xfcefa3f8,
  0x676f02d9, 0x8d2a4c8a, 0xfffa3942, 0x8771f681, 0x6d9d6122, 0xfde5380c,
  0xa4beea44, 0x4bdecfa9, 0xf6bb4b60, 0xbebfbc70, 0x289b7ec6, 0xeaa127fa,
  0xd4ef3085, 0x04881d05, 0xd9d4d039, 0xe6db99e5, 0x1fa27cf8, 0xc4ac5665,
  0xf4292244, 0x432aff97, 0xab9423a7, 0xfc93a039, 0x655b59c3, 0x8f0ccc92,
  0xffeff47d, 0x85845dd1, 0x6fa87e4f, 0xfe2ce6e0, 0xa3014314, 0x4e0811a1,
  0xf7537e82, 0xbd3af235, 0x2ad7d2bb, 0xeb86d391]

/-- The four registers. -/
structure Registers where
  a : UInt32
  b : UInt32
  c : UInt32
  d : UInt32

/-- The registers before the first block. -/
def initial : Registers :=
  ⟨0x67452301, 0xefcdab89, 0x98badcfe, 0x10325476⟩

/-- The distances of rotation in the four groups of steps. -/
def rotation (step : Nat) : UInt32 :=
  let row : List UInt32 :=
    match step / 16 with
    | 0 => [7, 12, 17, 22]
    | 1 => [5, 9, 14, 20]
    | 2 => [4, 11, 16, 23]
    | _ => [6, 10, 15, 21]
  row.getD (step % 4) 0

/-- The mixing function of a step and the word of the block that it takes. -/
def mix (step : Nat) (r : Registers) : UInt32 × Nat :=
  match step / 16 with
  | 0 => ((r.b &&& r.c) ||| (~~~r.b &&& r.d), step)
  | 1 => ((r.d &&& r.b) ||| (~~~r.d &&& r.c), (5 * step + 1) % 16)
  | 2 => (r.b ^^^ r.c ^^^ r.d, (3 * step + 5) % 16)
  | _ => (r.c ^^^ (r.b ||| ~~~r.d), 7 * step % 16)

/-- One step. -/
def advance (block : List UInt32) (r : Registers) (step : Nat × UInt32) : Registers :=
  let (f, word) := mix step.1 r
  let sum := f + r.a + step.2 + block.getD word 0
  ⟨r.d, r.b + rotateLeft sum (rotation step.1), r.b, r.c⟩

/-- All steps of a block. -/
def compress (r : Registers) (block : List UInt32) : Registers :=
  let s := ((List.range 64).zip sines).foldl (advance block) r
  ⟨r.a + s.a, r.b + s.b, r.c + s.c, r.d + s.d⟩

/-- The digest of a message. -/
def digest (message : List UInt8) : List UInt8 :=
  let blocks := (padded 64 (littleEndian 8 (8 * message.length)) message).map fun block =>
    (split 4 block).map fun word => UInt32.ofNat (ofLittleEndian word)
  let r := blocks.foldl compress initial
  [r.a, r.b, r.c, r.d].flatMap fun word => littleEndian 4 word.toNat

end StatesLang.Digest.MD5
