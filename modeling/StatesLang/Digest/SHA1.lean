import StatesLang.Digest.Message

/-!
# SHA-1

* `SHA1.digest`: the digest of a message, 20 bytes.
-/

namespace StatesLang.Digest.SHA1

/-- The five registers. -/
structure Registers where
  a : UInt32
  b : UInt32
  c : UInt32
  d : UInt32
  e : UInt32

/-- The registers before the first block. -/
def initial : Registers :=
  ⟨0x67452301, 0xefcdab89, 0x98badcfe, 0x10325476, 0xc3d2e1f0⟩

/-- One more word of the schedule. The words are kept with the last one first. -/
def extend (words : List UInt32) : List UInt32 :=
  rotateLeft (words.getD 2 0 ^^^ words.getD 7 0 ^^^ words.getD 13 0 ^^^ words.getD 15 0) 1 :: words

/-- The words of all 80 steps. -/
def schedule (block : List UInt32) : List UInt32 :=
  ((List.range 64).foldl (fun words _ => extend words) block.reverse).reverse

/-- The mixing function and the constant of a step. -/
def mix (step : Nat) (r : Registers) : UInt32 × UInt32 :=
  match step / 20 with
  | 0 => ((r.b &&& r.c) ||| (~~~r.b &&& r.d), 0x5a827999)
  | 1 => (r.b ^^^ r.c ^^^ r.d, 0x6ed9eba1)
  | 2 => ((r.b &&& r.c) ||| (r.b &&& r.d) ||| (r.c &&& r.d), 0x8f1bbcdc)
  | _ => (r.b ^^^ r.c ^^^ r.d, 0xca62c1d6)

/-- One step. -/
def advance (r : Registers) (step : Nat × UInt32) : Registers :=
  let (f, k) := mix step.1 r
  ⟨rotateLeft r.a 5 + f + r.e + k + step.2, r.a, rotateLeft r.b 30, r.c, r.d⟩

/-- All steps of a block. -/
def compress (r : Registers) (block : List UInt32) : Registers :=
  let s := ((List.range 80).zip (schedule block)).foldl advance r
  ⟨r.a + s.a, r.b + s.b, r.c + s.c, r.d + s.d, r.e + s.e⟩

/-- The digest of a message. -/
def digest (message : List UInt8) : List UInt8 :=
  let blocks := (padded 64 (bigEndian 8 (8 * message.length)) message).map fun block =>
    (split 4 block).map fun word => UInt32.ofNat (ofBigEndian word)
  let r := blocks.foldl compress initial
  [r.a, r.b, r.c, r.d, r.e].flatMap fun word => bigEndian 4 word.toNat

end StatesLang.Digest.SHA1
