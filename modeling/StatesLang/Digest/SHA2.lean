import StatesLang.Digest.Message

/-!
# SHA-2

The variants differ in the length of their words, in the distances of rotation and in the primes
whose roots give the constants.

* `SHA2.rootBits`: the first bits of the fractional part of a root.
* `SHA2.Variant`: the distances of a variant; `sha256`, `sha512` are the two.
* `SHA2.digest256`, `digest384`, `digest512`: the digests of a message.
-/

namespace StatesLang.Digest.SHA2

/-! ## Constants -/

/-- The greatest `x + y`, with `y` of so many bits, whose power is at most `n`. -/
def root (power n : Nat) : Nat → Nat → Nat
  | 0, x => x
  | bits + 1, x =>
    let y := x + 1 <<< bits
    root power n bits (if Nat.pow y power ≤ n then y else x)

/-- The first `width` bits of the fractional part of a root of a number below `2^16`. -/
def rootBits (power width n : Nat) : BitVec width :=
  BitVec.ofNat width (root power (n <<< (power * width)) (width + 16) 0)

/-- The primes up to the eightieth. -/
def primes : List Nat :=
  (List.range 410).filter fun n => 2 ≤ n && (List.range n).all fun d => d < 2 || n % d != 0

/-! ## Variants -/

/-- The distances of a variant: of the two sums over a register, and of the two over a word of the
schedule, of which the last one is a shift. -/
structure Variant where
  width : Nat
  rounds : Nat
  first : Nat × Nat × Nat
  fifth : Nat × Nat × Nat
  early : Nat × Nat × Nat
  late : Nat × Nat × Nat

/-- The variant with words of 32 bits. -/
def sha256 : Variant :=
  ⟨32, 64, (2, 13, 22), (6, 11, 25), (7, 18, 3), (17, 19, 10)⟩

/-- The variant with words of 64 bits. -/
def sha512 : Variant :=
  ⟨64, 80, (28, 34, 39), (14, 18, 41), (1, 8, 7), (19, 61, 6)⟩

/-- The constants of the rounds: from the cube roots of the primes. -/
def Variant.constants (v : Variant) : List (BitVec v.width) :=
  (primes.take v.rounds).map (rootBits 3 v.width)

/-- The constants of the variant with words of 32 bits. -/
def constants256 : List (BitVec 32) := sha256.constants

/-- The constants of the variant with words of 64 bits. -/
def constants512 : List (BitVec 64) := sha512.constants

/-- Eight registers: from the square roots of eight primes. -/
def squareRoots (width : Nat) (ps : List Nat) : List (BitVec width) :=
  ps.map (rootBits 2 width)

variable {w : Nat}

/-- The sum of three rotations. -/
def rotations (d : Nat × Nat × Nat) (x : BitVec w) : BitVec w :=
  x.rotateRight d.1 ^^^ x.rotateRight d.2.1 ^^^ x.rotateRight d.2.2

/-- The sum of two rotations and a shift. -/
def rotationsAndShift (d : Nat × Nat × Nat) (x : BitVec w) : BitVec w :=
  x.rotateRight d.1 ^^^ x.rotateRight d.2.1 ^^^ (x >>> d.2.2)

/-! ## Rounds -/

/-- One more word of the schedule. The words are kept with the last one first. -/
def extend (v : Variant) (words : List (BitVec w)) : List (BitVec w) :=
  (rotationsAndShift v.late (words.getD 1 0) + words.getD 6 0 +
    rotationsAndShift v.early (words.getD 14 0) + words.getD 15 0) :: words

/-- The words of all rounds. -/
def schedule (v : Variant) (block : List (BitVec w)) : List (BitVec w) :=
  ((List.range (v.rounds - 16)).foldl (fun words _ => extend v words) block.reverse).reverse

/-- One round, with its constant and its word. -/
def round (v : Variant) (r : List (BitVec w)) (step : BitVec w × BitVec w) : List (BitVec w) :=
  match r with
  | [a, b, c, d, e, f, g, h] =>
    let t := h + rotations v.fifth e + ((e &&& f) ^^^ (~~~e &&& g)) + step.1 + step.2
    let u := rotations v.first a + ((a &&& b) ^^^ (a &&& c) ^^^ (b &&& c))
    [t + u, a, b, c, d + t, e, f, g]
  | r => r

/-- All rounds of a block. -/
def compress (v : Variant) (constants r block : List (BitVec w)) : List (BitVec w) :=
  List.zipWith (· + ·) r ((constants.zip (schedule v block)).foldl (round v) r)

/-- The registers after a message, as bytes. A word has a sixteenth of the bytes of a block, and
the length of the message takes up two words. -/
def digest (v : Variant) (constants initial : List (BitVec w)) (message : List UInt8) :
    List UInt8 :=
  let bytes := w / 8
  let blocks :=
    (padded (16 * bytes) (bigEndian (2 * bytes) (8 * message.length)) message).map fun block =>
      (split bytes block).map fun word => BitVec.ofNat w (ofBigEndian word)
  (blocks.foldl (compress v constants) initial).flatMap fun word => bigEndian bytes word.toNat

/-- The digest of 32 bytes. -/
def digest256 (message : List UInt8) : List UInt8 :=
  digest sha256 constants256 (squareRoots 32 (primes.take 8)) message

/-- The digest of 64 bytes. -/
def digest512 (message : List UInt8) : List UInt8 :=
  digest sha512 constants512 (squareRoots 64 (primes.take 8)) message

/-- The digest of 48 bytes: other primes, and the last two registers left out. -/
def digest384 (message : List UInt8) : List UInt8 :=
  (digest sha512 constants512 (squareRoots 64 ((primes.drop 8).take 8)) message).take 48

end StatesLang.Digest.SHA2
