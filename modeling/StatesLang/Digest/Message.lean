/-!
# Messages and words

* `Digest.split`: a list cut into pieces of one length.
* `Digest.bigEndian`, `Digest.littleEndian`: numbers as bytes; `ofBigEndian`, `ofLittleEndian`:
  bytes as numbers.
* `Digest.padded`: the blocks of a message, with its length at the end.
* `Digest.hex`: bytes as hexadecimal text.
-/

namespace StatesLang.Digest

/-- A list cut into pieces of `size` elements, at least one; the last piece may be shorter. -/
def split {α : Type} (size : Nat) : List α → List (List α)
  | [] => []
  | a :: rest => (a :: rest.take (size - 1)) :: split size (rest.drop (size - 1))
termination_by items => items.length
decreasing_by simp only [List.length_drop, List.length_cons]; omega

/-- A number as so many bytes, the lowest one first. -/
def littleEndian : Nat → Nat → List UInt8
  | 0, _ => []
  | count + 1, n => UInt8.ofNat (n % 256) :: littleEndian count (n / 256)

/-- A number as so many bytes, the highest one first. -/
def bigEndian (count n : Nat) : List UInt8 :=
  (littleEndian count n).reverse

/-- The number that bytes write, the highest one first. -/
def ofBigEndian (bytes : List UInt8) : Nat :=
  bytes.foldl (fun n b => 256 * n + b.toNat) 0

/-- The number that bytes write, the lowest one first. -/
def ofLittleEndian (bytes : List UInt8) : Nat :=
  ofBigEndian bytes.reverse

/-- The blocks of a message: a set bit and zeros fill it up so that its length, given as bytes, ends
a block. -/
def padded (blockSize : Nat) (length : List UInt8) (message : List UInt8) : List (List UInt8) :=
  let used := (message.length + 1 + length.length) % blockSize
  let zeros := List.replicate ((blockSize - used) % blockSize) 0
  split blockSize (message ++ 0x80 :: zeros ++ length)

/-- Turns a word of 32 bits to the left. -/
def rotateLeft (x n : UInt32) : UInt32 :=
  (x <<< n) ||| (x >>> (32 - n))

/-- Bytes as text, two hexadecimal digits each. -/
def hex (bytes : List UInt8) : String :=
  String.ofList <| bytes.flatMap fun b =>
    [Nat.digitChar (b.toNat / 16), Nat.digitChar (b.toNat % 16)]

end StatesLang.Digest
