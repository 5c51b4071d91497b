/-!
# Base64

* `Base64.encode`: bytes as text, filled up with `=` to a multiple of four characters.
* `Base64.Error`: why a text is no such text, and its wording.
* `Base64.decode`: the bytes of a text. Only what `encode` writes is read.
-/

namespace StatesLang.Base64

/-- The characters for the numbers below 64. -/
def alphabet : List Char :=
  "ABCDEFGHIJKLMNOPQRSTUVWXYZabcdefghijklmnopqrstuvwxyz0123456789+/".toList

/-- The character for a number below 64. -/
def symbol (n : Nat) : Char :=
  alphabet.getD n 'A'

/-- The number that a byte stands for. -/
def sextet? (b : UInt8) : Option Nat :=
  let n := b.toNat
  if 65 ≤ n ∧ n ≤ 90 then some (n - 65)
  else if 97 ≤ n ∧ n ≤ 122 then some (n - 71)
  else if 48 ≤ n ∧ n ≤ 57 then some (n + 4)
  else if n = 43 then some 62
  else if n = 47 then some 63
  else none

/-- The byte that fills a text up. -/
def filler : UInt8 := 61

/-! ## Writing -/

/-- The characters of three bytes. -/
def group (a b c : UInt8) : List Char :=
  let n := (a.toNat * 256 + b.toNat) * 256 + c.toNat
  [symbol (n / 0x40000), symbol (n / 0x1000 % 64), symbol (n / 64 % 64), symbol (n % 64)]

/-- The characters of bytes. -/
def encodeChars : List UInt8 → List Char
  | [] => []
  | [a] => (group a 0 0).take 2 ++ ['=', '=']
  | [a, b] => (group a b 0).take 3 ++ ['=']
  | a :: b :: c :: rest => group a b c ++ encodeChars rest

/-- Bytes as text. -/
def encode (bytes : List UInt8) : String :=
  String.ofList (encodeChars bytes)

/-! ## Reading -/

/-- Why a text cannot be read. -/
inductive Error
  | invalidByte (index : Nat) (b : UInt8)
  | invalidLength
  | invalidLastSymbol (index : Nat) (b : UInt8)
  | invalidPadding
deriving DecidableEq

/-- The wording of an error. -/
def Error.message : Error → String
  | .invalidByte index b => s!"Invalid byte {b.toNat}, offset {index}."
  | .invalidLength => "Encoded text cannot have a 6-bit remainder."
  | .invalidLastSymbol index b => s!"Invalid last symbol {b.toNat}, offset {index}."
  | .invalidPadding => "Invalid padding"

/-- The numbers of bytes of which none may be missing. -/
def sextets (index : Nat) : List UInt8 → Except Error (List Nat)
  | [] => .ok []
  | b :: rest =>
    match sextet? b with
    | some n => do
      let ns ← sextets (index + 1) rest
      return n :: ns
    | none => .error (.invalidByte index b)

/-- The numbers of the last bytes. Fillers stand at the end, behind at least two symbols of their
group of four. -/
def lastSextets (index : Nat) (firstFiller : Option Nat) :
    List UInt8 → Except Error (List Nat)
  | [] => .ok []
  | b :: rest =>
    if b = filler then
      if index % 4 < 2 then .error (.invalidByte (firstFiller.getD index) b)
      else lastSextets (index + 1) (firstFiller.or (some index)) rest
    else
      match firstFiller with
      | some i => .error (.invalidByte i filler)
      | none =>
        match sextet? b with
        | some n => do
          let ns ← lastSextets (index + 1) none rest
          return n :: ns
        | none => .error (.invalidByte index b)

/-- The bytes of numbers below 64. Bits that do not fill a byte are dropped. -/
def pack : List Nat → List UInt8
  | a :: b :: c :: d :: rest =>
    let n := ((a * 64 + b) * 64 + c) * 64 + d
    UInt8.ofNat (n / 0x10000) :: UInt8.ofNat (n / 256 % 256) :: UInt8.ofNat (n % 256) :: pack rest
  | [a, b, c] =>
    let n := (a * 64 + b) * 64 + c
    [UInt8.ofNat (n / 0x400), UInt8.ofNat (n / 4 % 256)]
  | [a, b] => [UInt8.ofNat ((a * 64 + b) / 16)]
  | [_] | [] => []

/-- The number of bits of the last symbol that do not belong to a byte. -/
def spareBits (count : Nat) : Nat :=
  match count % 4 with
  | 2 => 4
  | 3 => 2
  | _ => 0

/-- Refuses a last symbol that has bits which belong to no byte. -/
def checkLast (ns : List Nat) : Except Error Unit :=
  match ns.getLast? with
  | some n =>
    if n % (1 <<< spareBits ns.length) = 0 then .ok ()
    else .error (.invalidLastSymbol (ns.length - 1) (symbol n).toUInt8)
  | none => .ok ()

/-- Refuses a text that ends with a single symbol of a group. A last byte that is no symbol is
reported as such. -/
def refuseLength (bytes : List UInt8) : Error :=
  match bytes.getLast? with
  | some b =>
    if b ≠ filler ∧ sextet? b = none then .invalidByte (bytes.length - 1) b else .invalidLength
  | none => .invalidLength

/-- The bytes of a text. Fillers may only stand among the last eight bytes or fewer that complete
groups of eight leave. -/
def decode (bytes : List UInt8) : Except Error (List UInt8) :=
  if bytes.length % 4 = 1 then .error (refuseLength bytes)
  else do
    let start := (bytes.length - 1) / 8 * 8
    let ns ← sextets 0 (bytes.take start)
    let ms ← lastSextets start none (bytes.drop start)
    if bytes.length % 4 ≠ 0 then .error .invalidPadding
    else do
      checkLast (ns ++ ms)
      return pack (ns ++ ms)

end StatesLang.Base64
