import StatesLang.Number.Shortest

/-!
# Decimal notations of a double

* `Notation`: the decisions of a decimal notation.
* `Notation.document`: numbers in JSON documents and in messages about them.
* `Notation.expression`: numbers in intrinsic function calls.
* `Notation.setting`: numbers read where a text was wanted in the settings.
* `Binary64.render`: the text of a double in a notation.
-/

namespace StatesLang

/-- The decisions of a decimal notation. -/
structure Notation where
  /-- The least exponent of the leading digit that is written without an exponent. -/
  positionalFrom : Int
  /-- The first exponent of the leading digit that is written with an exponent again. -/
  positionalBelow : Int
  /-- Whether a positive exponent carries its sign. -/
  signedExponent : Bool
  /-- Whether a whole number without exponent ends in `.0`. -/
  pointZero : Bool
  tie : Shortest.Tie

namespace Notation

/-- In documents `1e-5` is the least and `1e15` the greatest power of ten without exponent. -/
def document : Notation := ⟨-5, 16, true, true, .toEven⟩

/-- In calls `1e-4` is the least and `1e15` the greatest power of ten without exponent. -/
def expression : Notation := ⟨-4, 16, false, true, .up⟩

/-- Settings never show an exponent. -/
def setting : Notation := ⟨-400, 400, false, false, .up⟩

/-- The decimal digits of a number. -/
def digits (n : Nat) : List Char :=
  Nat.toDigits 10 n

/-- A decimal without exponent. -/
def positional (n : Notation) (ds : List Char) (exponent : Int) : List Char :=
  let lead := exponent + ds.length
  if 0 ≤ exponent then
    ds ++ List.replicate exponent.toNat '0' ++ (if n.pointZero then ['.', '0'] else [])
  else if 0 < lead then
    ds.take lead.toNat ++ '.' :: ds.drop lead.toNat
  else '0' :: '.' :: List.replicate (-lead).toNat '0' ++ ds

/-- A decimal with one digit before the point and an exponent. -/
def scientific (n : Notation) (ds : List Char) (exponent : Int) : List Char :=
  let k := exponent + ds.length - 1
  let mantissa := match ds with
    | [] => []
    | [d] => [d]
    | d :: rest => d :: '.' :: rest
  let sign := if k < 0 then ['-'] else if n.signedExponent then ['+'] else []
  mantissa ++ 'e' :: sign ++ digits k.natAbs

/-- A magnitude given by its shortest decimal. -/
def magnitude (n : Notation) (d : Decimal) : List Char :=
  let ds := digits d.digits
  let k := d.exponent + ds.length - 1
  if d.digits = 0 ∨ (n.positionalFrom ≤ k ∧ k < n.positionalBelow) then
    n.positional ds d.exponent
  else n.scientific ds d.exponent

end Notation

/-- The text of a double. -/
def Binary64.render (n : Notation) (x : Binary64) : String :=
  let sign := if x.negative then ['-'] else []
  String.ofList (sign ++ n.magnitude (x.shortest n.tie))

end StatesLang
