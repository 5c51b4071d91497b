import StatesLang.Builtin.Argument
import StatesLang.Digest.MD5
import StatesLang.Digest.SHA1
import StatesLang.Digest.SHA2
import StatesLang.Json.Printer
import StatesLang.Json.Reader

/-!
# Functions on texts

* `Builtin.stringToJson`, `jsonToString`: documents as texts.
* `Builtin.base64Encode`, `base64Decode`, `hash`: texts as bytes.
* `Builtin.stringSplit`: the pieces of a text.
-/

namespace StatesLang.Builtin

/-- The bytes of a text. -/
def bytesOf (s : String) : List UInt8 :=
  s.toUTF8.toList

/-- The document that a text holds. The text is given as a literal or computed. -/
def stringToJson : Handler := fun c s => do
  match c.params with
  | [p] =>
    match p with
    | .string _ | .call _ => do
      let text ← string c 0 (← s.resolve 0 p)
      match Json.parse? text with
      | .ok value => return value
      | .error e => fail c (.notJson e)
    | _ => fail c .notTextOrCall
  | ps => fail c (.arity 1 (some 1) ps.length)

/-- The text of a document at a path. -/
def jsonToString : Handler := fun c s => do
  match c.params with
  | [p] =>
    match p with
    | .path _ => return .string (← s.resolve 0 p).compact
    | _ => fail c .notPath
  | ps => fail c (.arity 1 (some 1) ps.length)

/-- The bytes of a text in Base64. -/
def base64Encode : Handler := unary fun c a => do
  let text ← string c 0 a
  return .string (Base64.encode (bytesOf text))

/-- The text whose bytes are given in Base64. -/
def base64Decode : Handler := unary fun c a => do
  let text ← string c 0 a
  match Base64.decode (bytesOf text) with
  | .error e => fail c (.notBase64 e)
  | .ok bytes =>
    match String.fromUTF8? ⟨bytes.toArray⟩ with
    | some s => return .string s
    | none => fail c .notText

/-- The digests by name. -/
def digests : List (String × (List UInt8 → List UInt8)) :=
  [("MD5", Digest.MD5.digest), ("SHA-1", Digest.SHA1.digest), ("SHA-256", Digest.SHA2.digest256),
    ("SHA-384", Digest.SHA2.digest384), ("SHA-512", Digest.SHA2.digest512)]

/-- What of a value is digested: a text as it is, anything else as its document text. -/
def digestedText : Json → String
  | .string s => s
  | value => value.compact

/-- The digest of a value, in hexadecimal. -/
def hash : Handler := binary fun c a b => do
  let name ← string c 1 b
  match digests.lookup name with
  | some digest => return .string (Digest.hex (digest (bytesOf (digestedText a))))
  | none => fail c (.unknownDigest name)

/-- The pieces of a list of characters between delimiters, the one before the list included. -/
def splitAtChars (delimiters piece : List Char) : List Char → List (List Char)
  | [] => [piece.reverse]
  | c :: rest =>
    if c ∈ delimiters then piece.reverse :: splitAtChars delimiters [] rest
    else splitAtChars delimiters (c :: piece) rest

/-- The pieces of a text that are not empty. Every character of the second text delimits. -/
def stringSplit : Handler := binary fun c a b => do
  let text ← string c 0 a
  let delimiters ← string c 1 b
  let pieces := splitAtChars delimiters.toList [] text.toList
  return .array ((pieces.filter (· ≠ [])).map fun p => .string (String.ofList p))

end StatesLang.Builtin
