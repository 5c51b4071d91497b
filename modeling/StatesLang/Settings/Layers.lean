import StatesLang.Environment.Basic
import StatesLang.Json.Reader
import StatesLang.Settings.Decode
import StatesLang.Settings.Raw

/-!
# Settings in layers

Settings have initial values; a file may change them, and variables of the environment may change
them again.

* `Settings.Layer`: what one source sets, and where.
* `Layer.initial`, `Layer.ofDocument?`, `Layer.ofVariables`: the three sources.
* `Raw.withLayer?`: the settings after a layer, if it has all the places that it sets.
* `Settings.ofRaw?`: the settings as types want them.
* `Settings.load`: all layers together.
-/

namespace StatesLang.Settings

/-- What a source sets, and where. -/
abbrev Layer := List (Place × Raw)

/-- The settings after a layer, if there are all the places that it sets. -/
def Raw.withLayer? (settings : Raw) (layer : Layer) : Option Raw :=
  layer.foldlM (fun r entry => r.set? entry.1 entry.2) settings

/-! ## Sources -/

/-- The initial settings. -/
def Layer.initial : Layer :=
  let s : Settings := {}
  let count (n : Nat) : Raw := .integer (Int64.ofNat n)
  [([.member "logging"], .group [("level", .text s.logging.level)]),
    ([.member "validation"], .group
      [("check_reachability", .boolean s.validation.checkReachability),
        ("max_branch_depth", count s.validation.maxBranchDepth),
        ("max_intrinsic_depth", count s.validation.maxIntrinsicDepth)]),
    ([.member "intrinsics"], .group
      [("max_nesting_depth", count s.intrinsics.maxNestingDepth),
        ("max_array_range_items", count s.intrinsics.maxArrayRangeItems)])]

/-- The settings of a document, which must be an object. -/
def Layer.ofDocument? : Json → Option Layer
  | .object members =>
    some ((Raw.ofMembers members).map fun (name, value) => (Place.parse name, value))
  | _ => none

/-- The key that a name of a variable stands for: two low lines separate the names of a path. -/
def keyChars : List Char → List Char
  | '_' :: '_' :: cs => '.' :: keyChars cs
  | c :: cs => c :: keyChars cs
  | [] => []

/-- What the names of variables with settings start with, in lower case. -/
def variablePrefix : List Char := "asl_".toList

/-- The place that a variable sets, if it is one with settings. -/
def placeOfVariable? (name : String) : Option Place :=
  let cs := (lowerCase name).toList
  if variablePrefix.isPrefixOf cs then
    some (Place.parse (String.ofList (keyChars (cs.drop variablePrefix.length))))
  else none

/-- The settings of variables. -/
def Layer.ofVariables (vars : Variables) : Layer :=
  vars.filterMap fun (name, text) => (placeOfVariable? name).map (·, Raw.ofText text)

/-! ## Types -/

/-- A field of a record of settings: a member of a group, or an item of a list in the order of
declaration. A field that is left out has its initial value. -/
def field? {φ α : Type} [DecidableEq φ] (shape : Decode.RecordShape φ) (r : Raw) (f : φ)
    (read : Raw → Option α) (initial : α) : Option α :=
  let value? : Option (Option Raw) := match r with
    | .group members => some (members.lookup (shape.key f))
    | .list items => some items[shape.order.idxOf f]?
    | _ => none
  match value? with
  | some (some v) => read v
  | some none => some initial
  | none => none

/-- The settings of logging. -/
def Logging.ofRaw? (r : Raw) : Option Logging := do
  let s : Logging := {}
  return ⟨← field? shape r .level Raw.toText? s.level⟩

/-- The settings of checking. -/
def Validation.ofRaw? (r : Raw) : Option Validation := do
  let s : Validation := {}
  let checkReachability ← field? shape r .checkReachability Raw.toBool? s.checkReachability
  let maxBranchDepth ← field? shape r .maxBranchDepth Raw.toNat? s.maxBranchDepth
  let maxIntrinsicDepth ← field? shape r .maxIntrinsicDepth Raw.toNat? s.maxIntrinsicDepth
  return ⟨checkReachability, maxBranchDepth, maxIntrinsicDepth⟩

/-- The limits of calls. -/
def Calls.ofRaw? (r : Raw) : Option Calls := do
  let s : Calls := {}
  let maxNestingDepth ← field? shape r .maxNestingDepth Raw.toNat? s.maxNestingDepth
  let maxArrayRangeItems ← field? shape r .maxArrayRangeItems Raw.toNat? s.maxArrayRangeItems
  return ⟨maxNestingDepth, maxArrayRangeItems⟩

/-- All settings. -/
def ofRaw? (r : Raw) : Option Settings := do
  let logging ← field? shape r .logging Logging.ofRaw? {}
  let validation ← field? shape r .validation Validation.ofRaw? {}
  let intrinsics ← field? shape r .intrinsics Calls.ofRaw? {}
  return ⟨logging, validation, intrinsics⟩

/-! ## Loading -/

/-- Why settings cannot be loaded. -/
inductive LoadError
  | noFile (name : String)
  | noFormat (name : String)
  | malformed (name : String) (e : SyntaxError)
  | notObject (name : String)
  | noPlace
  | otherType

/-- The wording of an error. -/
def LoadError.message : LoadError → String
  | .noFile name => s!"settings file '{name}' not found"
  | .noFormat name => s!"settings file '{name}' is not of a known format"
  | .malformed name e => s!"{e.message} in settings file '{name}'"
  | .notObject name => s!"settings file '{name}' does not hold an object"
  | .noPlace => "a setting stands at a place that is not there"
  | .otherType => "a setting has a value of another type"

/-- The last part of the name of a file. -/
def baseName (name : String) : List Char :=
  (name.toList.reverse.takeWhile (· != '/')).reverse

/-- The ending of the names of files with settings. -/
def ending : List Char := ".json".toList

/-- Whether a name has the ending, and more than that. -/
def hasEnding (name : String) : Bool :=
  let base := baseName name
  base != ending && ending.isSuffixOf base

/-- A name in reverse without the parts at its end that lead nowhere: empty ones and single
points. -/
def dropIdle : List Char → List Char
  | '/' :: cs => dropIdle cs
  | '.' :: '/' :: cs => dropIdle cs
  | cs => cs

/-- A name with the ending, which stands behind the last part that leads somewhere. The names of
this directory and of the one above take no ending. -/
def withEnding? (name : String) : Option String :=
  let stem := String.ofList (dropIdle name.toList.reverse).reverse
  let base := baseName stem
  if base = [] ∨ base = ['.'] ∨ base = ['.', '.'] then none
  else some (stem ++ String.ofList ending)

/-- The layer of the text of a file. -/
def Layer.ofText (name text : String) : Except LoadError Layer :=
  match Json.parse? text with
  | .ok document =>
    match Layer.ofDocument? document with
    | some layer => .ok layer
    | none => .error (.notObject name)
  | .error e => .error (.malformed name e)

/-- The layer of a file. A name may leave the ending out. -/
def Layer.ofFile {m : Type → Type} [Monad m] (read : FileReader m) (name : String) :
    m (Except LoadError Layer) := do
  match ← read name with
  | .ok text =>
    return if hasEnding name then Layer.ofText name text else .error (.noFormat name)
  | .error _ =>
    match withEnding? name with
    | some name' =>
      match ← read name' with
      | .ok text => return Layer.ofText name' text
      | .error _ => return .error (.noFile name)
    | none => return .error (.noFile name)

/-- The settings after the layer of a file, if there is one, and that of the environment. -/
def ofLayers (file : Layer) (vars : Variables) : Except LoadError Settings :=
  match [Layer.initial, file, Layer.ofVariables vars].foldlM Raw.withLayer? (Raw.group []) with
  | some r =>
    match ofRaw? r with
    | some s => .ok s
    | none => .error .otherType
  | none => .error .noPlace

/-- The settings of a file, if one is named, and of the environment. -/
def load {m : Type → Type} [Monad m] (read : FileReader m) (vars : Variables)
    (name : Option String) : m (Except LoadError Settings) := do
  let file ← match name with
    | some name => Layer.ofFile read name
    | none => pure (.ok [])
  return file.bind (ofLayers · vars)

end StatesLang.Settings
