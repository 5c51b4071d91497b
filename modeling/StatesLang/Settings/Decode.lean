import StatesLang.Decode.Record
import StatesLang.Settings.Basic

/-!
# Settings out of values

* `Settings.Logging.decode`, `Validation.decode`, `Calls.decode`: the groups of settings.
* `Settings.decode`, `Settings.parse`: all settings, out of values and texts.
-/

namespace StatesLang.Settings

open Json (Syntax)
open Decode (Origin)

/-! ## Logging -/

/-- A field of the settings of logging. -/
inductive Logging.Field
  | level
deriving DecidableEq

/-- The fields of the settings of logging. -/
def Logging.shape : Decode.RecordShape Logging.Field where
  name := "LoggingConfig"
  order := [.level]
  key := fun _ => "level"
  ofKey? key := if key = "level" then some .level else none

/-- Reads the settings of logging. -/
def Logging.decode (origin : Origin) (s : Syntax) : Except Decode.Error Logging :=
  Decode.readRecord origin shape {} s fun _ r f v _ => do
    match f with
    | .level => return { r with level := ← Decode.string v }

/-! ## Checking definitions -/

/-- A field of the settings of checking. -/
inductive Validation.Field
  | checkReachability
  | maxBranchDepth
  | maxIntrinsicDepth
deriving DecidableEq

/-- The key of a field. -/
def Validation.Field.key : Validation.Field → String
  | .checkReachability => "check_reachability"
  | .maxBranchDepth => "max_branch_depth"
  | .maxIntrinsicDepth => "max_intrinsic_depth"

/-- The fields, in the order of declaration. -/
def Validation.fields : List Validation.Field :=
  [.checkReachability, .maxBranchDepth, .maxIntrinsicDepth]

/-- The fields of the settings of checking. -/
def Validation.shape : Decode.RecordShape Validation.Field where
  name := "ValidationConfig"
  order := fields
  key := Field.key
  ofKey? key := fields.find? (·.key == key)

/-- Reads the settings of checking. -/
def Validation.decode (origin : Origin) (s : Syntax) : Except Decode.Error Validation :=
  Decode.readRecord origin shape {} s fun _ r f v _ => do
    match f with
    | .checkReachability => return { r with checkReachability := ← Decode.boolean v }
    | .maxBranchDepth => return { r with maxBranchDepth := ← Decode.size v }
    | .maxIntrinsicDepth => return { r with maxIntrinsicDepth := ← Decode.size v }

/-! ## Calls -/

/-- A field of the limits of calls. -/
inductive Calls.Field
  | maxNestingDepth
  | maxArrayRangeItems
deriving DecidableEq

/-- The key of a field. -/
def Calls.Field.key : Calls.Field → String
  | .maxNestingDepth => "max_nesting_depth"
  | .maxArrayRangeItems => "max_array_range_items"

/-- The fields, in the order of declaration. -/
def Calls.fields : List Calls.Field :=
  [.maxNestingDepth, .maxArrayRangeItems]

/-- The fields of the limits of calls. -/
def Calls.shape : Decode.RecordShape Calls.Field where
  name := "IntrinsicConfig"
  order := fields
  key := Field.key
  ofKey? key := fields.find? (·.key == key)

/-- Reads the limits of calls. -/
def Calls.decode (origin : Origin) (s : Syntax) : Except Decode.Error Calls :=
  Decode.readRecord origin shape {} s fun _ r f v _ => do
    match f with
    | .maxNestingDepth => return { r with maxNestingDepth := ← Decode.size v }
    | .maxArrayRangeItems => return { r with maxArrayRangeItems := ← Decode.size v }

/-! ## All settings -/

/-- A group of settings. -/
inductive Group
  | logging
  | validation
  | intrinsics
deriving DecidableEq

/-- The key of a group. -/
def Group.key : Group → String
  | .logging => "logging"
  | .validation => "validation"
  | .intrinsics => "intrinsics"

/-- The groups, in the order of declaration. -/
def groups : List Group :=
  [.logging, .validation, .intrinsics]

/-- The groups as the fields of a record. -/
def shape : Decode.RecordShape Group where
  name := "AslConfig"
  order := groups
  key := Group.key
  ofKey? key := groups.find? (·.key == key)

/-- Reads all settings. -/
def decode (origin : Origin) (s : Syntax) : Except Decode.Error Settings :=
  Decode.readRecord origin shape {} s fun inner r f v _ => do
    match f with
    | .logging => return { r with logging := ← Logging.decode inner v }
    | .validation => return { r with validation := ← Validation.decode inner v }
    | .intrinsics => return { r with intrinsics := ← Calls.decode inner v }

/-- Reads the settings that a text holds. -/
def parse (text : String) : Except Decode.Error Settings :=
  Decode.wholeText text decode

end StatesLang.Settings
