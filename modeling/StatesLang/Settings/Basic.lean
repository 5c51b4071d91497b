/-!
# Settings

* `Settings.Logging`, `Settings.Validation`, `Settings.Calls`: the groups of settings.
* `Settings`: all of them, with their initial values.
-/

namespace StatesLang

namespace Settings

/-- What is logged. -/
structure Logging where
  level : String := "info"
deriving DecidableEq

/-- How definitions are checked. -/
structure Validation where
  /-- Whether every graph must have a way to a terminal state. -/
  checkReachability : Bool := true
  /-- How deep parallel branches and iterators may stand inside each other. -/
  maxBranchDepth : Nat := 16
  /-- How deep the calls inside a definition may be nested. -/
  maxIntrinsicDepth : Nat := 32
deriving DecidableEq

/-- The limits of calls. -/
structure Calls where
  /-- How deep the calls of an expression may be nested. -/
  maxNestingDepth : Nat := 32
  /-- How many items a range may have. -/
  maxArrayRangeItems : Nat := 1000
deriving DecidableEq

end Settings

/-- All settings. -/
structure Settings where
  logging : Settings.Logging := {}
  validation : Settings.Validation := {}
  intrinsics : Settings.Calls := {}
deriving DecidableEq

end StatesLang
