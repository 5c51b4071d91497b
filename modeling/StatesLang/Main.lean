import StatesLang.CommandLine.Run

/-!
# The program

* `readFile`, `readVariables`: the files and the variables that the program finds.
* `main`: runs the command line, prints its report and gives back its exit code.
-/

namespace StatesLang.Program

/-- The number of an error, whichever sign it was given. -/
def errorNumber (code : UInt32) : UInt32 :=
  min code (0 - code)

/-- Why a file could not be read. -/
def faultOf : IO.Error → FileFault
  | .noFileOrDirectory _ _ _ => .missing
  | .inappropriateType _ code _ => if errorNumber code = 21 then .directory else .notDirectory
  | .invalidArgument name code details =>
    if errorNumber code = 36 then .nameTooLong
    else .other (toString (IO.Error.invalidArgument name code details))
  | e => .other (toString e)

/-- The text of a file. -/
def readFile : FileReader IO := fun name => do
  try
    let bytes ← IO.FS.readBinFile name
    match String.fromUTF8? bytes with
    | some text => return .ok text
    | none => return .error .notText
  catch e => return .error (faultOf e)

/-- The variables of the program's own environment. -/
def readVariables : IO Variables := do
  match ← readFile "/proc/self/environ" with
  | .ok text =>
    return (text.splitOn "\x00").filterMap fun entry =>
      match entry.splitOn "=" with
      | name :: value :: rest => some (name, "=".intercalate (value :: rest))
      | _ => none
  | .error _ => return []

/-- Random bytes as a number. -/
def readEntropy : IO UInt64 := do
  let bytes ← IO.getRandomBytes 8
  return bytes.toList.foldl (fun n b => 256 * n + b.toUInt64) 0

end StatesLang.Program

open StatesLang

/-- Runs the command line. -/
def main (args : List String) : IO UInt32 := do
  let vars ← Program.readVariables
  let entropy ← Program.readEntropy
  let report ← CommandLine.run Program.readFile vars entropy args
  IO.print report.output
  IO.eprint report.errors
  return report.exitCode.toUInt32
