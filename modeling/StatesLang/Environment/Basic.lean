/-!
# What a program finds around it

* `Variables`: the variables of the environment; `Variables.text?`: the text of one.
* `FileFault`: why a file gives no text.
* `FileReader`: a way to the texts of files, by name.
-/

namespace StatesLang

/-- The variables of the environment, with their texts. -/
abbrev Variables := List (String × String)

/-- The text of a variable. A name may reach into a text: a variable `A` with the text `B=c` also
gives `A=B` the text `c`. -/
def Variables.text? (vars : Variables) (name : String) : Option String :=
  let cs := name.toList
  let text? := vars.lookup (String.ofList (cs.takeWhile (· != '=')))
  match cs.dropWhile (· != '=') with
  | [] => text?
  | _ :: inner => do
    let text ← text?
    let start := inner ++ ['=']
    if start.isPrefixOf text.toList then some (String.ofList (text.toList.drop start.length))
    else none

/-- Why a file gives no text. -/
inductive FileFault
  | missing
  | directory
  | notDirectory
  | nameTooLong
  | notText
  | other (reason : String)
deriving DecidableEq

/-- The wording of a fault, with the number that the operating system gives it. -/
def FileFault.message : FileFault → String
  | .missing => "No such file or directory (os error 2)"
  | .directory => "Is a directory (os error 21)"
  | .notDirectory => "Not a directory (os error 20)"
  | .nameTooLong => "File name too long (os error 36)"
  | .notText => "stream did not contain valid UTF-8"
  | .other reason => reason

/-- A way to the texts of files, by name. -/
abbrev FileReader (m : Type → Type) := String → m (Except FileFault String)

end StatesLang
