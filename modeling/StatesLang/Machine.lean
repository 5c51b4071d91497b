import StatesLang.Validation.Reachability

/-!
# State machines

* `Machine`: a definition that was found valid.
* `Machine.ofDefinition`: the machine of a definition, or its problems; `Machine.of_ofDefinition`:
  what it stands for.
* `Machine.choose`: where a choice of a machine goes.
-/

namespace StatesLang

/-- A definition without problems, under some settings. -/
structure Machine where
  definition : Definition
  valid : ∃ settings, Validation.problems settings definition = []

namespace Machine

/-- The machine of a definition, or the problems of the definition. -/
def ofDefinition (settings : Settings.Validation) (d : Definition) :
    Except (List Validation.Problem) Machine :=
  match h : Validation.problems settings d with
  | [] => .ok ⟨d, settings, h⟩
  | ps => .error ps

theorem ofDefinition_of_valid {settings : Settings.Validation} {d : Definition}
    (h : Validation.problems settings d = []) :
    ofDefinition settings d = .ok ⟨d, settings, h⟩ := by
  unfold ofDefinition
  split
  · rfl
  · next hp => exact absurd h hp

theorem of_ofDefinition {settings : Settings.Validation} {d : Definition} {m : Machine}
    (h : ofDefinition settings d = .ok m) :
    m.definition = d ∧ Validation.problems settings d = [] := by
  unfold ofDefinition at h
  split at h
  · next hp => cases h; exact ⟨rfl, hp⟩
  · cases h

/-- The state of a machine with a name. -/
def find? (m : Machine) (name : String) : Option State :=
  m.definition.graph.find? name

/-- Why a machine has no choice of a name. -/
inductive ChoiceDefect
  | noState (name : String)
  | otherType (name : String) (type : StateType)
deriving DecidableEq

/-- The wording of a defect. -/
def ChoiceDefect.message : ChoiceDefect → String
  | .noState name => s!"state '{name}' does not exist"
  | .otherType name type =>
    s!"state '{name}' is a {type.name} state, not a Choice state"

/-- The name that a choice of the machine goes to, if any. -/
def choose (m : Machine) (name : String) (input : Json) :
    Except ChoiceDefect (Option String) :=
  match m.find? name with
  | some (.choice c) => .ok (c.choose input)
  | some s => .error (.otherType name s.type)
  | none => .error (.noState name)

end Machine

end StatesLang
