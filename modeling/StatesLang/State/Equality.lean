import StatesLang.State.Basic

/-!
# Equality of states

* `State.decEq`, `Graph.decEq`: two states, and two graphs, are the same or not.
-/

namespace StatesLang

mutual

/-- Decides whether two states are the same. -/
def State.decEq : (a b : State) → Decidable (a = b)
  | .task a, .task b => if h : a = b then isTrue (by rw [h]) else isFalse (by simp [h])
  | .pass a, .pass b => if h : a = b then isTrue (by rw [h]) else isFalse (by simp [h])
  | .choice a, .choice b => if h : a = b then isTrue (by rw [h]) else isFalse (by simp [h])
  | .wait a, .wait b => if h : a = b then isTrue (by rw [h]) else isFalse (by simp [h])
  | .succeed a, .succeed b => if h : a = b then isTrue (by rw [h]) else isFalse (by simp [h])
  | .fail a, .fail b => if h : a = b then isTrue (by rw [h]) else isFalse (by simp [h])
  | .parallel a gs, .parallel b hs =>
    if h : a = b then
      match Graph.decEqList gs hs with
      | isTrue h' => isTrue (by rw [h, h'])
      | isFalse h' => isFalse (by simp [h'])
    else isFalse (by simp [h])
  | .map a (some g), .map b (some h) =>
    if hab : a = b then
      match Graph.decEq g h with
      | isTrue h' => isTrue (by rw [hab, h'])
      | isFalse h' => isFalse (by simp [h'])
    else isFalse (by simp [hab])
  | .map a none, .map b none => if h : a = b then isTrue (by rw [h]) else isFalse (by simp [h])
  | .map _ none, .map _ (some _) | .map _ (some _), .map _ none => isFalse (by simp)
  | .task _, .pass _ | .task _, .choice _ | .task _, .wait _ | .task _, .succeed _
  | .task _, .fail _ | .task _, .parallel .. | .task _, .map .. | .pass _, .task _
  | .pass _, .choice _ | .pass _, .wait _ | .pass _, .succeed _ | .pass _, .fail _
  | .pass _, .parallel .. | .pass _, .map .. | .choice _, .task _ | .choice _, .pass _
  | .choice _, .wait _ | .choice _, .succeed _ | .choice _, .fail _ | .choice _, .parallel ..
  | .choice _, .map .. | .wait _, .task _ | .wait _, .pass _ | .wait _, .choice _
  | .wait _, .succeed _ | .wait _, .fail _ | .wait _, .parallel .. | .wait _, .map ..
  | .succeed _, .task _ | .succeed _, .pass _ | .succeed _, .choice _ | .succeed _, .wait _
  | .succeed _, .fail _ | .succeed _, .parallel .. | .succeed _, .map .. | .fail _, .task _
  | .fail _, .pass _ | .fail _, .choice _ | .fail _, .wait _ | .fail _, .succeed _
  | .fail _, .parallel .. | .fail _, .map .. | .parallel .., .task _ | .parallel .., .pass _
  | .parallel .., .choice _ | .parallel .., .wait _ | .parallel .., .succeed _
  | .parallel .., .fail _ | .parallel .., .map .. | .map .., .task _ | .map .., .pass _
  | .map .., .choice _ | .map .., .wait _ | .map .., .succeed _ | .map .., .fail _
  | .map .., .parallel .. => isFalse (by simp)

/-- Decides whether two graphs are the same. -/
def Graph.decEq : (a b : Graph) → Decidable (a = b)
  | ⟨c, n, ss⟩, ⟨d, m, ts⟩ =>
    if hc : c = d then
      if hn : n = m then
        match Graph.decEqStates ss ts with
        | isTrue h => isTrue (by rw [hc, hn, h])
        | isFalse h => isFalse (by simp [h])
      else isFalse (by simp [hn])
    else isFalse (by simp [hc])

/-- The same for two lists of graphs. -/
def Graph.decEqList : (a b : List Graph) → Decidable (a = b)
  | [], [] => isTrue rfl
  | a :: as, b :: bs =>
    match Graph.decEq a b, Graph.decEqList as bs with
    | isTrue h, isTrue h' => isTrue (by rw [h, h'])
    | isFalse h, _ => isFalse (by simp [h])
    | _, isFalse h => isFalse (by simp [h])
  | [], _ :: _ | _ :: _, [] => isFalse (by simp)

/-- The same for two lists of named states. -/
def Graph.decEqStates : (a b : List (String × State)) → Decidable (a = b)
  | [], [] => isTrue rfl
  | (n, a) :: as, (m, b) :: bs =>
    match String.decEq n m, State.decEq a b, Graph.decEqStates as bs with
    | isTrue h, isTrue h', isTrue h'' => isTrue (by rw [h, h', h''])
    | isFalse h, _, _ => isFalse (by simp [h])
    | _, isFalse h, _ => isFalse (by simp [h])
    | _, _, isFalse h => isFalse (by simp [h])
  | [], _ :: _ | _ :: _, [] => isFalse (by simp)

end

instance : DecidableEq State := State.decEq

instance : DecidableEq Graph := Graph.decEq

end StatesLang
