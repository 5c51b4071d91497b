import StatesLang.Condition.Eval
import StatesLang.Proofs.Regex

/-!
# What wildcard patterns match

The regular expression of a pattern has a node for each item of the pattern, whatever characters the
items are, and an end of the text on either side.

* `Wildcard.Spells`: a text that is cut along the items of a pattern.
* `Wildcard.parse?_expression`: the nodes of the expression of a pattern.
* **`Wildcard.matchesWith_iff`**: a pattern matches the texts that it spells.
-/

namespace StatesLang.Wildcard

open Regex (Node Starts Occurs escape metaCharacters nodes? parse?)

/-- A text that is cut along the items of a pattern: any run of characters for a star, any one
character for a question mark, the next character for a backslash, or a backslash if there is none,
and any other character for itself. -/
inductive Spells : List Char → List Char → Prop
  | done : Spells [] []
  | run {p text : List Char} (cs : List Char) (h : Spells p text) : Spells ('*' :: p) (cs ++ text)
  | any {p text : List Char} (c : Char) (h : Spells p text) : Spells ('?' :: p) (c :: text)
  | dangling : Spells ['\\'] ['\\']
  | escaped {p text : List Char} (c : Char) (h : Spells p text) :
    Spells ('\\' :: c :: p) (c :: text)
  | plain {p text : List Char} {c : Char} (hc : c ≠ '*' ∧ c ≠ '?' ∧ c ≠ '\\') (h : Spells p text) :
    Spells (c :: p) (c :: text)

section Spells

variable {p text : List Char} {c : Char}

theorem spells_nil : Spells [] text ↔ text = [] := by
  constructor
  · rintro ⟨⟩
    rfl
  · rintro rfl
    exact .done

theorem spells_run :
    Spells ('*' :: p) text ↔ ∃ cs after, text = cs ++ after ∧ Spells p after := by
  constructor
  · intro h
    cases h with
    | run cs h => exact ⟨_, _, rfl, h⟩
    | plain hc _ => exact absurd rfl hc.1
  · rintro ⟨cs, after, rfl, h⟩
    exact .run cs h

theorem spells_any :
    Spells ('?' :: p) text ↔ ∃ c after, text = c :: after ∧ Spells p after := by
  constructor
  · intro h
    cases h with
    | any c h => exact ⟨_, _, rfl, h⟩
    | plain hc _ => exact absurd rfl hc.2.1
  · rintro ⟨c, after, rfl, h⟩
    exact .any c h

theorem spells_dangling : Spells ['\\'] text ↔ text = ['\\'] := by
  constructor
  · intro h
    cases h with
    | dangling => rfl
    | plain hc _ => exact absurd rfl hc.2.2
  · rintro rfl
    exact .dangling

theorem spells_escaped :
    Spells ('\\' :: c :: p) text ↔ ∃ after, text = c :: after ∧ Spells p after := by
  constructor
  · intro h
    cases h with
    | escaped c h => exact ⟨_, rfl, h⟩
    | plain hc _ => exact absurd rfl hc.2.2
  · rintro ⟨after, rfl, h⟩
    exact .escaped c h

theorem spells_plain (hc : c ≠ '*' ∧ c ≠ '?' ∧ c ≠ '\\') :
    Spells (c :: p) text ↔ ∃ after, text = c :: after ∧ Spells p after := by
  constructor
  · intro h
    cases h with
    | plain _ h => exact ⟨_, rfl, h⟩
    | run => exact absurd rfl hc.1
    | any => exact absurd rfl hc.2.1
    | dangling | escaped => exact absurd rfl hc.2.2
  · rintro ⟨after, rfl, h⟩
    exact .plain hc h

end Spells

/-! ## Nodes of patterns -/

/-- The nodes for the items of a pattern. -/
def nodes : List Char → List Node
  | [] => []
  | '*' :: rest => .run :: nodes rest
  | '?' :: rest => .any :: nodes rest
  | ['\\'] => [.exactly '\\']
  | '\\' :: c :: rest => .exactly c :: nodes rest
  | c :: rest => .exactly c :: nodes rest

theorem nodes?_escape (c : Char) (rest : List Char) :
    nodes? (escape c ++ rest) = (nodes? rest).map (.exactly c :: ·) := by
  by_cases hc : c ∈ metaCharacters
  · simp [escape, hc, nodes?]
  · have hne : c ≠ '^' ∧ c ≠ '$' ∧ c ≠ '.' ∧ c ≠ '\\' := by
      refine ⟨?_, ?_, ?_, ?_⟩ <;> rintro rfl <;> exact hc (by decide)
    rw [escape, if_neg hc, List.singleton_append, nodes?,
      if_neg fun h => hc (List.mem_append_left _ h)]
    all_goals simp [hne]

theorem nodes?_any {rest : List Char} (h : rest.head? ≠ some '*') :
    nodes? ('.' :: rest) = (nodes? rest).map (.any :: ·) := by
  rw [nodes?]
  rintro rest' rfl
  exact h rfl

theorem head?_parts {p tail : List Char} (h : tail.head? ≠ some '*') :
    (parts p ++ tail).head? ≠ some '*' := by
  have hescape : ∀ (c : Char) (rest : List Char), (escape c ++ rest).head? ≠ some '*' := by
    intro c rest
    by_cases hc : c ∈ metaCharacters
    · simp [escape, hc]
    · rw [escape, if_neg hc]
      rintro ⟨⟩
      exact hc (by decide)
  cases p using parts.fun_cases with
  | case1 => exact h
  | case2 rest => simp [parts]
  | case3 rest => simp [parts]
  | case4 => exact hescape '\\' tail
  | case5 c rest =>
    rw [parts, List.append_assoc]
    exact hescape _ _
  | case6 c rest h1 h2 h3 h4 =>
    rw [parts, List.append_assoc]
    · exact hescape _ _
    all_goals assumption

theorem nodes?_parts (p : List Char) {tail : List Char} (h : tail.head? ≠ some '*') :
    nodes? (parts p ++ tail) = (nodes? tail).map (nodes p ++ ·) := by
  fun_induction parts p with
  | case1 => simp [nodes]
  | case2 rest ih => simp [nodes?, nodes, ih, Function.comp_def]
  | case3 rest ih =>
    rw [List.cons_append, nodes?_any (head?_parts h), ih, nodes, Option.map_map]
    rfl
  | case4 =>
    rw [nodes?_escape]
    rfl
  | case5 c rest ih =>
    rw [List.append_assoc, nodes?_escape, ih, nodes, Option.map_map]
    rfl
  | case6 c rest h1 h2 h3 h4 ih =>
    rw [List.append_assoc, nodes?_escape, ih, nodes, Option.map_map]
    · rfl
    all_goals assumption

theorem parse?_expression (pattern : String) :
    parse? (expression pattern) = some (.start :: (nodes pattern.toList ++ [.finish])) := by
  have hend : nodes? ['$'] = some [.finish] := rfl
  rw [parse?, expression, String.toList_ofList]
  change nodes? ('^' :: (parts pattern.toList ++ ['$'])) = _
  rw [nodes?, nodes?_parts _ (by decide), hend]
  rfl

/-! ## Matches -/

theorem starts_nodes (p before text : List Char) :
    Starts (nodes p ++ [.finish]) before text ↔ Spells p text := by
  fun_induction nodes p generalizing before text with
  | case1 => simp only [List.nil_append, Starts, and_true, spells_nil]
  | case2 rest ih => simp only [List.cons_append, Starts, ih, spells_run]
  | case3 rest ih => simp only [List.cons_append, Starts, ih, spells_any]
  | case4 =>
    simp only [List.singleton_append, Starts, and_true, spells_dangling, exists_eq_right]
  | case5 c rest ih => simp only [List.cons_append, Starts, ih, spells_escaped]
  | case6 c rest hrun hany hlast hescape ih =>
    have hc : c ≠ '*' ∧ c ≠ '?' ∧ c ≠ '\\' := by
      refine ⟨hrun, hany, ?_⟩
      rintro rfl
      cases rest with
      | nil => exact hlast rfl rfl
      | cons d rest => exact hescape d rest rfl rfl
    simp only [List.cons_append, Starts, ih, spells_plain hc]

theorem occurs_expression {p text : List Char} :
    Occurs (.start :: (nodes p ++ [.finish])) text ↔ Spells p text := by
  rw [← starts_nodes p [] text]
  constructor
  · rintro ⟨before, rest, rfl, h⟩
    obtain ⟨rfl, hnodes⟩ := h
    exact hnodes
  · exact fun h => ⟨[], text, rfl, rfl, h⟩

/-- **A pattern matches the texts that are cut along its items**, by any engine that takes its
expression and keeps to what expressions mean. -/
theorem matchesWith_iff {engine : Regex.Engine} (hengine : engine.IsFaithful)
    {pattern text : String} (h : (engine (expression pattern)).isSome = true) :
    matchesWith engine pattern text = true ↔ Spells pattern.toList text.toList := by
  obtain ⟨test, htest⟩ := Option.isSome_iff_exists.1 h
  unfold matchesWith
  rw [htest, ← occurs_expression]
  exact hengine htest (parse?_expression pattern) text

/-- A pattern with every sort of item, and a text with a line end in its run. -/
theorem matchesText_release : Regex.Engine.IsFaithful Regex.compile? ∧
    (Regex.compile? (expression "v?.\\**\\")).isSome = true ∧
    matchesText "v?.\\**\\" "v7.*(\n)\\" = true := by
  have hcompiles : (Regex.compile? (expression "v?.\\**\\")).isSome = true := by decide +kernel
  have hspells : Spells "v?.\\**\\".toList "v7.*(\n)\\".toList :=
    .plain (by decide) <| .any '7' <| .plain (by decide) <| .escaped '*' <|
      .run ['(', '\n', ')'] .dangling
  exact ⟨Regex.compile?_isFaithful, hcompiles,
    (matchesWith_iff Regex.compile?_isFaithful hcompiles).2 hspells⟩

end StatesLang.Wildcard
