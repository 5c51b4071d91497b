import Mathlib.Tactic.SplitIfs
import StatesLang.Builtin.Standard
import StatesLang.Proofs.Grammar.Call
import StatesLang.Proofs.Grammar.Names
import StatesLang.Proofs.Reach

/-!
# Paths as parameters

A path inside a call is read twice: first as a bare word, which takes the backslashes outside
brackets away, and then as a path.

* `Registry.evaluate_array`: the value of an array of one path.
* **`Path.keepsMeaning_iff`**: a path means inside a call what it means on its own exactly if no
  name behind a dot holds a reserved character, or neither reading leads anywhere.
-/

namespace StatesLang

/-! ## The value of an array of one path -/

/-- The expression for the array of one path. -/
def Call.arrayOf (text : String) : String :=
  "States.Array(" ++ text ++ ")"

theorem Call.parse_arrayOf {limit : Nat} (hlimit : 0 < limit) {text : String} {rest w : List Char}
    (htext : text.toList = '$' :: rest) (hw : Word rest w) :
    parse limit (arrayOf text) =
      .ok ⟨"States.Array", [.path (String.ofList ('$' :: w))]⟩ := by
  have hname : Word "States.Array".toList "States.Array".toList :=
    Unescaped.word (.of_plain (by decide))
  have hword : Word ('$' :: rest) ('$' :: w) := .plain (by decide) (by decide) hw
  have hspells : Spells (arrayOf text).toList
      [.word "States.Array".toList, .opening, .word ('$' :: w), .closing] := by
    have hlist : (arrayOf text).toList =
        "States.Array".toList ++ '(' :: (('$' :: rest) ++ [')']) := by
      simp [arrayOf, htext]
    rw [hlist]
    exact .word hname (by decide) (atDelimiter_cons.2 (by decide))
      (.opening (.word hword (List.cons_ne_nil _ _) (atDelimiter_cons.2 (by decide))
        (.closing .nil)))
  refine parse_eq_ok.2 ⟨⟨_, hspells, ?_⟩, hlimit⟩
  have hcall := CallText.applied "States.Array".toList (.one (.literal (.path w)))
  rwa [String.ofList_toList] at hcall

/-- The path is read as a bare word first, and then as a path. -/
theorem Registry.evaluate_array {limits : Settings.Calls} (hlimit : 0 < limits.maxNestingDepth)
    {text : String} {rest w : List Char} (htext : text.toList = '$' :: rest)
    (hw : Call.Word rest w) (hat : Path.AtStep w) (entropy : UInt64) (sources : Path.Sources) :
    (standard limits).evaluate entropy (Call.arrayOf text) sources =
      match Path.selectText sources.input (String.ofList ('$' :: w)) with
      | some v => .ok (.array [v])
      | none => .error (.failed (String.ofList ('$' :: w)) .missingPath) := by
  have hscoped : Path.scoped? (String.ofList ('$' :: w)) =
      some (.input, String.ofList ('$' :: w)) := by
    unfold Path.scoped?
    rw [String.toList_ofList]
    split
    · next he =>
      have hc := hat '$' (by rw [(List.cons.inj he).2]; rfl)
      exact absurd hc (by decide)
    · rfl
    · next hno => exact absurd rfl (hno w)
  have hfind : (standard limits).find? "States.Array" = some Builtin.makeArray := rfl
  rw [evaluate, show (standard limits).limits.maxNestingDepth = limits.maxNestingDepth from rfl,
    Call.parse_arrayOf hlimit htext hw]
  simp only [call]
  rw [show (standard limits).callDepth _ = 18 + 1 from rfl, invoke]
  simp only [Call.name, hfind, Builtin.makeArray, Handler.Scope.resolveAll, Call.params,
    Handler.Scope.resolveFrom, resolveParam, resolvePath, hscoped]
  cases h : Path.selectText sources.input (String.ofList ('$' :: w)) with
  | none => simp only [Path.Sources.select, Path.Sources.document, h]; rfl
  | some v => simp only [Path.Sources.select, Path.Sources.document, h]; rfl

/-! ## Meaning -/

namespace Path

/-- Inside a call a text identifies what it identifies on its own, in documents within a bound. -/
def KeepsMeaning (limits : Settings.Calls) (bound : Nat) (text : String) : Prop :=
  ∀ (entropy : UInt64) (sources : Sources), sources.IsWithin bound →
    (∀ v, (Registry.standard limits).evaluate entropy (Call.arrayOf text) sources =
        .ok (.array [v]) ↔ selectText sources.input text = some v) ∧
      ((∃ e, (Registry.standard limits).evaluate entropy (Call.arrayOf text) sources = .error e) ↔
        selectText sources.input text = none)

/-- A path whose names behind dots have a property of what is written and of what it says. -/
def HasNames (P : List Char → List Char → Prop) (p : Path) : Prop :=
  ∃ rest, p.text.toList = '$' :: rest ∧ EachName P rest p.steps

theorem keepsMeaning_of_word {limits : Settings.Calls} {bound : Nat} {text word : String}
    (h : ∀ entropy sources,
      (Registry.standard limits).evaluate entropy (Call.arrayOf text) sources =
        match selectText sources.input word with
        | some v => .ok (.array [v])
        | none => .error (.failed word .missingPath)) :
    KeepsMeaning limits bound text ↔ ∀ document : Json, document.IsWithin bound →
      selectText document word = selectText document text := by
  constructor
  · intro hkeeps document hd
    have hvalue := hkeeps 0 ⟨document, .null⟩ ⟨hd, .null⟩
    rw [h] at hvalue
    dsimp only at hvalue
    cases hword : selectText document word with
    | none =>
      rw [hword] at hvalue
      exact (hvalue.2.1 ⟨_, rfl⟩).symm
    | some v =>
      rw [hword] at hvalue
      exact ((hvalue.1 v).1 rfl).symm
  · intro hsame entropy sources hd
    rw [h, hsame _ hd.input]
    cases selectText sources.input text with
    | none => simp
    | some v => simp

/-- **A path means inside a call what it means on its own, exactly if no name behind a dot holds a
reserved character**, unless neither the path nor the word that it makes there leads anywhere in a
document within the bound. The value is that of the word. -/
theorem keepsMeaning_iff {text : String} {p : Path} (hp : parse text = .ok p)
    (hd : p.HasNames Undelimited) {limits : Settings.Calls} (hlimit : 0 < limits.maxNestingDepth) :
    ∃ w, Call.Word text.toList w ∧
      (∀ entropy sources,
        (Registry.standard limits).evaluate entropy (Call.arrayOf text) sources =
          match selectText sources.input (String.ofList w) with
          | some v => .ok (.array [v])
          | none => .error (.failed (String.ofList w) .missingPath)) ∧
      ∀ bound, KeepsMeaning limits bound text ↔
        p.HasNames Unreserved ∨
          (¬ p.IsWithin bound ∧ ∀ q, parse (String.ofList w) = .ok q → ¬ q.IsWithin bound) := by
  obtain ⟨rfl, _, _, hscan, _⟩ := parse_eq_ok.1 hp
  obtain ⟨rest, htext, hd⟩ := hd
  obtain ⟨w, hw, hat, honly⟩ := hd.of_stepsText_word
  have hvalue := Registry.evaluate_array hlimit htext hw hat
  have hword : Call.Word p.text.toList ('$' :: w) := htext ▸ .plain (by decide) (by decide) hw
  refine ⟨'$' :: w, hword, hvalue, fun bound => ?_⟩
  have hsays : Says (String.ofList ('$' :: w)).toList p.steps ↔ p.HasNames Unreserved := by
    rw [String.toList_ofList]
    constructor
    · rintro ⟨w', he, -, hs⟩
      rw [← (List.cons.inj he).2] at hs
      exact ⟨rest, htext, honly hs⟩
    · rintro ⟨rest', htext', hr⟩
      obtain rfl : rest = rest' := (List.cons.inj (htext.symm.trans htext')).2
      obtain ⟨w', hw', hs, hscan'⟩ := (hd.and hr).stepsText_word
      obtain rfl : w' = w := hw'.unique hw
      refine ⟨w', rfl, fun h => hscan ?_, hs⟩
      rw [List.infix_cons_iff, List.cons_prefix_cons] at h
      rw [htext]
      exact List.infix_cons_iff.2 (.inr (hscan' (h.resolve_left fun h => absurd h.1 (by decide))))
  rw [keepsMeaning_of_word hvalue, selectText_eq_iff hp, hsays]

/-- An escape of a character that is not reserved does no harm, and neither do delimiters inside
brackets. -/
theorem keepsMeaning_dashed : KeepsMeaning {} UInt64.size "$.a\\-b['x, y']" := by
  have hp : parse "$.a\\-b['x, y']" = .ok ⟨"$.a\\-b['x, y']", [.field "a-b", .field "x, y"]⟩ := by
    cbv
  have hname : PlainName ['a', '\\', '-', 'b'] ['a', '-', 'b'] :=
    .plain (by decide) (.escaped '-' (.plain (by decide) .nil))
  have hquoted : QuotedName '\'' ['x', ',', ' ', 'y'] ['x', ',', ' ', 'y'] :=
    .plain (by decide) (by decide) (.plain (by decide) (by decide)
      (.plain (by decide) (by decide) (.plain (by decide) (by decide) .nil)))
  have hnames : ∀ P : List Char → List Char → Prop, P ['a', '\\', '-', 'b'] ['a', '-', 'b'] →
      HasNames P ⟨"$.a\\-b['x, y']", [.field "a-b", .field "x, y"]⟩ := fun P hP =>
    ⟨_, rfl, .dotted hname (List.cons_ne_nil _ _) hP (.bracketed (.field (.inl rfl) hquoted) .nil)⟩
  have hlimit : 0 < ({} : Settings.Calls).maxNestingDepth := by decide
  obtain ⟨_, _, _, hkeeps⟩ := keepsMeaning_iff hp (hnames _ (by decide)) hlimit
  exact (hkeeps _).2 (.inl (hnames _ (by decide)))

/-- An escaped dot is lost, and the path leads elsewhere. -/
theorem escaped_dot_read_as_dot :
    ∃ p document, parse "$.a\\.b" = .ok p ∧ p.HasNames Undelimited ∧
      selectText document "$.a\\.b" = some (.number (.ofInt 1)) ∧
      (Registry.standard {}).evaluate 0 (Call.arrayOf "$.a\\.b") ⟨document, .null⟩ =
        .ok (.array [.number (.ofInt 2)]) := by
  have hname : PlainName ['a', '\\', '.', 'b'] ['a', '.', 'b'] :=
    .plain (by decide) (.escaped '.' (.plain (by decide) .nil))
  have hstep : EachName Undelimited ['.', 'a', '\\', '.', 'b'] [.field "a.b"] :=
    .dotted hname (List.cons_ne_nil _ _) (by decide) .nil
  have hword : Call.Word ['.', 'a', '\\', '.', 'b'] ['.', 'a', '.', 'b'] :=
    .plain (by decide) (by decide)
      (.plain (by decide) (by decide) (.escaped '.' (.plain (by decide) (by decide) .nil)))
  refine ⟨⟨"$.a\\.b", [.field "a.b"]⟩,
    .object [("a.b", .number (.ofInt 1)), ("a", .object [("b", .number (.ofInt 2))])],
    by cbv, ⟨_, rfl, hstep⟩, by cbv, ?_⟩
  rw [Registry.evaluate_array (by decide) rfl hword (fun c hc => .inl (by simpa using hc.symm))]
  cbv

end Path

end StatesLang
