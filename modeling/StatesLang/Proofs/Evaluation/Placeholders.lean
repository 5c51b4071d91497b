import StatesLang.Proofs.Evaluation.Format

/-!
# Placeholders and arguments

The pieces of a template lie between its placeholders, which can also be found without cutting the
template: they are the places of `{}` at which no escape is open.

* `Format.placeholders`: the places of the placeholders of a template.
* `Format.Cut.length_eq`: a template has one piece more than placeholders.
* **`Builtin.format_succeeds_iff`**: a template can be filled in exactly if each placeholder has an
  argument, each argument a placeholder, and each argument a text.
-/

namespace StatesLang

namespace Format

/-! ## Placeholders -/

/-- Whether an escape is open behind a character, where it is known before it. A backslash opens one
and the next character closes it. -/
def isOpenBehind (opened : Bool) (c : Char) : Bool :=
  !opened && c == '\\'

/-- The places of the placeholders in a text, where an escape may be open before it. -/
def placeholdersFrom (opened : Bool) (cs : List Char) : List Nat :=
  (List.range cs.length).filter fun i =>
    !(cs.take i).foldl isOpenBehind opened && ['\x7b', '\x7d'].isPrefixOf (cs.drop i)

/-- The places of the placeholders of a template: each `{}` at which no escape is open. -/
def placeholders (template : List Char) : List Nat :=
  placeholdersFrom false template

theorem length_placeholdersFrom_cons (opened : Bool) (c : Char) (cs : List Char) :
    (placeholdersFrom opened (c :: cs)).length =
      (placeholdersFrom (isOpenBehind opened c) cs).length +
        if opened = false ∧ c = '\x7b' ∧ cs.head? = some '\x7d' then 1 else 0 := by
  have hfirst : (!opened && ['\x7b', '\x7d'].isPrefixOf (c :: cs)) = true ↔
      opened = false ∧ c = '\x7b' ∧ cs.head? = some '\x7d' := by
    cases cs <;> simp [@eq_comm _ c, @eq_comm _ _ '\x7d']
  rw [placeholdersFrom, List.length_cons, List.range_succ_eq_map, List.filter_cons]
  simp only [List.take_zero, List.foldl_nil, List.drop_zero, hfirst, List.filter_map]
  split
  · rw [List.length_cons, List.length_map]
    rfl
  · rw [List.length_map]
    rfl

theorem Cut.length_eq {template : List Char} {ls : List (List Char)} (h : Cut template ls) :
    ls.length = (placeholders template).length + 1 := by
  unfold placeholders
  induction h with
  | done => rfl
  | dangling => rfl
  | escaped c _ ih =>
    rw [length_placeholdersFrom_cons, length_placeholdersFrom_cons]
    simpa [isOpenBehind] using ih
  | placeholder _ ih =>
    rw [length_placeholdersFrom_cons, length_placeholdersFrom_cons]
    simpa [isOpenBehind] using ih
  | @plain c rest _ _ hc hno _ ih =>
    have hnot : ¬ (c = '\x7b' ∧ rest.head? = some '\x7d') := fun h => hno h.1 h.2
    rw [length_placeholdersFrom_cons]
    simpa [isOpenBehind, beq_eq_false_iff_ne.2 hc, hnot] using ih

/-! ## Arguments -/

/-- A value that is a text, a number, a truth value or null. -/
inductive IsScalar : Json → Prop
  | string (s : String) : IsScalar (.string s)
  | number (n : Json.Number) : IsScalar (.number n)
  | bool (b : Bool) : IsScalar (.bool b)
  | null : IsScalar .null

theorem isScalar_iff {a : Json} : IsScalar a ↔ (scalarText? a).isSome = true := by
  constructor
  · rintro ⟨⟩
    case bool b => cases b <;> rfl
    all_goals rfl
  · intro h
    cases a with
    | string s => exact .string s
    | number n => exact .number n
    | bool b => exact .bool b
    | null => exact .null
    | array | object => cases h

theorem exists_texts_iff {args : List Json} :
    (∃ texts : List (List Char), args.map scalarText? = texts.map some) ↔
      ∀ a ∈ args, IsScalar a := by
  simp only [isScalar_iff]
  constructor
  · rintro ⟨texts, h⟩ a ha
    have hmem : scalarText? a ∈ texts.map some := h ▸ List.mem_map_of_mem ha
    obtain ⟨text, -, htext⟩ := List.mem_map.1 hmem
    rw [← htext, Option.isSome_some]
  · intro h
    refine ⟨args.map fun a => (scalarText? a).getD [], ?_⟩
    rw [List.map_map]
    refine List.map_congr_left fun a ha => ?_
    obtain ⟨text, htext⟩ := Option.isSome_iff_exists.1 (h a ha)
    simp [htext]

theorem exists_fills_iff {template : List Char} {ls : List (List Char)} {args : List Json}
    (h : Cut template ls) : (∃ out, Fills ls args out) ↔
      (placeholders template).length = args.length ∧ ∀ a ∈ args, IsScalar a := by
  rw [← exists_texts_iff]
  have hlength := h.length_eq
  constructor
  · rintro ⟨_, texts, htexts, hgaps, -⟩
    have hargs := congrArg List.length htexts
    rw [List.length_map, List.length_map] at hargs
    exact ⟨by omega, texts, htexts⟩
  · rintro ⟨hcount, texts, htexts⟩
    have hargs := congrArg List.length htexts
    rw [List.length_map, List.length_map] at hargs
    exact ⟨_, texts, htexts, by omega, rfl⟩

end Format

namespace Builtin

open Format (IsScalar placeholders)

theorem format_ne_ok {c : Call} {s : Handler.Scope} {values : List Json} {v : Json}
    (h : s.resolveAll c = .ok values) (hno : ∀ template args, values ≠ .string template :: args) :
    format c s ≠ .ok v := by
  have hlength := Handler.Scope.length_of_resolveFrom h
  unfold format arguments
  cases values with
  | nil => simp [takes, ← hlength, fail, bind, Except.bind]
  | cons first args =>
    rw [if_pos (by simp [takes, ← hlength]), h]
    cases first with
    | string template => exact absurd rfl (hno template args)
    | _ => simp [string, fail, bind, Except.bind]

/-- **A call succeeds exactly if its first value is a template with a placeholder for each of the
other values, and no more, and these are texts, numbers, truth values or null.** -/
theorem format_succeeds_iff {c : Call} {s : Handler.Scope} {values : List Json}
    (h : s.resolveAll c = .ok values) : (∃ v, format c s = .ok v) ↔
      ∃ template args, values = .string template :: args ∧
        (placeholders template.toList).length = args.length ∧ ∀ a ∈ args, IsScalar a := by
  constructor
  · rintro ⟨v, hv⟩
    by_cases hvalues : ∃ template args, values = .string template :: args
    · obtain ⟨template, args, rfl⟩ := hvalues
      obtain ⟨ls, hcut⟩ := Format.exists_cut template.toList
      obtain ⟨out, hfills, -⟩ := (format_eq_ok h hcut).1 hv
      exact ⟨template, args, rfl, (Format.exists_fills_iff hcut).1 ⟨out, hfills⟩⟩
    · exact absurd hv (format_ne_ok h fun template args heq => hvalues ⟨template, args, heq⟩)
  · rintro ⟨template, args, rfl, hscalar⟩
    obtain ⟨ls, hcut⟩ := Format.exists_cut template.toList
    obtain ⟨out, hfills⟩ := (Format.exists_fills_iff hcut).2 hscalar
    exact ⟨_, (format_eq_ok h hcut).2 ⟨out, hfills, rfl⟩⟩

/-- An escaped brace and a brace alone are no placeholders, and a placeholder may stand right behind
them. -/
theorem format_succeeds_between :
    bare.resolveAll (formatted "\\\x7b\x7d\x7b\x7b\x7d" "a") =
        .ok [.string "\\\x7b\x7d\x7b\x7b\x7d", .string "a"] ∧
      placeholders "\\\x7b\x7d\x7b\x7b\x7d".toList = [4] ∧
      ∃ v, format (formatted "\\\x7b\x7d\x7b\x7b\x7d" "a") bare = .ok v := by
  have hvalues : bare.resolveAll (formatted "\\\x7b\x7d\x7b\x7b\x7d" "a") =
      .ok [.string "\\\x7b\x7d\x7b\x7b\x7d", .string "a"] := by decide +kernel
  have hplaces : placeholders "\\\x7b\x7d\x7b\x7b\x7d".toList = [4] := by decide +kernel
  refine ⟨hvalues, hplaces, (format_succeeds_iff hvalues).2 ⟨_, _, rfl, ?_, ?_⟩⟩
  · rw [hplaces]
    rfl
  · simpa using IsScalar.string "a"

end Builtin

end StatesLang
