import StatesLang.Builtin.Standard
import StatesLang.Proofs.Grammar.Balance
import StatesLang.Proofs.PathParameter
import StatesLang.Proofs.RoundTrip.Record
import StatesLang.Template.Render

/-!
# Templates and their check

The check looks at the dynamic members of a template one by one, and a template renders only if each
of them does.

* `Template.dynamicMembers`: the dynamic members that both the check and the rendering come to.
* `Template.problems_eq`, `Template.renderDynamic_of_render`: what either does with them.
* `Template.IsLooseContext`: paths into the context on which the two disagree, for the parentheses
  in their names (`Template.HasLooseNames`).
* **`Template.excludes_render_iff`**: a problem rules out every rendering, unless it is one with
  such a path.
-/

namespace StatesLang.Template

/-! ## Dynamic members -/

mutual

/-- The dynamic members of a template, in document order. -/
def dynamicMembers : Json → List (String × Json)
  | .object members => dynamicOfMembers members
  | .array items => dynamicOfItems items
  | _ => []

/-- The dynamic members inside the items of an array. -/
def dynamicOfItems : List Json → List (String × Json)
  | [] => []
  | item :: rest => dynamicMembers item ++ dynamicOfItems rest

/-- The dynamic members among and inside the members of an object. -/
def dynamicOfMembers : List (String × Json) → List (String × Json)
  | [] => []
  | (key, value) :: rest =>
    (match dynamicName? key with
      | some _ => [(key, value)]
      | none => dynamicMembers value) ++
      dynamicOfMembers rest

end

mutual

theorem dynamicName_of_mem : (t : Json) → ∀ m ∈ dynamicMembers t, (dynamicName? m.1).isSome = true
  | .object members => dynamicName_of_mem_members members
  | .array items => dynamicName_of_mem_items items
  | .null | .bool _ | .number _ | .string _ => nofun

theorem dynamicName_of_mem_items : (items : List Json) →
    ∀ m ∈ dynamicOfItems items, (dynamicName? m.1).isSome = true
  | [] => nofun
  | item :: rest => by
    intro m hm
    rcases List.mem_append.1 hm with hm | hm
    · exact dynamicName_of_mem item m hm
    · exact dynamicName_of_mem_items rest m hm

theorem dynamicName_of_mem_members : (members : List (String × Json)) →
    ∀ m ∈ dynamicOfMembers members, (dynamicName? m.1).isSome = true
  | [] => nofun
  | (key, value) :: rest => by
    intro m hm
    rcases List.mem_append.1 hm with hm | hm
    · split at hm
      · next name hname =>
        rw [List.mem_singleton.1 hm, hname]
        rfl
      · exact dynamicName_of_mem value m hm
    · exact dynamicName_of_mem_members rest m hm

end

/-! ## The check -/

section Check

variable (limit : Nat)

mutual

theorem problems_eq : (t : Json) →
    problems limit t = (dynamicMembers t).filterMap fun m => memberProblem? limit m.1 m.2
  | .object members => memberProblems_eq members
  | .array items => itemProblems_eq items
  | .null | .bool _ | .number _ | .string _ => rfl

theorem itemProblems_eq : (items : List Json) →
    itemProblems limit items =
      (dynamicOfItems items).filterMap fun m => memberProblem? limit m.1 m.2
  | [] => rfl
  | item :: rest => by
    rw [itemProblems, dynamicOfItems, List.filterMap_append, problems_eq item, itemProblems_eq rest]

theorem memberProblems_eq : (members : List (String × Json)) →
    memberProblems limit members =
      (dynamicOfMembers members).filterMap fun m => memberProblem? limit m.1 m.2
  | [] => rfl
  | (key, value) :: rest => by
    rw [memberProblems, dynamicOfMembers, List.filterMap_append, memberProblems_eq rest]
    cases dynamicName? key with
    | none => rw [problems_eq value]
    | some name => cases h : memberProblem? limit key value <;> simp [h]

end

end Check

/-! ## Rendering -/

section Rendering

variable {r : Registry} {sources : Path.Sources}

mutual

theorem renderDynamic_of_render : (t : Json) → {entropy : UInt64} → {v : Json} →
    render r entropy sources t = .ok v →
      ∀ m ∈ dynamicMembers t, ∃ inner w, renderDynamic r inner sources m.1 m.2 = .ok w
  | .object members, _, _, h => by
    rw [render] at h
    obtain ⟨vs, hvs, -⟩ := Decode.map_eq_ok.1 h
    exact renderDynamic_of_renderMembers members hvs
  | .array items, _, _, h => by
    rw [render] at h
    obtain ⟨vs, hvs, -⟩ := Decode.map_eq_ok.1 h
    exact renderDynamic_of_renderItems items hvs
  | .null, _, _, _ | .bool _, _, _, _ | .number _, _, _, _ | .string _, _, _, _ => nofun

theorem renderDynamic_of_renderItems : (items : List Json) → {entropy : UInt64} →
    {position : Nat} → {vs : List Json} → renderItems r entropy sources position items = .ok vs →
      ∀ m ∈ dynamicOfItems items, ∃ inner w, renderDynamic r inner sources m.1 m.2 = .ok w
  | [], _, _, _, _ => nofun
  | item :: rest, _, _, _, h => by
    rw [renderItems, Decode.bind_eq_ok] at h
    obtain ⟨v, hv, h⟩ := h
    obtain ⟨vs, hvs, -⟩ := Decode.bind_eq_ok.1 h
    intro m hm
    rcases List.mem_append.1 hm with hm | hm
    · exact renderDynamic_of_render item hv m hm
    · exact renderDynamic_of_renderItems rest hvs m hm

theorem renderDynamic_of_renderMembers : (members : List (String × Json)) → {entropy : UInt64} →
    {before after : List (String × Json)} →
      renderMembers r entropy sources before members = .ok after →
      ∀ m ∈ dynamicOfMembers members, ∃ inner w, renderDynamic r inner sources m.1 m.2 = .ok w
  | [], _, _, _, _ => nofun
  | (key, value) :: rest, _, _, _, h => by
    rw [renderMembers] at h
    intro m hm
    rcases List.mem_append.1 hm with hm | hm
    · split at hm
      · next name hname =>
        rw [hname] at h
        obtain ⟨v, hv, -⟩ := Decode.bind_eq_ok.1 h
        rw [List.mem_singleton.1 hm]
        exact ⟨_, v, hv⟩
      · next hname =>
        rw [hname] at h
        obtain ⟨v, hv, -⟩ := Decode.bind_eq_ok.1 h
        exact renderDynamic_of_render value hv m hm
    · cases hname : dynamicName? key with
      | some name =>
        rw [hname] at h
        obtain ⟨v, -, h⟩ := Decode.bind_eq_ok.1 h
        exact renderDynamic_of_renderMembers rest h m hm
      | none =>
        rw [hname] at h
        obtain ⟨v, -, h⟩ := Decode.bind_eq_ok.1 h
        exact renderDynamic_of_renderMembers rest h m hm

end

end Rendering

/-! ## Paths into the context -/

open StatesLang.Path (Says DottedNames Paired bare isBalanced)

/-- A path into the context that leads somewhere in a document within the bound, and whose text
behind the roots is not balanced. -/
def IsLooseContext (bound : Nat) (expression : String) : Prop :=
  ∃ rest steps, expression.toList = '$' :: '$' :: rest ∧ Says ('$' :: rest) steps ∧
    (∀ s ∈ steps, s.IsWithin bound) ∧ isBalanced 0 none rest = false

/-- The same, said of its names: the parentheses in them do not pair up. -/
def HasLooseNames (bound : Nat) (expression : String) : Prop :=
  ∃ rest steps raws, expression.toList = '$' :: '$' :: rest ∧ Says ('$' :: rest) steps ∧
    (∀ s ∈ steps, s.IsWithin bound) ∧ DottedNames rest raws ∧ ¬ Paired (raws.flatMap bare)

section Context

variable {bound : Nat} {expression : String} {rest : List Char}

/-- Brackets of a path are balanced, so that only its names can be to blame. -/
theorem isLooseContext_iff (hshort : expression.length < Path.countLimit) :
    IsLooseContext bound expression ↔ HasLooseNames bound expression := by
  have hrest : ∀ rest, expression.toList = '$' :: '$' :: rest → rest.length < Path.countLimit := by
    intro rest he
    rw [← String.length_toList, he, List.length_cons, List.length_cons] at hshort
    omega
  constructor
  · rintro ⟨rest, steps, he, hsays, hwithin, hloose⟩
    have ⟨_, hroot, _, hsteps⟩ := hsays
    obtain ⟨raws, hraws⟩ := hsteps.exists_dottedNames
    rw [← (List.cons.inj hroot).2] at hraws
    refine ⟨rest, steps, raws, he, hsays, hwithin, hraws, ?_⟩
    rw [← Path.isBalanced_iff_paired hraws (hrest rest he), hloose]
    exact Bool.false_ne_true
  · rintro ⟨rest, steps, raws, he, hsays, hwithin, hraws, hnot⟩
    refine ⟨rest, steps, he, hsays, hwithin, ?_⟩
    rwa [← Path.isBalanced_iff_paired hraws (hrest rest he), Bool.not_eq_true] at hnot

theorem selectText_of_isPath {text : String} (h : Path.isPath text = false) (document : Json) :
    Path.selectText document text = none := by
  unfold Path.selectText
  split
  · next p hp => exact absurd hp (Path.isPath_eq_false.1 h p)
  · rfl

theorem isPath_context (he : expression.toList = '$' :: '$' :: rest) :
    Path.isPath expression = false := by
  refine Path.isPath_eq_false.2 fun p hp => ?_
  -- no step starts with a second root
  obtain ⟨-, rest', hrest, -, hsteps⟩ := Path.parse_eq_ok.1 hp
  rw [he, List.cons.injEq] at hrest
  have hstart := hsteps.atStep '$' (by rw [← hrest.2]; rfl)
  exact absurd hstart (by decide)

/-- The check takes the expression with both its roots, as which it is no reference path. -/
theorem isLenient_context (he : expression.toList = '$' :: '$' :: rest) :
    Path.isLenient expression = isBalanced 0 none rest := by
  rw [Path.isLenient, isPath_context he, he, Path.isBalanced_root, Path.isBalanced_root]
  rfl

theorem renderExpression_context (he : expression.toList = '$' :: '$' :: rest) (r : Registry)
    (entropy : UInt64) (sources : Path.Sources) :
    renderExpression r entropy sources expression =
      match Path.selectText sources.context (String.ofList ('$' :: rest)) with
      | some value => .ok value
      | none => .error (.missingPath expression) := by
  rw [renderExpression, Path.scoped?, he]
  rfl

end Context

/-- A problem that the check finds in such a path. -/
def Problem.Misjudges (bound : Nat) : Problem → Prop
  | .notPath key expression => (dynamicName? key).isSome = true ∧ IsLooseContext bound expression
  | _ => False

theorem memberProblem_of_isLooseContext {bound : Nat} {expression : String}
    (h : IsLooseContext bound expression) (limit : Nat) (key : String) :
    memberProblem? limit key (.string expression) = some (.notPath key expression) := by
  obtain ⟨rest, steps, he, -, -, hunbalanced⟩ := h
  have hpath : isPathExpression expression = true := by simp [isPathExpression, he]
  simp [memberProblem?, hpath, isLenient_context he, hunbalanced]

theorem exists_renderExpression_of_isLooseContext {bound : Nat} {expression : String}
    (h : IsLooseContext bound expression) :
    ∃ context v : Json, context.IsWithin bound ∧ ∀ (r : Registry) entropy input,
      renderExpression r entropy ⟨input, context⟩ expression = .ok v := by
  obtain ⟨rest, steps, he, hsays, hwithin, -⟩ := h
  have hparse : Path.parse (String.ofList ('$' :: rest)) =
      .ok ⟨String.ofList ('$' :: rest), steps⟩ :=
    Path.parse_eq_ok.2 ⟨rfl, by rwa [String.toList_ofList]⟩
  obtain ⟨context, v, hd, hv⟩ := Path.exists_follow_iff.2 hwithin
  refine ⟨context, v, hd, fun r entropy input => ?_⟩
  rw [renderExpression_context he, Path.selectText_of_parse hparse, hv]

/-! ## Problems -/

/-- Behind its first root a path into the context that the check refuses leads nowhere, but for this
exception. -/
theorem selectText_of_not_isLooseContext {bound : Nat} {expression : String} {rest : List Char}
    (he : expression.toList = '$' :: '$' :: rest) (hrefused : Path.isLenient expression = false)
    (hnot : ¬ IsLooseContext bound expression) {context : Json} (hd : context.IsWithin bound) :
    Path.selectText context (String.ofList ('$' :: rest)) = none := by
  refine Option.eq_none_iff_forall_ne_some.2 fun v hv => hnot ?_
  obtain ⟨p, hp, hfollow⟩ := Path.selectText_eq_some_iff.1 hv
  have hsays := (Path.parse_eq_ok.1 hp).2
  rw [String.toList_ofList] at hsays
  exact ⟨rest, p.steps, he, hsays, Path.isWithin_of_follow hd hfollow,
    (isLenient_context he).symm.trans hrefused⟩

theorem scoped_input {expression : String} {cs : List Char} (he : expression.toList = '$' :: cs)
    (hcs : cs.head? ≠ some '$') : Path.scoped? expression = some (.input, expression) := by
  unfold Path.scoped?
  rw [he]
  split
  · next h => exact absurd (by rw [(List.cons.inj h).2]; rfl) hcs
  · rfl
  · next h => exact absurd rfl (h cs)

theorem renderExpression_of_not_isLenient {bound : Nat} {expression : String}
    (hpath : isPathExpression expression = true) (hrefused : Path.isLenient expression = false)
    (hnot : ¬ IsLooseContext bound expression) (r : Registry) (entropy : UInt64)
    {sources : Path.Sources} (hd : sources.IsWithin bound) :
    renderExpression r entropy sources expression = .error (.missingPath expression) := by
  obtain ⟨cs, he⟩ := List.head?_eq_some_iff.1 (beq_iff_eq.1 hpath)
  by_cases hcontext : cs.head? = some '$'
  · obtain ⟨rest, rfl⟩ := List.head?_eq_some_iff.1 hcontext
    rw [renderExpression_context he,
      selectText_of_not_isLooseContext he hrefused hnot hd.context]
  · have hpathless : Path.isPath expression = false := by
      rw [Path.isLenient, he] at hrefused
      exact (Bool.or_eq_false_iff.1 hrefused).1
    rw [renderExpression, scoped_input he hcontext]
    simp only [Path.Sources.select, selectText_of_isPath hpathless]

theorem renderDynamic_of_memberProblem {limit bound : Nat} {key : String} {value : Json}
    {p : Problem} (hp : memberProblem? limit key value = some p)
    (hkey : (dynamicName? key).isSome = true) (hnot : ¬ p.Misjudges bound) {r : Registry}
    (hlimit : r.limits.maxNestingDepth = limit) (entropy : UInt64) {sources : Path.Sources}
    (hd : sources.IsWithin bound) :
    ∃ e, renderDynamic r entropy sources key value = .error e := by
  cases value with
  | string expression =>
    rw [memberProblem?] at hp
    rw [renderDynamic]
    split_ifs at hp with hpath hlenient
    · cases hp
      refine ⟨_, renderExpression_of_not_isLenient hpath (by simpa using hlenient)
        (fun h => hnot ⟨hkey, h⟩) r entropy hd⟩
    · split at hp
      · cases hp
      · next d hparse =>
        have hscoped : Path.scoped? expression = none := by
          unfold Path.scoped?
          split
          · next he => simp [isPathExpression, he] at hpath
          · next he => simp [isPathExpression, he] at hpath
          · rfl
        refine ⟨.call (.malformed expression d), ?_⟩
        rw [renderExpression, hscoped]
        simp only [Registry.evaluate, hlimit, hparse]
        rfl
  | _ => exact ⟨_, rfl⟩

/-- **A problem of a template rules out that it renders**, with whatever documents within the bound
and with whatever functions, if it is not one that the check misjudges; and only then, as the path
is all that need be in the template. Unless the path is so long that the count of its brackets can
wrap around, the parentheses in its names are to blame. -/
theorem excludes_render_iff (limit bound : Nat) (p : Problem) :
    ((∀ t, p ∈ problems limit t → ∀ (r : Registry), r.limits.maxNestingDepth = limit →
      ∀ entropy (sources : Path.Sources), sources.IsWithin bound →
        ∃ e, render r entropy sources t = .error e) ↔ ¬ p.Misjudges bound) ∧
    ∀ key expression, p = .notPath key expression → expression.length < Path.countLimit →
      (p.Misjudges bound ↔
        (dynamicName? key).isSome = true ∧ HasLooseNames bound expression) := by
  refine ⟨⟨fun h hmis => ?_, fun hnot t hp r hlimit entropy sources hd => ?_⟩, ?_⟩
  · obtain ⟨key, expression, rfl⟩ : ∃ key expression, p = .notPath key expression := by
      cases p with
      | notPath key expression => exact ⟨key, expression, rfl⟩
      | notText | notCall => exact hmis.elim
    obtain ⟨hkey, hloose⟩ := hmis
    obtain ⟨name, hname⟩ := Option.isSome_iff_exists.1 hkey
    obtain ⟨context, v, hd, hv⟩ := exists_renderExpression_of_isLooseContext hloose
    have hproblem :
        .notPath key expression ∈ problems limit (.object [(key, .string expression)]) := by
      rw [problems_eq]
      simp [dynamicMembers, dynamicOfMembers, hname, memberProblem_of_isLooseContext hloose]
    obtain ⟨e, he⟩ :=
      h _ hproblem ⟨[], { maxNestingDepth := limit }⟩ rfl 0 ⟨.null, context⟩ ⟨.null, hd⟩
    rw [render, renderMembers, hname] at he
    simp only [renderDynamic, hv, renderMembers] at he
    cases he
  · rw [problems_eq, List.mem_filterMap] at hp
    obtain ⟨m, hm, hproblem⟩ := hp
    cases hrender : render r entropy sources t with
    | error e => exact ⟨e, rfl⟩
    | ok v =>
      obtain ⟨inner, w, hw⟩ := renderDynamic_of_render t hrender m hm
      obtain ⟨e, he⟩ := renderDynamic_of_memberProblem hproblem (dynamicName_of_mem t m hm) hnot
        hlimit inner hd
      rw [hw] at he
      cases he
  · rintro key expression rfl hshort
    exact and_congr_right' (isLooseContext_iff hshort)

/-- A parenthesis in the name of a member of the context is taken for one that opens a group. -/
theorem context_path_misjudged :
    ∃ sources, problems 32 (.object [("x.$", .string "$$.a(b")]) = [.notPath "x.$" "$$.a(b"] ∧
      ∀ r entropy, render r entropy sources (.object [("x.$", .string "$$.a(b")]) =
        .ok (.object [("x", .number (.ofInt 1))]) := by
  refine ⟨⟨.object [], .object [("a(b", .number (.ofInt 1))]⟩, by decide +kernel,
    fun r entropy => ?_⟩
  have hname : dynamicName? "x.$" = some "x" := by cbv
  have hselect : Path.selectText (.object [("a(b", .number (.ofInt 1))])
      (String.ofList ['$', '.', 'a', '(', 'b']) = some (.number (.ofInt 1)) := by cbv
  rw [render, renderMembers, hname]
  simp only [renderDynamic, @renderExpression_context "$$.a(b" ['.', 'a', '(', 'b'] rfl, hselect]
  rfl

end StatesLang.Template
