import StatesLang.Proofs.WellFormed.Rules
import StatesLang.Validation.Reachability

/-!
# What the check of a definition finds

The check of each part of a definition finds nothing exactly if the part keeps its rules.

* `Validation.templateProblems_eq_nil`, `conditionProblems_eq_nil`, `recoveryProblems_eq_nil`: parts
  of states.
* `Validation.stateProblems_eq_nil`: a state, up to the graphs inside it.
* `Validation.graphProblems_eq_nil_iff`: a graph with all graphs inside it.
* **`Validation.structureProblems_eq_nil_iff`**: a definition.
-/

namespace StatesLang

/-! ## Names and texts -/

@[simp]
theorem Graph.contains_iff {g : Graph} {name : String} :
    g.contains name = true ↔ g.Names name := by
  have hlookup : ∀ states : List (String × State),
      (Graph.lookup name states).isSome = true ↔ ∃ s, (name, s) ∈ states := by
    intro states
    induction states with
    | nil => simp [Graph.lookup]
    | cons t rest ih =>
      obtain ⟨n, s⟩ := t
      by_cases hn : n = name
      · simp [Graph.lookup, hn]
      · simp [Graph.lookup, hn, ih, Ne.symm hn]
  exact hlookup g.states

@[simp]
theorem Path.isPath_iff {text : String} : Path.isPath text = true ↔ Path.IsReference text := by
  unfold Path.isPath Path.IsReference
  cases Path.parse text <;> simp

theorem Path.readsContext_iff {text : String} :
    Path.ReadsContext text ↔ ∃ path, Path.scoped? text = some (.context, path) := by
  unfold Path.ReadsContext Path.scoped?
  split
  · next he => simp [he]
  · next hno he =>
    refine iff_of_false ?_ (by simp)
    rintro ⟨rest, hrest⟩
    exact hno rest (List.cons.inj (he.symm.trans hrest.symm)).2
  · next hno =>
    refine iff_of_false ?_ (by simp)
    rintro ⟨rest, hrest⟩
    exact hno ('$' :: rest) hrest.symm

namespace Validation

variable {settings : Settings.Validation} {g : Graph} {place : Place} {depth : Nat}

/-! ## Fields -/

@[simp]
theorem problemIf_eq_nil {condition : Prop} [Decidable condition] {d : Defect} :
    problemIf condition place d = [] ↔ ¬ condition := by
  unfold problemIf
  split <;> simp_all

@[simp]
theorem targetProblems_eq_nil {field name : String} :
    targetProblems g place field name = [] ↔ g.Names name := by
  simp [targetProblems]

section Fields

variable {field : String}

@[simp]
theorem positiveProblems_eq_nil {o : Option Int64} :
    positiveProblems place field o = [] ↔ ∀ n ∈ o, 0 < n := by
  cases o <;> simp [positiveProblems]

@[simp]
theorem negativeProblems_eq_nil {o : Option Int64} :
    negativeProblems place field o = [] ↔ ∀ n ∈ o, 0 ≤ n := by
  cases o <;> simp [negativeProblems]

@[simp]
theorem referenceProblems_eq_nil {o : Option String} :
    referenceProblems place field o = [] ↔ ∀ text ∈ o, Path.IsReference text := by
  cases o with
  | none => simp [referenceProblems]
  | some text =>
    simp only [referenceProblems, Path.IsReference, Option.mem_some_iff, forall_eq']
    cases Path.parse text <;> simp

@[simp]
theorem pathProblems_eq_nil {o : Option String} :
    pathProblems place field o = [] ↔ ∀ text ∈ o, Path.isLenient text = true := by
  cases o <;> simp [pathProblems]

@[simp]
theorem exclusiveProblems_eq_nil {α β : Type} {first second : String} {a : Option α}
    {b : Option β} :
    exclusiveProblems place first second a.isSome b.isSome = [] ↔ a = none ∨ b = none := by
  cases a <;> cases b <;> simp [exclusiveProblems]

@[simp]
theorem resultPathProblems_eq_nil {p : OptionalPath} :
    resultPathProblems place p = [] ↔ ∀ text ∈ p.path?, Path.IsReference text :=
  referenceProblems_eq_nil

@[simp]
theorem scopeProblems_eq_nil {s : State.Scope} :
    scopeProblems place s = [] ↔ s.WellFormed := by
  rw [scopeProblems, List.append_eq_nil_iff, pathProblems_eq_nil, pathProblems_eq_nil,
    State.Scope.wellFormed_iff]

theorem isBelow_one_eq_false {x : Extended} :
    x.isBelow Binary64.one = false ↔ (x ≠ .notANumber → x.IsAtLeastOne) := by
  cases x <;> simp [Extended.isBelow, Extended.IsAtLeastOne]

@[simp]
theorem backoffProblems_eq_nil {o : Option Extended} :
    backoffProblems place o = [] ↔ ∀ x ∈ o, x ≠ .notANumber → x.IsAtLeastOne := by
  cases o <;> simp [backoffProblems, isBelow_one_eq_false]

@[simp]
theorem timestampProblems_eq_nil {o : Option String} :
    timestampProblems place o = [] ↔ ∀ text ∈ o, ∃ t, Timestamp.parse? text = some t := by
  cases o <;> simp [timestampProblems, Option.ne_none_iff_exists']

theorem isDynamic_iff {text : String} :
    isDynamic settings text = true ↔
      State.Fail.IsDynamic settings.maxIntrinsicDepth text := by
  unfold isDynamic State.Fail.IsDynamic Call.IsCall
  cases Path.scoped? text with
  | none => cases Call.parse settings.maxIntrinsicDepth text <;> simp
  | some p => simp [Prod.ext_iff]

@[simp]
theorem dynamicProblems_eq_nil {o : Option String} :
    dynamicProblems settings place field o = [] ↔
      ∀ text ∈ o, State.Fail.IsDynamic settings.maxIntrinsicDepth text := by
  cases o with
  | none => simp [dynamicProblems]
  | some text => simp [dynamicProblems, isDynamic_iff]

end Fields

/-! ## Templates -/

theorem memberProblem_eq_none {limit : Nat} {key : String} {value : Json} :
    Template.memberProblem? limit key value = none ↔
      ∃ expression, value = .string expression ∧ Template.IsExpression limit expression := by
  cases value with
  | string expression =>
    simp only [Template.memberProblem?, Template.IsExpression, Call.IsCall, Json.string.injEq,
      exists_eq_left']
    split
    · simp
    · cases Call.parse limit expression <;> simp
  | _ => simp [Template.memberProblem?]

@[simp]
theorem templateProblems_eq_nil {field : String} {o : Option Json} :
    templateProblems settings place field o = [] ↔
      ∀ t ∈ o, Template.WellFormed settings.maxIntrinsicDepth t := by
  cases o with
  | none => simp [templateProblems]
  | some t =>
    simp only [templateProblems, List.map_eq_nil_iff, Template.problems_eq,
      List.filterMap_eq_nil_iff, memberProblem_eq_none, Template.WellFormed, Option.mem_some_iff,
      forall_eq']

@[simp]
theorem workProblems_eq_nil {w : State.Work} :
    workProblems settings place w = [] ↔ w.WellFormed settings.maxIntrinsicDepth := by
  simp only [workProblems, List.append_eq_nil_iff, resultPathProblems_eq_nil,
    templateProblems_eq_nil, State.Work.wellFormed_iff, and_assoc]

/-! ## Conditions -/

@[simp]
theorem operandProblems_eq_nil {path : String} :
    operandProblems place path = [] ↔ Condition.IsOperand path := by
  unfold operandProblems Condition.IsOperand
  rw [Path.readsContext_iff]
  split
  · next he => simp [he]
  · next hno =>
    rw [problemIf_eq_nil, Bool.not_eq_false, and_iff_right]
    rintro ⟨path', he⟩
    exact hno path' he

@[simp]
theorem variableProblems_eq_nil {path : String} :
    variableProblems place path = [] ↔ Condition.IsVariable path := by
  unfold variableProblems Condition.IsVariable Condition.IsOperand
  rw [Path.readsContext_iff]
  split
  · next rest he =>
    have hne : path ≠ "" := by
      rintro rfl
      cases he
    simp [he, hne]
  · next hno =>
    have hinput : ¬ ∃ path', Path.scoped? path = some (.context, path') := by
      rintro ⟨path', he⟩
      exact hno path' he
    rw [problemIf_eq_nil, and_iff_right hinput, Decidable.not_and_iff_not_or_not,
      Decidable.not_not, Bool.not_eq_false]

mutual

theorem conditionProblems_eq_nil : (c : Condition) →
    (conditionProblems place c = [] ↔ c.WellFormed)
  | .compare path op expected => by
    rw [conditionProblems, variableProblems_eq_nil]
    refine ⟨fun h p hp => ?_, fun h => h _ (.self _)⟩
    cases hp
    exact h
  | .test path t expected => by
    rw [conditionProblems, variableProblems_eq_nil]
    refine ⟨fun h p hp => ?_, fun h => h _ (.self _)⟩
    cases hp
    exact h
  | .comparePath path op kind expectedPath => by
    simp only [conditionProblems, List.append_eq_nil_iff, variableProblems_eq_nil,
      problemIf_eq_nil, operandProblems_eq_nil, and_assoc]
    refine ⟨fun h p hp => ?_, fun h => h _ (.self _)⟩
    cases hp
    exact h
  | .and children => by
    rw [conditionProblems, List.append_eq_nil_iff, problemIf_eq_nil, List.isEmpty_iff,
      conditionListProblems_eq_nil children]
    refine ⟨fun h p hp => ?_, fun h => ⟨h _ (.self _), fun c hc p hp => h p (.and hc hp)⟩⟩
    cases hp with
    | self => exact h.1
    | and hc hp => exact h.2 _ hc p hp
  | .or children => by
    rw [conditionProblems, List.append_eq_nil_iff, problemIf_eq_nil, List.isEmpty_iff,
      conditionListProblems_eq_nil children]
    refine ⟨fun h p hp => ?_, fun h => ⟨h _ (.self _), fun c hc p hp => h p (.or hc hp)⟩⟩
    cases hp with
    | self => exact h.1
    | or hc hp => exact h.2 _ hc p hp
  | .not child => by
    rw [conditionProblems, conditionProblems_eq_nil child]
    refine ⟨fun h p hp => ?_, fun h p hp => h p (.not hp)⟩
    cases hp with
    | self => trivial
    | not hp => exact h p hp

theorem conditionListProblems_eq_nil : (cs : List Condition) →
    (conditionListProblems place cs = [] ↔ ∀ c ∈ cs, c.WellFormed)
  | [] => by simp [conditionListProblems]
  | c :: cs => by
    rw [conditionListProblems, List.append_eq_nil_iff, conditionProblems_eq_nil c,
      conditionListProblems_eq_nil cs, List.forall_mem_cons]

end

theorem ruleProblems_eq_nil {index : Nat} {rs : List ChoiceRule} :
    ruleProblems g place index rs = [] ↔
      ∀ r ∈ rs, g.Names r.next ∧ r.condition.WellFormed := by
  induction rs generalizing index with
  | nil => simp [ruleProblems]
  | cons r rest ih =>
    simp only [ruleProblems, List.append_eq_nil_iff, targetProblems_eq_nil,
      conditionProblems_eq_nil, ih, List.forall_mem_cons]

/-! ## What follows a state -/

@[simp]
theorem errorProblems_eq_nil {errors : List String} {isLast : Bool} :
    errorProblems place errors isLast = [] ↔
      errors ≠ [] ∧ (allErrors ∈ errors → errors = [allErrors]) ∧
        (isLast = false → allErrors ∉ errors) := by
  unfold errorProblems
  split_ifs with hnil hall
  · simp [hnil]
  · have hone : ¬ 1 < errors.length ↔ errors = [allErrors] := by
      constructor
      · intro hlen
        obtain ⟨e, rfl⟩ := List.length_eq_one_iff.1
          (Nat.le_antisymm (Nat.not_lt.1 hlen) (List.length_pos_iff.2 hnil))
        rw [List.mem_singleton.1 hall]
      · rintro rfl
        simp
    simp [hone, hall, hnil]
  · simp [hall, hnil]

theorem errorsWellFormed_cons {errors : List String} {rest : List (List String)} :
    ErrorsWellFormed (errors :: rest) ↔
      (errors ≠ [] ∧ (allErrors ∈ errors → errors = [allErrors]) ∧
        (rest.isEmpty = false → allErrors ∉ errors)) ∧ ErrorsWellFormed rest := by
  have hlast : (∀ es ∈ (errors :: rest).dropLast, allErrors ∉ es) ↔
      (rest.isEmpty = false → allErrors ∉ errors) ∧ ∀ es ∈ rest.dropLast, allErrors ∉ es := by
    cases rest <;> simp
  constructor
  · intro h
    have hl := hlast.1 h.last
    exact ⟨⟨h.nonempty _ (.head _), h.alone _ (.head _), hl.1⟩,
      fun es hes => h.nonempty es (.tail _ hes), fun es hes => h.alone es (.tail _ hes), hl.2⟩
  · rintro ⟨⟨hne, halone, hl⟩, h⟩
    exact ⟨List.forall_mem_cons.2 ⟨hne, h.nonempty⟩, List.forall_mem_cons.2 ⟨halone, h.alone⟩,
      hlast.2 ⟨hl, h.last⟩⟩

theorem errorsWellFormed_nil : ErrorsWellFormed [] :=
  ⟨nofun, nofun, nofun⟩

theorem retrierProblems_eq_nil {index : Nat} {rs : List Retrier} :
    retrierProblems place index rs = [] ↔
      ErrorsWellFormed (rs.map Retrier.errorEquals) ∧ ∀ r ∈ rs, r.WellFormed := by
  induction rs generalizing index with
  | nil => simp [retrierProblems, errorsWellFormed_nil]
  | cons r rest ih =>
    simp only [retrierProblems, List.append_eq_nil_iff, errorProblems_eq_nil,
      positiveProblems_eq_nil, negativeProblems_eq_nil, backoffProblems_eq_nil, ih, List.map_cons,
      errorsWellFormed_cons, List.isEmpty_map, List.forall_mem_cons, Retrier.wellFormed_iff]
    tauto

theorem catcherProblems_eq_nil {index : Nat} {cs : List Catcher} :
    catcherProblems g place index cs = [] ↔
      ErrorsWellFormed (cs.map Catcher.errorEquals) ∧ ∀ c ∈ cs, c.WellFormed g := by
  induction cs generalizing index with
  | nil => simp [catcherProblems, errorsWellFormed_nil]
  | cons c rest ih =>
    have hnext : ∀ here : Place,
        (if c.next = "" then [⟨here, .nextMissing⟩] else targetProblems g here "Next" c.next) =
          ([] : List Problem) ↔ c.next ≠ "" ∧ g.Names c.next := by
      intro here
      split_ifs with h <;> simp [h]
    simp only [catcherProblems, List.append_eq_nil_iff, errorProblems_eq_nil, hnext,
      resultPathProblems_eq_nil, ih, List.map_cons, errorsWellFormed_cons, List.isEmpty_map,
      List.forall_mem_cons, Catcher.wellFormed_iff]
    tauto

@[simp]
theorem recoveryProblems_eq_nil {r : State.Recovery} :
    recoveryProblems g place r = [] ↔ r.WellFormed g := by
  rw [recoveryProblems, List.append_eq_nil_iff, retrierProblems_eq_nil, catcherProblems_eq_nil,
    State.Recovery.wellFormed_iff, and_assoc]

@[simp]
theorem exitProblems_eq_nil {e : State.Exit} :
    exitProblems g place e = [] ↔ e.WellFormed g := by
  obtain ⟨next, isEnd⟩ := e
  rw [State.Exit.wellFormed_iff]
  cases next <;> cases isEnd <;> simp [exitProblems]

/-! ## Types of states -/

theorem limit_wellFormed_iff {field pathField : String} {l : State.Limit} :
    l.WellFormed ↔ positiveProblems place field l.seconds = [] ∧
      limitProblems place field pathField l = [] ∧
      referenceProblems place pathField l.path = [] := by
  rw [positiveProblems_eq_nil, limitProblems, exclusiveProblems_eq_nil, referenceProblems_eq_nil,
    State.Limit.wellFormed_iff]

theorem heartbeatProblems_eq_nil {timeout heartbeat : Option Int64} :
    heartbeatProblems place timeout heartbeat = [] ↔
      ∀ n ∈ timeout, ∀ m ∈ heartbeat, m < n := by
  cases timeout <;> cases heartbeat <;> simp [heartbeatProblems]

theorem taskProblems_eq_nil {t : State.Task} :
    taskProblems settings g place t = [] ↔ t.WellFormed settings.maxIntrinsicDepth g := by
  have hresource : ¬ (t.resource.toList.all Text.isBlank = true) ↔
      ∃ c ∈ t.resource.toList, Text.isBlank c = false := by
    simp
  simp only [taskProblems, List.append_eq_nil_iff, problemIf_eq_nil, hresource,
    heartbeatProblems_eq_nil, scopeProblems_eq_nil, workProblems_eq_nil, recoveryProblems_eq_nil,
    exitProblems_eq_nil]
  constructor
  · rintro ⟨⟨⟨⟨⟨⟨⟨⟨⟨⟨⟨hres, htp⟩, hhp⟩, hsh⟩, ht⟩, hh⟩, htr⟩, hhr⟩, hs⟩, hw⟩, hr⟩, he⟩
    exact ⟨hres, limit_wellFormed_iff.2 ⟨htp, ht, htr⟩, limit_wellFormed_iff.2 ⟨hhp, hh, hhr⟩, hsh,
      hs, hw, hr, he⟩
  · intro h
    obtain ⟨htp, ht, htr⟩ := limit_wellFormed_iff.1 h.timeout
    obtain ⟨hhp, hh, hhr⟩ := limit_wellFormed_iff.1 h.heartbeat
    exact ⟨⟨⟨⟨⟨⟨⟨⟨⟨⟨⟨h.resource, htp⟩, hhp⟩, h.shorter⟩, ht⟩, hh⟩, htr⟩, hhr⟩, h.scope⟩, h.work⟩,
      h.recovery⟩, h.exit⟩

theorem passProblems_eq_nil {p : State.Pass} :
    passProblems settings g place p = [] ↔ p.WellFormed settings.maxIntrinsicDepth g := by
  simp only [passProblems, List.append_eq_nil_iff, scopeProblems_eq_nil, resultPathProblems_eq_nil,
    templateProblems_eq_nil, exitProblems_eq_nil, State.Pass.wellFormed_iff, and_assoc]

theorem choiceProblems_eq_nil {c : State.Choice} :
    choiceProblems g place c = [] ↔ c.WellFormed g := by
  simp only [choiceProblems, List.append_eq_nil_iff, problemIf_eq_nil, List.isEmpty_iff,
    ruleProblems_eq_nil, scopeProblems_eq_nil, State.Choice.wellFormed_iff, forall₂_and, and_assoc]
  cases c.default <;> simp

theorem waitProblems_eq_nil {w : State.Wait} :
    waitProblems g place w = [] ↔ w.WellFormed g := by
  have hcount : waitCount w = [w.seconds.isSome, w.secondsPath.isSome, w.timestamp.isSome,
      w.timestampPath.isSome].count true := by
    unfold waitCount
    cases w.seconds.isSome <;> cases w.secondsPath.isSome <;> cases w.timestamp.isSome <;>
      cases w.timestampPath.isSome <;> rfl
  simp only [waitProblems, List.append_eq_nil_iff, problemIf_eq_nil, Decidable.not_not, ne_eq,
    hcount, negativeProblems_eq_nil, timestampProblems_eq_nil, referenceProblems_eq_nil,
    scopeProblems_eq_nil, exitProblems_eq_nil, State.Wait.wellFormed_iff, and_assoc]
  -- the paths are checked behind the other two fields
  exact and_congr_right fun _ => and_congr_right fun _ => and_left_comm

theorem failProblems_eq_nil {f : State.Fail} :
    failProblems settings place f = [] ↔ f.WellFormed settings.maxIntrinsicDepth := by
  simp only [failProblems, List.append_eq_nil_iff, exclusiveProblems_eq_nil,
    dynamicProblems_eq_nil, State.Fail.wellFormed_iff, and_assoc]

end Validation

/-! ## Graphs inside graphs -/

/-- A graph stands directly inside a state, one step further in. -/
inductive State.Owns : State → Validation.Segment → Graph → Prop
  | branch {p branches i b} (hb : branches[i]? = some b) :
      State.Owns (.parallel p branches) (.branch i) b
  | iterator {m b} : State.Owns (.map m (some b)) .iterator b

namespace Graph

variable {g b h : Graph} {name : String} {s : State} {step : Validation.Segment}
  {path : Validation.Place}

/-- What stands inside a graph that a state owns stands inside the graph of the state. -/
theorem Inside.of_owns (hs : (name, s) ∈ g.states) (ho : s.Owns step b) (hb : b.Inside path h) :
    g.Inside (.state name :: step :: path) h := by
  cases ho with
  | branch hi => exact .branch hs hi hb
  | iterator => exact .iterator hs hb

theorem Inside.cases_owns (hin : g.Inside path h) :
    path = [] ∧ h = g ∨ ∃ name s step b rest, (name, s) ∈ g.states ∧ s.Owns step b ∧
      path = .state name :: step :: rest ∧ b.Inside rest h := by
  cases hin with
  | here => exact .inl ⟨rfl, rfl⟩
  | branch hs hi hb => exact .inr ⟨_, _, _, _, _, hs, .branch hi, rfl, hb⟩
  | iterator hs hb => exact .inr ⟨_, _, _, _, _, hs, .iterator, rfl, hb⟩

theorem sizeOf_lt_of_owns (hs : (name, s) ∈ g.states) (ho : s.Owns step b) :
    sizeOf b < sizeOf g := by
  have hstate : sizeOf s < sizeOf g := by
    obtain ⟨comment, startAt, states⟩ := g
    have hmem : sizeOf (name, s) < sizeOf states := List.sizeOf_lt_of_mem hs
    simp only [Prod.mk.sizeOf_spec] at hmem
    simp only [Graph.mk.sizeOf_spec]
    omega
  have hgraph : sizeOf b < sizeOf s := by
    cases ho with
    | branch hb =>
      have hmem := List.sizeOf_lt_of_mem (List.mem_of_getElem? hb)
      simp only [State.parallel.sizeOf_spec]
      omega
    | iterator =>
      simp only [State.map.sizeOf_spec, Option.some.sizeOf_spec]
      omega
  exact Nat.lt_trans hgraph hstate

theorem depth_of_owns (ho : s.Owns step b) :
    Validation.Place.depth (.state name :: step :: path) = path.depth + 1 := by
  cases ho <;> simp [Validation.Place.depth]

end Graph

namespace Validation

variable {settings : Settings.Validation} {g : Graph} {place : Place} {depth : Nat}

theorem branchProblems_eq_nil {gs : List Graph} {index : Nat} :
    branchProblems settings place depth index gs = [] ↔
      ∀ i b, gs[i]? = some b →
        graphProblems settings (place.at (.branch (index + i))) depth b = [] := by
  induction gs generalizing index with
  | nil => simp [branchProblems]
  | cons b gs ih =>
    rw [branchProblems, List.append_eq_nil_iff, ih]
    constructor
    · rintro ⟨hb, hgs⟩ (_ | i) b' hb'
      · cases hb'
        exact hb
      · rw [show index + (i + 1) = index + 1 + i by omega]
        exact hgs i b' hb'
    · intro h
      refine ⟨h 0 b rfl, fun i b' hb' => ?_⟩
      rw [show index + 1 + i = index + (i + 1) by omega]
      exact h (i + 1) b' hb'

/-- What the check of a state asks of the graphs inside it: none stands too deep or has problems. -/
def OwnedSound (settings : Settings.Validation) (place : Place) (depth : Nat) (s : State) : Prop :=
  ∀ step b, s.Owns step b → depth < settings.maxBranchDepth ∧
    graphProblems settings (place.at step) (depth + 1) b = []

theorem ownedSound_parallel {p : State.Parallel} {branches : List Graph} :
    OwnedSound settings place depth (.parallel p branches) ↔ ∀ i b, branches[i]? = some b →
      depth < settings.maxBranchDepth ∧
        graphProblems settings (place.at (.branch i)) (depth + 1) b = [] := by
  refine ⟨fun h i b hb => h _ b (.branch hb), fun h step b ho => ?_⟩
  cases ho with
  | branch hb => exact h _ b hb

theorem branches_eq_nil {p : State.Parallel} {branches : List Graph} (hne : branches ≠ []) :
    (if settings.maxBranchDepth ≤ depth then [⟨place, .tooDeep settings.maxBranchDepth⟩]
      else branchProblems settings place (depth + 1) 0 branches) = [] ↔
      OwnedSound settings place depth (.parallel p branches) := by
  obtain ⟨b, bs, rfl⟩ := List.exists_cons_of_ne_nil hne
  rw [ownedSound_parallel]
  split_ifs with hdeep
  · -- the first branch already stands too deep
    refine iff_of_false not_false fun h => ?_
    exact Nat.not_lt.2 hdeep (h 0 b rfl).1
  · simp [branchProblems_eq_nil, Nat.lt_of_not_le hdeep]

theorem iteratorProblems_eq_nil {m : State.Each} {iterator : Option Graph} :
    iteratorProblems settings place depth iterator = [] ↔
      iterator ≠ none ∧ OwnedSound settings place depth (.map m iterator) := by
  cases iterator with
  | none => simp [iteratorProblems]
  | some b =>
    have howned : OwnedSound settings place depth (.map m (some b)) ↔
        depth < settings.maxBranchDepth ∧
          graphProblems settings (place.at .iterator) (depth + 1) b = [] := by
      refine ⟨fun h => h _ b .iterator, fun h step b' ho => ?_⟩
      cases ho with
      | iterator => exact h
    rw [iteratorProblems, howned]
    split_ifs with hdeep
    · simp [Nat.not_lt.2 hdeep]
    · simp [Nat.lt_of_not_le hdeep]

/-- The check of a state is that of the state itself, and of the graphs inside it one level
further down. -/
theorem stateProblems_eq_nil {s : State} :
    stateProblems settings g place depth s = [] ↔
      s.WellFormed settings.maxIntrinsicDepth g ∧ OwnedSound settings place depth s := by
  cases s with
  | task _ | pass _ | choice _ | wait _ | succeed _ | fail _ =>
    rw [and_iff_left (by rintro _ _ ⟨⟩)]
    simp only [stateProblems, State.WellFormed, taskProblems_eq_nil, passProblems_eq_nil,
      choiceProblems_eq_nil, waitProblems_eq_nil, scopeProblems_eq_nil, failProblems_eq_nil]
  | parallel p branches =>
    simp only [stateProblems, List.append_eq_nil_iff, problemIf_eq_nil, List.isEmpty_iff,
      scopeProblems_eq_nil, workProblems_eq_nil, recoveryProblems_eq_nil, exitProblems_eq_nil,
      State.WellFormed, State.Parallel.wellFormed_iff]
    constructor
    · rintro ⟨⟨⟨⟨⟨hne, hb⟩, hs⟩, hw⟩, hr⟩, he⟩
      exact ⟨⟨hne, hs, hw, hr, he⟩, (branches_eq_nil hne).1 hb⟩
    · rintro ⟨⟨hne, hs, hw, hr, he⟩, hb⟩
      exact ⟨⟨⟨⟨⟨hne, (branches_eq_nil hne).2 hb⟩, hs⟩, hw⟩, hr⟩, he⟩
  | map m iterator =>
    simp only [stateProblems, List.append_eq_nil_iff, @iteratorProblems_eq_nil _ _ _ m,
      negativeProblems_eq_nil, referenceProblems_eq_nil, scopeProblems_eq_nil, workProblems_eq_nil,
      recoveryProblems_eq_nil, exitProblems_eq_nil, State.WellFormed, State.Each.wellFormed_iff]
    tauto

theorem stateListProblems_eq_nil {states : List (String × State)} :
    stateListProblems settings g place depth states = [] ↔
      ∀ name s, (name, s) ∈ states →
        stateProblems settings g (place.at (.state name)) depth s = [] := by
  induction states with
  | nil => simp [stateListProblems]
  | cons t rest ih =>
    obtain ⟨n, u⟩ := t
    rw [stateListProblems, List.append_eq_nil_iff, ih]
    refine ⟨fun h name s hs => ?_,
      fun h => ⟨h n u (.head _), fun name s hs => h name s (.tail _ hs)⟩⟩
    rcases List.mem_cons.1 hs with he | hs
    · obtain ⟨rfl, rfl⟩ := Prod.mk.inj he
      exact h.1
    · exact h.2 name s hs

theorem startProblems_eq_nil :
    startProblems g place = [] ↔ g.startAt ≠ "" ∧ g.Names g.startAt := by
  unfold startProblems
  split_ifs with h <;> simp [h]

theorem graphProblems_eq_nil :
    graphProblems settings place depth g = [] ↔ g.states ≠ [] ∧ startProblems g place = [] ∧
      stateListProblems settings g place depth g.states = [] := by
  obtain ⟨comment, startAt, states⟩ := g
  cases states <;> simp [graphProblems, Graph.states]

theorem graphProblems_eq_nil_step :
    graphProblems settings place depth g = [] ↔
      g.WellFormed settings.maxIntrinsicDepth ∧
        ∀ name s step b, (name, s) ∈ g.states → s.Owns step b →
          depth < settings.maxBranchDepth ∧
            graphProblems settings ((place.at (.state name)).at step) (depth + 1) b = [] := by
  rw [graphProblems_eq_nil]
  simp only [startProblems_eq_nil, stateListProblems_eq_nil, stateProblems_eq_nil]
  constructor
  · rintro ⟨hne, hstart, hstates⟩
    exact ⟨⟨hne, hstart, fun name s hs => (hstates name s hs).1⟩,
      fun name s step b hs ho => (hstates name s hs).2 step b ho⟩
  · rintro ⟨hg, hinner⟩
    exact ⟨hg.nonempty, hg.start,
      fun name s hs => ⟨hg.state name s hs, fun step b ho => hinner name s step b hs ho⟩⟩

/-- **The check of a graph finds nothing exactly if all graphs inside it keep their rules** and none
stands too deep: the limit of nesting cuts no check off without a report. -/
theorem graphProblems_eq_nil_iff {g : Graph} {place : Place} {depth : Nat}
    (hdepth : depth ≤ settings.maxBranchDepth) :
    graphProblems settings place depth g = [] ↔ ∀ path h, g.Inside path h →
      h.WellFormed settings.maxIntrinsicDepth ∧ depth + path.depth ≤ settings.maxBranchDepth := by
  rw [graphProblems_eq_nil_step]
  constructor
  · rintro ⟨hg, hinner⟩ path h hin
    rcases hin.cases_owns with ⟨rfl, rfl⟩ | ⟨name, s, step, b, rest, hs, ho, rfl, hb⟩
    · exact ⟨hg, hdepth⟩
    · obtain ⟨hlt, hp⟩ := hinner name s step b hs ho
      have hrest := (graphProblems_eq_nil_iff hlt).1 hp rest h hb
      rw [Graph.depth_of_owns ho]
      exact ⟨hrest.1, by omega⟩
  · intro h
    refine ⟨(h [] g (.here g)).1, fun name s step b hs ho => ?_⟩
    have hat := (h _ b (.of_owns hs ho (.here b))).2
    rw [Graph.depth_of_owns ho, show Place.depth [] = 0 from rfl] at hat
    refine ⟨by omega, (graphProblems_eq_nil_iff (by omega)).2 fun rest k hk => ?_⟩
    have hin := h _ k (.of_owns hs ho hk)
    rw [Graph.depth_of_owns ho] at hin
    exact ⟨hin.1, by omega⟩
termination_by sizeOf g
decreasing_by all_goals exact Graph.sizeOf_lt_of_owns hs ho

theorem structureProblems_eq_nil_iff_graphs {d : Definition} :
    structureProblems settings d = [] ↔ (∀ n ∈ d.timeoutSeconds, 0 < n) ∧
      ∀ path g, d.graph.Inside path g →
        g.WellFormed settings.maxIntrinsicDepth ∧ path.depth ≤ settings.maxBranchDepth := by
  rw [structureProblems, List.append_eq_nil_iff, positiveProblems_eq_nil,
    graphProblems_eq_nil_iff (Nat.zero_le _)]
  simp only [Nat.zero_add]

/-- **The structural check accepts exactly the well-formed definitions.** -/
theorem structureProblems_eq_nil_iff {d : Definition} :
    structureProblems settings d = [] ↔ d.WellFormed settings := by
  rw [structureProblems_eq_nil_iff_graphs]
  constructor
  · rintro ⟨htimeout, hgraphs⟩
    exact ⟨htimeout, fun path g hg => (hgraphs path g hg).1, fun path g hg => (hgraphs path g hg).2⟩
  · intro h
    exact ⟨h.timeout, fun path g hg => ⟨h.graph path g hg, h.depth path g hg⟩⟩

end Validation

end StatesLang
