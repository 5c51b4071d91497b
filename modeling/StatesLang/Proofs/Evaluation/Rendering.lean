import StatesLang.Proofs.Evaluation.Calls
import StatesLang.Proofs.Templates

/-!
# Rendering entry by entry

Rendering comes to the dynamic members of a template one after the other, to each with an entropy of
its own, and leaves the rest of the template as it is.

* `Template.Entry`, `Template.entries`: the dynamic members in document order, each with the entropy
  that it is rendered with.
* **`Template.render_eq_error_iff`**: a template fails as the first of its entries that fails.
* `Template.render_congr`: a template renders as its dynamic members do.
-/

namespace StatesLang

/-! ## Expressions -/

theorem Path.scoped_eq_none {text : String} :
    Path.scoped? text = none ↔ Template.isPathExpression text = false := by
  unfold Path.scoped? Template.isPathExpression
  split
  · next he => simp [he]
  · next he => simp [he]
  · next hroot =>
    refine iff_of_true rfl ?_
    cases he : text.toList with
    | nil => rfl
    | cons c cs =>
      rw [List.head?_cons, beq_eq_false_iff_ne]
      rintro ⟨rfl⟩
      exact hroot cs he

namespace Template

section Expressions

variable {expression : String} {entropy : UInt64} {sources : Path.Sources}

theorem renderExpression_of_path (hpath : isPathExpression expression = true) (r : Registry) :
    renderExpression r entropy sources expression =
      match sources.select? expression with
      | some value => .ok value
      | none => .error (.missingPath expression) := by
  unfold renderExpression Path.Sources.select?
  cases hscoped : Path.scoped? expression with
  | some place => rfl
  | none =>
    rw [Path.scoped_eq_none, hpath] at hscoped
    cases hscoped

theorem renderExpression_of_call (hcall : isPathExpression expression = false) (r : Registry) :
    renderExpression r entropy sources expression =
      (r.evaluate entropy expression sources).mapError .call := by
  rw [renderExpression, Path.scoped_eq_none.2 hcall]

end Expressions

end Template

/-! ## Failures -/

/-- What went wrong, if anything did. -/
def Template.failure? {ε α : Type} : Except ε α → Option ε
  | .ok _ => none
  | .error e => some e

namespace Template

section Failure

variable {ε α β : Type} {x : Except ε α}

theorem failure_eq_none : failure? x = none ↔ ∃ v, x = .ok v := by
  cases x <;> simp [failure?]

theorem failure_eq_some {e : ε} : failure? x = some e ↔ x = .error e := by
  cases x <;> simp [failure?]

theorem failure_map (f : α → β) : failure? (x.map f) = failure? x := by
  cases x <;> rfl

/-- Of two steps the first failure counts, if the failure of the second does not depend on the
outcome of the first. -/
theorem failure_bind {f : α → Except ε β} {o : Option ε} (h : ∀ a, failure? (f a) = o) :
    failure? (x >>= f) = (failure? x).or o := by
  cases x with
  | error e => rfl
  | ok a => exact h a

end Failure

/-! ## Entries -/

/-- A dynamic member of a template, and the entropy that it is rendered with. -/
structure Entry where
  entropy : UInt64
  key : String
  value : Json

/-- The value of an entry. -/
def Entry.render (r : Registry) (sources : Path.Sources) (m : Entry) : Except Error Json :=
  renderDynamic r m.entropy sources m.key m.value

mutual

/-- The entries of a template, in document order. -/
def entries (entropy : UInt64) : Json → List Entry
  | .object members => entriesOfMembers entropy members
  | .array items => entriesOfItems entropy 0 items
  | _ => []

/-- The entries inside the items of an array, from a position on. -/
def entriesOfItems (entropy : UInt64) (position : Nat) : List Json → List Entry
  | [] => []
  | item :: rest =>
    entries (Handler.inner entropy position) item ++ entriesOfItems entropy (position + 1) rest

/-- The entries among and inside the members of an object. -/
def entriesOfMembers (entropy : UInt64) : List (String × Json) → List Entry
  | [] => []
  | (key, value) :: rest =>
    let inner := Handler.inner entropy rest.length
    (match dynamicName? key with
      | some _ => [⟨inner, key, value⟩]
      | none => entries inner value) ++
      entriesOfMembers entropy rest

end

mutual

theorem map_entries (entropy : UInt64) : (t : Json) →
    (entries entropy t).map (fun m => (m.key, m.value)) = dynamicMembers t
  | .object members => map_entriesOfMembers entropy members
  | .array items => map_entriesOfItems entropy 0 items
  | .null | .bool _ | .number _ | .string _ => rfl

theorem map_entriesOfItems (entropy : UInt64) (position : Nat) : (items : List Json) →
    (entriesOfItems entropy position items).map (fun m => (m.key, m.value)) = dynamicOfItems items
  | [] => rfl
  | item :: rest => by
    rw [entriesOfItems, dynamicOfItems, List.map_append, map_entries, map_entriesOfItems]

theorem map_entriesOfMembers (entropy : UInt64) : (members : List (String × Json)) →
    (entriesOfMembers entropy members).map (fun m => (m.key, m.value)) = dynamicOfMembers members
  | [] => rfl
  | (key, value) :: rest => by
    rw [entriesOfMembers, dynamicOfMembers, List.map_append, map_entriesOfMembers]
    cases dynamicName? key with
    | none => rw [map_entries]
    | some name => rfl

end

theorem mem_dynamicMembers_of_mem_entries {entropy : UInt64} {t : Json} {m : Entry}
    (hm : m ∈ entries entropy t) : (m.key, m.value) ∈ dynamicMembers t := by
  rw [← map_entries entropy]
  exact List.mem_map_of_mem hm

/-! ## The first failure -/

section FirstFailure

variable (r : Registry) (sources : Path.Sources)

mutual

theorem failure_render : (t : Json) → (entropy : UInt64) →
    failure? (render r entropy sources t) =
      (entries entropy t).findSome? fun m => failure? (m.render r sources)
  | .object members, entropy => by
    rw [render, failure_map]
    exact failure_renderMembers members entropy []
  | .array items, entropy => by
    rw [render, failure_map]
    exact failure_renderItems items entropy 0
  | .null, _ | .bool _, _ | .number _, _ | .string _, _ => rfl

theorem failure_renderItems : (items : List Json) → (entropy : UInt64) → (position : Nat) →
    failure? (renderItems r entropy sources position items) =
      (entriesOfItems entropy position items).findSome? fun m => failure? (m.render r sources)
  | [], _, _ => rfl
  | item :: rest, entropy, position => by
    rw [renderItems, entriesOfItems, List.findSome?_append, ← failure_render, ← failure_renderItems]
    exact failure_bind fun v => (failure_bind (o := none) fun _ => rfl).trans Option.or_none

theorem failure_renderMembers : (members : List (String × Json)) → (entropy : UInt64) →
    (before : List (String × Json)) →
    failure? (renderMembers r entropy sources before members) =
      (entriesOfMembers entropy members).findSome? fun m => failure? (m.render r sources)
  | [], _, _ => rfl
  | (key, value) :: rest, entropy, before => by
    rw [renderMembers, entriesOfMembers, List.findSome?_append]
    -- the members before do not matter to what goes wrong behind them
    cases dynamicName? key with
    | some name =>
      rw [failure_bind fun v => failure_renderMembers rest entropy _, List.findSome?_singleton]
      rfl
    | none =>
      rw [failure_bind fun v => failure_renderMembers rest entropy _, failure_render]

end

end FirstFailure

/-- **A template fails as the first of its entries that fails**, all entries before it having
values. -/
theorem render_eq_error_iff {r : Registry} {sources : Path.Sources} {t : Json} {entropy : UInt64}
    {e : Error} : render r entropy sources t = .error e ↔
      ∃ before m after, entries entropy t = before ++ m :: after ∧
        (∀ x ∈ before, ∃ v, x.render r sources = .ok v) ∧ m.render r sources = .error e := by
  rw [← failure_eq_some, failure_render, List.findSome?_eq_some_iff]
  simp only [failure_eq_none, failure_eq_some]
  constructor
  · rintro ⟨before, m, after, hsplit, hm, hbefore⟩
    exact ⟨before, m, after, hsplit, hbefore, hm⟩
  · rintro ⟨before, m, after, hsplit, hbefore, hm⟩
    exact ⟨before, m, after, hsplit, hm, hbefore⟩

/-! ## Agreement -/

section Agreement

variable {r : Registry} {sources sources' : Path.Sources} {p : Prop}

/-- A dynamic member has the same value in two places. Its entropy matters unless `p` holds. -/
def Agrees (r : Registry) (sources sources' : Path.Sources) (p : Prop) (m : String × Json) : Prop :=
  ∀ entropy entropy', entropy = entropy' ∨ p →
    renderDynamic r entropy sources m.1 m.2 = renderDynamic r entropy' sources' m.1 m.2

theorem inner_eq_or {entropy entropy' : UInt64} (h : entropy = entropy' ∨ p) (position : Nat) :
    Handler.inner entropy position = Handler.inner entropy' position ∨ p :=
  h.imp_left fun he => by rw [he]

mutual

theorem render_congr : (t : Json) → (∀ m ∈ dynamicMembers t, Agrees r sources sources' p m) →
    {entropy entropy' : UInt64} → entropy = entropy' ∨ p →
      render r entropy sources t = render r entropy' sources' t
  | .object members, h, entropy, entropy', he => by
    rw [render, render, renderMembers_congr members h he]
  | .array items, h, entropy, entropy', he => by
    rw [render, render, renderItems_congr items h he]
  | .null, _, _, _, _ | .bool _, _, _, _, _ | .number _, _, _, _, _ | .string _, _, _, _, _ => rfl

theorem renderItems_congr : (items : List Json) →
    (∀ m ∈ dynamicOfItems items, Agrees r sources sources' p m) →
    {entropy entropy' : UInt64} → {position : Nat} → entropy = entropy' ∨ p →
      renderItems r entropy sources position items = renderItems r entropy' sources' position items
  | [], _, _, _, _, _ => rfl
  | item :: rest, h, entropy, entropy', position, he => by
    obtain ⟨hitem, hrest⟩ := List.forall_mem_append.1 h
    rw [renderItems, renderItems, render_congr item hitem (inner_eq_or he position),
      renderItems_congr rest hrest he]

theorem renderMembers_congr : (members : List (String × Json)) →
    (∀ m ∈ dynamicOfMembers members, Agrees r sources sources' p m) →
    {entropy entropy' : UInt64} → {before : List (String × Json)} → entropy = entropy' ∨ p →
      renderMembers r entropy sources before members =
        renderMembers r entropy' sources' before members
  | [], _, _, _, _, _ => rfl
  | (key, value) :: rest, h, entropy, entropy', before, he => by
    rw [dynamicOfMembers] at h
    obtain ⟨hvalue, hrest⟩ := List.forall_mem_append.1 h
    have hinner := inner_eq_or he rest.length
    rw [renderMembers, renderMembers]
    cases hname : dynamicName? key with
    | some name =>
      rw [hname] at hvalue
      have hv := hvalue _ (List.mem_singleton.2 rfl) _ _ hinner
      simp only [hv]
      exact congrArg _ (funext fun v => renderMembers_congr rest hrest he)
    | none =>
      rw [hname] at hvalue
      simp only [render_congr value hvalue hinner]
      exact congrArg _ (funext fun v => renderMembers_congr rest hrest he)

end

end Agreement

end Template

end StatesLang
