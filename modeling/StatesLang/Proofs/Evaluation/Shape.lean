import StatesLang.Builtin.Standard
import StatesLang.Proofs.Evaluation.Rendering
import StatesLang.Proofs.RoundTrip.Outline

/-!
# The shape of a rendered template

What a template renders to is the template with its dynamic members filled in, as long as no two
members of an object come out under one key.

* `Template.Entry.Yields`, `Template.Entry.Refuses`: the value of an entry, or why it has none.
* `Template.KeepsApart`: the keys of an object stay distinct without the ending `.$`.
* `Template.Fills`: a document has the shape of a template and the values of its entries.
* **`Template.render_fills`**: rendering succeeds exactly with the document that fills the template,
  and else fails as the first entry without a value.
-/

namespace StatesLang.Template

/-! ## Values of entries -/

section Entries

variable {r : Registry} {sources : Path.Sources} {m : Entry}

/-- An entry has a value: what its path selects, or what its call evaluates to. -/
inductive Entry.Yields (r : Registry) (sources : Path.Sources) (m : Entry) (v : Json) : Prop
  | path {expression : String} (hvalue : m.value = .string expression)
    (hpath : isPathExpression expression = true) (hselect : sources.select? expression = some v)
  | call {expression : String} (hvalue : m.value = .string expression)
    (hcall : isPathExpression expression = false)
    (heval : r.evaluate m.entropy expression sources = .ok v)

/-- An entry has no value: it holds no text, or a path that selects nothing, or a call that does not
evaluate. -/
inductive Entry.Refuses (r : Registry) (sources : Path.Sources) (m : Entry) : Error → Prop
  | notText (h : ∀ expression, m.value ≠ .string expression) : Refuses r sources m (.notText m.key)
  | path {expression : String} (hvalue : m.value = .string expression)
    (hpath : isPathExpression expression = true) (hnone : sources.select? expression = none) :
    Refuses r sources m (.missingPath expression)
  | call {expression : String} {e : Call.Error} (hvalue : m.value = .string expression)
    (hcall : isPathExpression expression = false)
    (heval : r.evaluate m.entropy expression sources = .error e) : Refuses r sources m (.call e)

/-- Either an entry has a value, and rendering finds it, or it has none, and rendering says why. -/
theorem Entry.render_spec (r : Registry) (sources : Path.Sources) (m : Entry) :
    (∃ v, m.render r sources = .ok v ∧ m.Yields r sources v) ∨
      ∃ e, m.render r sources = .error e ∧ m.Refuses r sources e := by
  obtain ⟨entropy, key, value⟩ := m
  cases value with
  | string expression =>
    cases hpath : isPathExpression expression with
    | true =>
      rw [Entry.render, renderDynamic, renderExpression_of_path hpath]
      cases hselect : sources.select? expression with
      | some v => exact .inl ⟨v, rfl, .path rfl hpath hselect⟩
      | none => exact .inr ⟨_, rfl, .path rfl hpath hselect⟩
    | false =>
      rw [Entry.render, renderDynamic, renderExpression_of_call hpath]
      cases heval : r.evaluate entropy expression sources with
      | ok v => exact .inl ⟨v, rfl, .call rfl hpath heval⟩
      | error e => exact .inr ⟨_, rfl, .call rfl hpath heval⟩
  | null | bool _ | number _ | array _ | object _ =>
    exact .inr ⟨_, rfl, .notText fun _ h => by cases h⟩

theorem Entry.render_eq_ok_iff {v : Json} : m.render r sources = .ok v ↔ m.Yields r sources v := by
  constructor
  · intro h
    obtain ⟨w, hw, hyields⟩ | ⟨e, he, -⟩ := m.render_spec r sources
    · cases h.symm.trans hw
      exact hyields
    · cases h.symm.trans he
  · intro h
    cases h with
    | path hvalue hpath hselect =>
      rw [Entry.render, hvalue, renderDynamic, renderExpression_of_path hpath, hselect]
    | call hvalue hcall heval =>
      rw [Entry.render, hvalue, renderDynamic, renderExpression_of_call hcall, heval]
      rfl

theorem Entry.render_eq_error_iff {e : Error} :
    m.render r sources = .error e ↔ m.Refuses r sources e := by
  constructor
  · intro h
    obtain ⟨v, hv, -⟩ | ⟨e', he', hrefuses⟩ := m.render_spec r sources
    · cases h.symm.trans hv
    · cases h.symm.trans he'
      exact hrefuses
  · intro h
    cases h with
    | notText h =>
      obtain ⟨entropy, key, value⟩ := m
      cases value with
      | string expression => exact absurd rfl (h expression)
      | null | bool _ | number _ | array _ | object _ => rfl
    | path hvalue hpath hnone =>
      rw [Entry.render, hvalue, renderDynamic, renderExpression_of_path hpath, hnone]
    | call hvalue hcall heval =>
      rw [Entry.render, hvalue, renderDynamic, renderExpression_of_call hcall, heval]
      rfl

end Entries

/-! ## Distinct keys -/

/-- The key under which a member comes out. -/
def renderedKey (key : String) : String :=
  (dynamicName? key).getD key

mutual

/-- In no object of a template two members come out under one key. Nothing is said of what stands in
dynamic members, which is not rendered as a template. -/
def KeepsApart : Json → Prop
  | .null | .bool _ | .number _ | .string _ => True
  | .array items => ItemsKeepApart items
  | .object members =>
    (members.map fun m => renderedKey m.1).Nodup ∧ MembersKeepApart members

/-- The same for the items of an array. -/
def ItemsKeepApart : List Json → Prop
  | [] => True
  | item :: rest => KeepsApart item ∧ ItemsKeepApart rest

/-- The same for the values of the members of an object. -/
def MembersKeepApart : List (String × Json) → Prop
  | [] => True
  | (key, value) :: rest => (dynamicName? key = none → KeepsApart value) ∧ MembersKeepApart rest

end

/-! ## Documents of a template -/

mutual

/-- A document has the shape of a template, and what its entries yield in their places. -/
inductive Fills (r : Registry) (sources : Path.Sources) : UInt64 → Json → Json → Prop
  | null {entropy : UInt64} : Fills r sources entropy .null .null
  | bool {entropy : UInt64} (b : Bool) : Fills r sources entropy (.bool b) (.bool b)
  | number {entropy : UInt64} (n : Json.Number) : Fills r sources entropy (.number n) (.number n)
  | string {entropy : UInt64} (s : String) : Fills r sources entropy (.string s) (.string s)
  | array {entropy : UInt64} {items vs : List Json} (h : ItemsFill r sources entropy 0 items vs) :
    Fills r sources entropy (.array items) (.array vs)
  | object {entropy : UInt64} {members ms : List (String × Json)}
    (h : MembersFill r sources entropy members ms) :
    Fills r sources entropy (.object members) (.object ms)

/-- The same for the items of an array from a position on, each filling the one in its place. -/
inductive ItemsFill (r : Registry) (sources : Path.Sources) :
    UInt64 → Nat → List Json → List Json → Prop
  | nil {entropy : UInt64} {position : Nat} : ItemsFill r sources entropy position [] []
  | cons {entropy : UInt64} {position : Nat} {item v : Json} {rest vs : List Json}
    (h : Fills r sources (Handler.inner entropy position) item v)
    (hrest : ItemsFill r sources entropy (position + 1) rest vs) :
    ItemsFill r sources entropy position (item :: rest) (v :: vs)

/-- The same for a member of an object. What a dynamic member yields is taken as it is, under the
key without its ending. Other members keep their keys. -/
inductive MemberFills (r : Registry) (sources : Path.Sources) :
    UInt64 → String × Json → String × Json → Prop
  | dynamic {entropy : UInt64} {key name : String} {value v : Json}
    (hname : dynamicName? key = some name) (h : Entry.Yields r sources ⟨entropy, key, value⟩ v) :
    MemberFills r sources entropy (key, value) (name, v)
  | static {entropy : UInt64} {key : String} {value v : Json} (hname : dynamicName? key = none)
    (h : Fills r sources entropy value v) : MemberFills r sources entropy (key, value) (key, v)

/-- The same for the members of an object, each filling the one in its place. -/
inductive MembersFill (r : Registry) (sources : Path.Sources) :
    UInt64 → List (String × Json) → List (String × Json) → Prop
  | nil {entropy : UInt64} : MembersFill r sources entropy [] []
  | cons {entropy : UInt64} {m m' : String × Json} {rest ms : List (String × Json)}
    (h : MemberFills r sources (Handler.inner entropy rest.length) m m')
    (hrest : MembersFill r sources entropy rest ms) :
    MembersFill r sources entropy (m :: rest) (m' :: ms)

end

section Filling

variable {r : Registry} {sources : Path.Sources} {entropy : UInt64}

theorem fills_array {items : List Json} {v : Json} : Fills r sources entropy (.array items) v ↔
    ∃ vs, ItemsFill r sources entropy 0 items vs ∧ .array vs = v :=
  ⟨fun h => by cases h with | array h => exact ⟨_, h, rfl⟩, fun ⟨_, h, hv⟩ => hv ▸ .array h⟩

theorem fills_object {members : List (String × Json)} {v : Json} :
    Fills r sources entropy (.object members) v ↔
      ∃ ms, MembersFill r sources entropy members ms ∧ .object ms = v :=
  ⟨fun h => by cases h with | object h => exact ⟨_, h, rfl⟩, fun ⟨_, h, hv⟩ => hv ▸ .object h⟩

theorem itemsFill_cons {position : Nat} {item : Json} {rest vs : List Json} :
    ItemsFill r sources entropy position (item :: rest) vs ↔
      ∃ v, Fills r sources (Handler.inner entropy position) item v ∧
        ∃ vs', ItemsFill r sources entropy (position + 1) rest vs' ∧ v :: vs' = vs := by
  constructor
  · intro h
    cases h with
    | cons h hrest => exact ⟨_, h, _, hrest, rfl⟩
  · rintro ⟨v, h, vs', hrest, rfl⟩
    exact .cons h hrest

theorem MemberFills.key_eq {m m' : String × Json} (h : MemberFills r sources entropy m m') :
    m'.1 = renderedKey m.1 := by
  cases h with
  | dynamic hname | static hname =>
    rw [renderedKey, hname]
    rfl

theorem membersFill_cons {m : String × Json} {rest ms : List (String × Json)} :
    MembersFill r sources entropy (m :: rest) ms ↔
      ∃ v, MemberFills r sources (Handler.inner entropy rest.length) m (renderedKey m.1, v) ∧
        ∃ ms', MembersFill r sources entropy rest ms' ∧ (renderedKey m.1, v) :: ms' = ms := by
  constructor
  · intro h
    cases h with
    | @cons _ _ m' _ ms' h hrest =>
      have hm' : (renderedKey m.1, m'.2) = m' := Prod.ext h.key_eq.symm rfl
      exact ⟨m'.2, hm' ▸ h, ms', hrest, by rw [hm']⟩
  · rintro ⟨v, h, ms', hrest, rfl⟩
    exact .cons h hrest

/-! ## Rendering -/

/-- The value of a member of an object, dynamic or not. -/
def renderMember (r : Registry) (entropy : UInt64) (sources : Path.Sources) (m : String × Json) :
    Except Error Json :=
  match dynamicName? m.1 with
  | some _ => renderDynamic r entropy sources m.1 m.2
  | none => render r entropy sources m.2

theorem renderMembers_cons {before rest : List (String × Json)} {m : String × Json} :
    renderMembers r entropy sources before (m :: rest) =
      renderMember r (Handler.inner entropy rest.length) sources m >>= fun v =>
        renderMembers r entropy sources (Json.insert (renderedKey m.1) v before) rest := by
  obtain ⟨key, value⟩ := m
  rw [renderMembers, renderMember, renderedKey]
  cases dynamicName? key <;> rfl

/-- The keys of what is rendered, and of what is not yet. -/
def keysAround (before members : List (String × Json)) : List String :=
  before.map Prod.fst ++ members.map fun m => renderedKey m.1

section Keys

variable {before rest : List (String × Json)} {m : String × Json}

theorem insert_of_keysAround (h : (keysAround before (m :: rest)).Nodup) (v : Json) :
    Json.insert (renderedKey m.1) v before = before ++ [(renderedKey m.1, v)] := by
  refine Json.insert_of_lookup (Json.lookup_eq_none.2 fun hmem => ?_)
  exact (List.nodup_append.1 h).2.2 _ hmem _ List.mem_cons_self rfl

theorem keysAround_append (v : Json) :
    keysAround (before ++ [(renderedKey m.1, v)]) rest = keysAround before (m :: rest) := by
  simp [keysAround]

end Keys

mutual

theorem render_eq_ok_iff : (t : Json) → KeepsApart t → {entropy : UInt64} → {v : Json} →
    (render r entropy sources t = .ok v ↔ Fills r sources entropy t v)
  | .object members, h, entropy, v => by
    rw [render, Decode.map_eq_ok, fills_object]
    simp only [renderMembers_eq_ok_iff members h.2 [] h.1, List.nil_append, exists_eq_right]
  | .array items, h, entropy, v => by
    rw [render, Decode.map_eq_ok, fills_array]
    simp only [renderItems_eq_ok_iff items h]
  | .null, _, _, _ => ⟨fun h => by cases h; exact .null, fun h => by cases h; rfl⟩
  | .bool b, _, _, _ => ⟨fun h => by cases h; exact .bool b, fun h => by cases h; rfl⟩
  | .number n, _, _, _ => ⟨fun h => by cases h; exact .number n, fun h => by cases h; rfl⟩
  | .string s, _, _, _ => ⟨fun h => by cases h; exact .string s, fun h => by cases h; rfl⟩

theorem renderItems_eq_ok_iff : (items : List Json) → ItemsKeepApart items →
    {entropy : UInt64} → {position : Nat} → {vs : List Json} →
      (renderItems r entropy sources position items = .ok vs ↔
        ItemsFill r sources entropy position items vs)
  | [], _, _, _, _ => ⟨fun h => by cases h; exact .nil, fun h => by cases h; rfl⟩
  | item :: rest, h, entropy, position, vs => by
    rw [renderItems, Decode.bind_eq_ok, itemsFill_cons]
    simp only [render_eq_ok_iff item h.1, Decode.bind_eq_ok, renderItems_eq_ok_iff rest h.2, pure,
      Except.pure, Except.ok.injEq]

theorem renderMember_eq_ok_iff : (m : String × Json) → (dynamicName? m.1 = none → KeepsApart m.2) →
    {entropy : UInt64} → {v : Json} →
      (renderMember r entropy sources m = .ok v ↔
        MemberFills r sources entropy m (renderedKey m.1, v))
  | (key, value), h, entropy, v => by
    rw [renderMember, renderedKey]
    cases hname : dynamicName? key with
    | some name =>
      rw [Option.getD_some]
      refine (@Entry.render_eq_ok_iff r sources ⟨entropy, key, value⟩ v).trans
        ⟨.dynamic hname, fun hfills => ?_⟩
      cases hfills with
      | dynamic _ h => exact h
      | static hnone => cases hname.symm.trans hnone
    | none =>
      rw [Option.getD_none]
      refine (render_eq_ok_iff value (h hname)).trans ⟨.static hname, fun hfills => ?_⟩
      cases hfills with
      | dynamic hsome => cases hname.symm.trans hsome
      | static _ h => exact h

/-- The members that fill those of an object come behind the members before. -/
theorem renderMembers_eq_ok_iff : (members : List (String × Json)) → MembersKeepApart members →
    (before : List (String × Json)) → (keysAround before members).Nodup → {entropy : UInt64} →
    {after : List (String × Json)} →
      (renderMembers r entropy sources before members = .ok after ↔
        ∃ ms, MembersFill r sources entropy members ms ∧ before ++ ms = after)
  | [], _, before, _, _, after => by
    rw [renderMembers]
    constructor
    · rintro ⟨⟩
      exact ⟨[], .nil, List.append_nil _⟩
    · rintro ⟨ms, hms, rfl⟩
      cases hms
      rw [List.append_nil]
  | (key, value) :: rest, h, before, hkeys, entropy, after => by
    -- the key is new, so that its member is put last and none before it changes
    have hrest : ∀ v, renderMembers r entropy sources
          (Json.insert (renderedKey key) v before) rest = .ok after ↔
        ∃ ms, MembersFill r sources entropy rest ms ∧
          before ++ (renderedKey key, v) :: ms = after := fun v => by
      rw [insert_of_keysAround hkeys, renderMembers_eq_ok_iff rest h.2 _
        (by rwa [keysAround_append])]
      simp only [List.append_assoc, List.singleton_append]
    simp only [renderMembers_cons, Decode.bind_eq_ok, renderMember_eq_ok_iff (key, value) h.1,
      hrest, membersFill_cons]
    constructor
    · rintro ⟨v, hv, ms, hms, rfl⟩
      exact ⟨_, ⟨v, hv, ms, hms, rfl⟩, rfl⟩
    · rintro ⟨_, ⟨v, hv, ms, hms, rfl⟩, rfl⟩
      exact ⟨v, hv, ms, hms, rfl⟩

end

/-! ## Templates without dynamic members -/

mutual

theorem fills_self : (t : Json) → dynamicMembers t = [] → {entropy : UInt64} →
    Fills r sources entropy t t
  | .object members, h, _ => .object (membersFill_self members h)
  | .array items, h, _ => .array (itemsFill_self items h)
  | .null, _, _ => .null
  | .bool b, _, _ => .bool b
  | .number n, _, _ => .number n
  | .string s, _, _ => .string s

theorem itemsFill_self : (items : List Json) → dynamicOfItems items = [] → {entropy : UInt64} →
    {position : Nat} → ItemsFill r sources entropy position items items
  | [], _, _, _ => .nil
  | item :: rest, h, _, _ =>
    have ⟨hitem, hrest⟩ := List.append_eq_nil_iff.1 h
    .cons (fills_self item hitem) (itemsFill_self rest hrest)

theorem membersFill_self : (members : List (String × Json)) → dynamicOfMembers members = [] →
    {entropy : UInt64} → MembersFill r sources entropy members members
  | [], _, _ => .nil
  | (key, value) :: rest, h, entropy => by
    obtain ⟨hvalue, hrest⟩ := List.append_eq_nil_iff.1 h
    cases hname : dynamicName? key with
    | some name => simp [hname] at hvalue
    | none =>
      rw [hname] at hvalue
      exact .cons (.static hname (fills_self value hvalue)) (membersFill_self rest hrest)

end

end Filling

/-! ## Success and failure -/

/-- **Rendering fills a template.** It succeeds exactly with the document that has the shape of the
template and what the entries yield in their places, which there is if every entry has a value.
Otherwise it fails as the first entry that has none. A template without dynamic members renders to
itself. -/
theorem render_fills (r : Registry) (sources : Path.Sources) (entropy : UInt64) {t : Json}
    (ht : KeepsApart t) :
    (∀ v, render r entropy sources t = .ok v ↔ Fills r sources entropy t v) ∧
    ((∃ v, render r entropy sources t = .ok v) ↔
      ∀ m ∈ entries entropy t, ∃ v, m.Yields r sources v) ∧
    (∀ e, render r entropy sources t = .error e ↔
      ∃ before m after, entries entropy t = before ++ m :: after ∧
        (∀ x ∈ before, ∃ v, x.Yields r sources v) ∧ m.Refuses r sources e) ∧
    (dynamicMembers t = [] → render r entropy sources t = .ok t) := by
  refine ⟨fun v => render_eq_ok_iff t ht, ?_, fun e => ?_, fun hstatic => ?_⟩
  · rw [← failure_eq_none, failure_render, List.findSome?_eq_none_iff]
    simp only [failure_eq_none, Entry.render_eq_ok_iff]
  · rw [render_eq_error_iff]
    simp only [Entry.render_eq_ok_iff, Entry.render_eq_error_iff]
  · exact (render_eq_ok_iff t ht).2 (fills_self t hstatic)

/-- A letter with an order, and with a greeting inside an array. -/
def letter : Json :=
  .object [("order.$", .string "$.order"), ("lines", .array [.string "$.name",
    .object [("sealed", .bool true), ("greeting.$", .string "States.Format('Hi {}', $.name)")]])]

/-- The order has a member whose key ends in `.$`, and is taken as it is. Without an order there is
no letter, and the greeting does not matter. -/
theorem letter_fills :
    KeepsApart letter ∧
    render (.standard {}) 0 ⟨.object [("name", .string "Ada"),
        ("order", .object [("item.$", .string "$.name")])], .null⟩ letter =
      .ok (.object [("order", .object [("item.$", .string "$.name")]),
        ("lines", .array [.string "$.name",
          .object [("sealed", .bool true), ("greeting", .string "Hi Ada")]])]) ∧
    render (.standard {}) 0 ⟨.object [], .null⟩ letter = .error (.missingPath "$.order") := by
  have horder : dynamicName? "order.$" = some "order" := by decide +kernel
  have hlines : dynamicName? "lines" = none := by decide +kernel
  have hsealed : dynamicName? "sealed" = none := by decide +kernel
  have hgreeting : dynamicName? "greeting.$" = some "greeting" := by decide +kernel
  have hletter : KeepsApart letter := by
    simp [letter, KeepsApart, MembersKeepApart, ItemsKeepApart, renderedKey, horder, hlines,
      hsealed, hgreeting]
  refine ⟨hletter, ((render_fills (.standard {}) _ 0 hletter).1 _).2 (.object ?_),
    ((render_fills (.standard {}) _ 0 hletter).2.2.1 _).2 ⟨[], _, _, rfl, nofun, ?_⟩⟩
  · refine .cons (.dynamic horder (.path rfl (by decide) (by cbv))) (.cons (.static hlines (.array
      (.cons (.string _) (.cons (.object ?_) .nil)))) .nil)
    exact .cons (.static hsealed (.bool true))
      (.cons (.dynamic hgreeting (.call rfl (by decide) (by decide +kernel))) .nil)
  · exact .path rfl (by decide) (by cbv)

end StatesLang.Template
