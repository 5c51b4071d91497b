import Mathlib.Logic.Relation
import StatesLang.Proofs.RoundTrip.Parsed.Parts

/-!
# Operators of conditions

A comparison or a test is read from an object with a single operator. `And`, `Or` and `Not` are
looked for before anything else, and what stands beside them is dropped.

* `Condition.operatorKeys`, `Condition.operatorKey`: the operators of an object, and that of a
  condition.
* `Condition.Operand`: a condition inside another one, and the document that it is read from.
* `Condition.ReadAs`: all that an object can be read as.
* `Condition.ofJson_of_operand`, `Condition.ofJson_of_part`: parts are read from parts.
* **`Condition.operator_alone_iff`**: where the operator of a condition is the only one.
-/

namespace StatesLang

theorem Json.lookup_filter (p : String → Bool) (key : String) (ms : List (String × Json)) :
    lookup key (ms.filter fun m => p m.1) = if p key then lookup key ms else none := by
  induction ms with
  | nil => simp [lookup]
  | cons m rest ih =>
    obtain ⟨k, v⟩ := m
    by_cases hk : k = key
    · subst hk
      cases hp : p k <;> simp [hp, lookup, ih]
    · cases hp : p k <;> simp [hp, lookup, hk, ih]

namespace Condition

/-! ## Keys -/

/-- The key under which a condition is written. -/
def operatorKey : Condition → String
  | .compare _ op expected => Comparison.key ⟨expected.kind, op, false⟩
  | .comparePath _ op kind _ => Comparison.key ⟨kind, op, true⟩
  | .test _ t _ => t.key
  | .and _ => "And"
  | .or _ => "Or"
  | .not _ => "Not"

/-- The operators of an object: its keys without the remarks. -/
def operatorKeys (ms : List (String × Json)) : List String :=
  (ms.filter fun m => !isRemark m.1).map Prod.fst

/-- The operators that are looked for first. -/
def groupKeys : List String :=
  ["And", "Or", "Not"]

/-- One of these stands beside another operator. -/
def Overloads (ms : List (String × Json)) : Prop :=
  ∃ group ∈ groupKeys, group ∈ operatorKeys ms ∧ ∃ key ∈ operatorKeys ms, key ≠ group

instance (ms : List (String × Json)) : Decidable (Overloads ms) :=
  inferInstanceAs (Decidable (∃ group ∈ _, _ ∧ ∃ key ∈ _, key ≠ group))

theorem mem_operatorKeys {ms : List (String × Json)} {key : String} :
    key ∈ operatorKeys ms ↔ isRemark key = false ∧ Json.lookup key ms ≠ none := by
  rw [Ne, Json.lookup_eq_none, Classical.not_not, operatorKeys]
  simp only [List.mem_map, List.mem_filter, Bool.not_eq_true']
  constructor
  · rintro ⟨m, ⟨hm, hr⟩, rfl⟩
    exact ⟨hr, m, hm, rfl⟩
  · rintro ⟨hr, m, hm, rfl⟩
    exact ⟨m, ⟨hm, hr⟩, rfl⟩

theorem mem_operatorKeys_of_lookup {ms : List (String × Json)} {key : String} {v : Json}
    (hkey : key ∈ groupKeys) (h : Json.lookup key ms = some v) : key ∈ operatorKeys ms := by
  refine mem_operatorKeys.2 ⟨?_, by simp [h]⟩
  simp only [groupKeys, List.mem_cons, List.not_mem_nil, or_false] at hkey
  rcases hkey with rfl | rfl | rfl <;> decide

theorem operatorKeys_members (c : Condition) : operatorKeys c.members = [c.operatorKey] := by
  have hleaf : ∀ path key (operand : Json), IsLeafKey key →
      operatorKeys ((if path = "" then [] else [("Variable", .string path)]) ++ [(key, operand)]) =
        [key] := by
    intro path key operand hkey
    have hv : isRemark "Variable" = true := by decide
    by_cases hp : path = ""
    · simp [operatorKeys, hp, hkey.1]
    · simp [operatorKeys, hp, hkey.1, hv]
  cases c with
  | compare path op expected => exact hleaf _ _ _ (Comparison.isLeafKey _)
  | comparePath path op kind expectedPath => exact hleaf _ _ _ (Comparison.isLeafKey _)
  | test path t expected => exact hleaf _ _ _ t.isLeafKey
  | and children => rfl
  | or children => rfl
  | not child => rfl

/-! ## One level -/

theorem operatorKeys_of_operatorOf {ms : List (String × Json)} {key : String} {operand : Json}
    (h : operatorOf ms = .ok (key, operand)) : operatorKeys ms = [key] := by
  unfold operatorOf at h
  split at h
  · cases h
  · next he =>
    cases h
    rw [operatorKeys, he]
    rfl
  · cases h

theorem operatorKeys_of_leafOf {ms : List (String × Json)} {c : Condition}
    (h : leafOf ms = .ok c) : operatorKeys ms = [c.operatorKey] := by
  rw [leafOf, Decode.bind_eq_ok] at h
  obtain ⟨path, -, h⟩ := h
  obtain ⟨⟨key, operand⟩, hop, h⟩ := Decode.bind_eq_ok.1 h
  rw [operatorKeys_of_operatorOf hop]
  dsimp only at h
  split at h
  · next t ht =>
    split at h
    · cases h
      have hkey := List.find?_some ht
      rw [operatorKey, beq_iff_eq.1 hkey]
    · cases h
  · split at h
    · cases h
    · next kind op hk =>
      split at h
      · cases h
        rw [operatorKey, (Comparison.ofKey_eq_some_iff.1 hk).2]
      · cases h
    · next kind op hk =>
      obtain ⟨l, hl, h⟩ := Decode.bind_eq_ok.1 h
      cases h
      rw [operatorKey, kind_literalOf hl, (Comparison.ofKey_eq_some_iff.1 hk).2]

/-- What an object is read as: a group under the first of the keys that it has, else a comparison or
a test. -/
inductive ReadAs (ms : List (String × Json)) : Condition → Prop
  | and {items cs} (h : Json.lookup "And" ms = some (.array items))
      (hs : ofJsonList items = .ok cs) : ReadAs ms (.and cs)
  | or {items cs} (ha : Json.lookup "And" ms = none)
      (h : Json.lookup "Or" ms = some (.array items)) (hs : ofJsonList items = .ok cs) :
      ReadAs ms (.or cs)
  | not {v c} (ha : Json.lookup "And" ms = none) (ho : Json.lookup "Or" ms = none)
      (h : Json.lookup "Not" ms = some v) (hc : ofJson v = .ok c) : ReadAs ms (.not c)
  | leaf {c} (ha : Json.lookup "And" ms = none) (ho : Json.lookup "Or" ms = none)
      (hn : Json.lookup "Not" ms = none) (h : leafOf ms = .ok c) : ReadAs ms c

variable {ms : List (String × Json)} {c : Condition}

theorem readAs_of_ofJson (h : ofJson (.object ms) = .ok c) : ReadAs ms c := by
  rw [ofJson] at h
  split at h
  · next ha =>
    obtain ⟨cs, hcs, rfl⟩ := Decode.map_eq_ok.1 h
    exact .and ha hcs
  · cases h
  · next ha =>
    split at h
    · next ho =>
      obtain ⟨cs, hcs, rfl⟩ := Decode.map_eq_ok.1 h
      exact .or ha ho hcs
    · cases h
    · next ho =>
      split at h
      · next hn =>
        obtain ⟨d, hd, rfl⟩ := Decode.map_eq_ok.1 h
        exact .not ha ho hn hd
      · next hn => exact .leaf ha ho hn h

theorem ReadAs.ofJson_eq (h : ReadAs ms c) : ofJson (.object ms) = .ok c := by
  cases h with
  | and h hs => rw [ofJson_and h, hs]; rfl
  | or ha h hs => rw [ofJson_or ha h, hs]; rfl
  | not ha ho h hc => rw [ofJson_not ha ho h, hc]; rfl
  | leaf ha ho hn h => rw [ofJson_leaf ha ho hn, h]

/-- The operator of a comparison or a test is the only one. That of a group is one of those that are
looked for first. -/
theorem ReadAs.operatorKey (h : ReadAs ms c) :
    operatorKeys ms = [c.operatorKey] ∧ (∀ group ∈ groupKeys, group ∉ operatorKeys ms) ∨
      c.operatorKey ∈ groupKeys ∧ c.operatorKey ∈ operatorKeys ms := by
  cases h with
  | and h =>
    have hkey : "And" ∈ groupKeys := by decide
    exact .inr ⟨hkey, mem_operatorKeys_of_lookup hkey h⟩
  | or _ h =>
    have hkey : "Or" ∈ groupKeys := by decide
    exact .inr ⟨hkey, mem_operatorKeys_of_lookup hkey h⟩
  | not _ _ h =>
    have hkey : "Not" ∈ groupKeys := by decide
    exact .inr ⟨hkey, mem_operatorKeys_of_lookup hkey h⟩
  | leaf ha ho hn h =>
    refine .inl ⟨operatorKeys_of_leafOf h, fun group hg hmem => ?_⟩
    simp only [groupKeys, List.mem_cons, List.not_mem_nil, or_false] at hg
    rcases hg with rfl | rfl | rfl
    · exact (mem_operatorKeys.1 hmem).2 ha
    · exact (mem_operatorKeys.1 hmem).2 ho
    · exact (mem_operatorKeys.1 hmem).2 hn

theorem ReadAs.filter (h : ReadAs ms c) :
    ReadAs (ms.filter fun m => isRemark m.1 || m.1 == c.operatorKey) c := by
  have hlookup := fun key => Json.lookup_filter (fun k => isRemark k || k == c.operatorKey) key ms
  cases h with
  | and h hs => exact .and ((hlookup "And").trans h) hs
  | or ha h hs => exact .or ((hlookup "And").trans (by simp [ha])) ((hlookup "Or").trans h) hs
  | not ha ho h hc =>
    exact .not ((hlookup "And").trans (by simp [ha])) ((hlookup "Or").trans (by simp [ho]))
      ((hlookup "Not").trans h) hc
  | leaf ha ho hn h =>
    have hall : ms.filter (fun m => isRemark m.1 || m.1 == c.operatorKey) = ms := by
      refine List.filter_eq_self.2 fun m hm => ?_
      have hone := operatorKeys_of_leafOf h
      cases hr : isRemark m.1 with
      | true => rfl
      | false =>
        have hmem : m.1 ∈ operatorKeys ms :=
          List.mem_map_of_mem (List.mem_filter.2 ⟨hm, by simp [hr]⟩)
        rw [hone, List.mem_singleton] at hmem
        simp [hmem]
    rw [hall]
    exact .leaf ha ho hn h

/-! ## All levels -/

/-- A document with its condition, and one inside it with the condition that stands there. -/
inductive Operand : Json × Condition → Json × Condition → Prop
  | and {ms items cs p} (h : Json.lookup "And" ms = some (.array items)) (hp : p ∈ items.zip cs) :
      Operand (.object ms, .and cs) p
  | or {ms items cs p} (h : Json.lookup "Or" ms = some (.array items)) (hp : p ∈ items.zip cs) :
      Operand (.object ms, .or cs) p
  | not {ms v c} (h : Json.lookup "Not" ms = some v) : Operand (.object ms, .not c) (v, c)

theorem ofJson_of_zip {items : List Json} {cs : List Condition} (h : ofJsonList items = .ok cs)
    {p : Json × Condition} (hp : p ∈ items.zip cs) : ofJson p.1 = .ok p.2 := by
  induction items generalizing cs with
  | nil => simp at hp
  | cons item items ih =>
    rw [ofJsonList, Decode.bind_eq_ok] at h
    obtain ⟨d, hd, h⟩ := h
    obtain ⟨ds, hds, h⟩ := Decode.bind_eq_ok.1 h
    cases h
    rw [List.zip_cons_cons, List.mem_cons] at hp
    rcases hp with rfl | hp
    · exact hd
    · exact ih hds hp

/-- What stands inside a condition is read by itself from what stands inside its document. -/
theorem ofJson_of_operand {p q : Json × Condition} (h : Operand p q) (hp : ofJson p.1 = .ok p.2) :
    ofJson q.1 = .ok q.2 := by
  cases h with
  | and h hq =>
    cases readAs_of_ofJson hp with
    | and h' hs =>
      obtain rfl := Json.array.inj (Option.some.inj (h.symm.trans h'))
      exact ofJson_of_zip hs hq
    | leaf ha => cases h.symm.trans ha
  | or h hq =>
    cases readAs_of_ofJson hp with
    | or _ h' hs =>
      obtain rfl := Json.array.inj (Option.some.inj (h.symm.trans h'))
      exact ofJson_of_zip hs hq
    | leaf _ ho => cases h.symm.trans ho
  | not h =>
    cases readAs_of_ofJson hp with
    | not _ _ h' hc =>
      obtain rfl := Option.some.inj (h.symm.trans h')
      exact hc
    | leaf _ _ hn => cases h.symm.trans hn

theorem ofJson_of_part {p q : Json × Condition} (h : Relation.ReflTransGen Operand p q)
    (hp : ofJson p.1 = .ok p.2) : ofJson q.1 = .ok q.2 := by
  induction h with
  | refl => exact hp
  | tail _ hstep ih => exact ofJson_of_operand hstep ih

/-- **Where the operator of a condition is the only one.** At every level, a condition is read from
an object that has the operator under which it is written. There is no other one, unless `And`, `Or`
or `Not` stands beside it: then this group is read, and all other operators are dropped. -/
theorem operator_alone_iff {v : Json} (hv : ofJson v = .ok c) {d : Condition}
    (hpart : Relation.ReflTransGen Operand (v, c) (.object ms, d)) :
    (∃ written, d.toJson = .object written ∧ operatorKeys written = [d.operatorKey]) ∧
      d.operatorKey ∈ operatorKeys ms ∧
      ((∀ key ∈ operatorKeys ms, key = d.operatorKey) ↔ ¬ Overloads ms) ∧
      ofJson (.object (ms.filter fun m => isRemark m.1 || m.1 == d.operatorKey)) = .ok d := by
  have hread : ReadAs ms d := readAs_of_ofJson (ofJson_of_part hpart hv)
  refine ⟨⟨d.members, d.toJson_eq, d.operatorKeys_members⟩, ?_⟩
  rcases hread.operatorKey with ⟨hone, hnone⟩ | ⟨hgroup, hmem⟩
  · refine ⟨by simp [hone], iff_of_true (by simp [hone]) ?_, hread.filter.ofJson_eq⟩
    rintro ⟨group, hg, hmem, -⟩
    exact hnone group hg hmem
  · refine ⟨hmem, ⟨?_, fun hnot key hkey => ?_⟩, hread.filter.ofJson_eq⟩
    · rintro hall ⟨group, -, hg, key, hkey, hne⟩
      exact hne ((hall key hkey).trans (hall group hg).symm)
    · exact Decidable.byContradiction fun hne => hnot ⟨_, hgroup, hmem, key, hkey, hne⟩

/-- A group with a remark, and in it a test behind `Not`. -/
def remarked : Json :=
  .object [("Comment", .string "both"), ("And", .array [
    .object [("Not", .object [("IsNull", .bool true), ("Variable", .string "$.a")])]])]

theorem remarked_operator_alone :
    ofJson remarked = .ok (.and [.not (.test "$.a" .isNull true)]) ∧
      ∀ key ∈ operatorKeys [("IsNull", .bool true), ("Variable", .string "$.a")],
        key = "IsNull" := by
  have hv : ofJson remarked = .ok (.and [.not (.test "$.a" .isNull true)]) := by cbv
  have hnot : Operand (remarked, .and [.not (.test "$.a" .isNull true)])
      (.object [("Not", .object [("IsNull", .bool true), ("Variable", .string "$.a")])],
        .not (.test "$.a" .isNull true)) :=
    .and rfl (.head _)
  have hpart := (Relation.ReflTransGen.single hnot).tail (.not rfl)
  exact ⟨hv, (operator_alone_iff hv hpart).2.2.1.2 (by decide)⟩

/-- A comparison beside `Not` is dropped without notice. -/
theorem comparison_dropped :
    ∃ ms c, ofJson (.object ms) = .ok c ∧ operatorKeys ms = ["StringEquals", "Not"] ∧
      c = .not (.test "$.a" .isNull true) :=
  ⟨[("Variable", .string "$.b"), ("StringEquals", .string "x"),
    ("Not", .object [("Variable", .string "$.a"), ("IsNull", .bool true)])], _, by cbv, by cbv, rfl⟩

end Condition

end StatesLang
