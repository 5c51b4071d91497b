import StatesLang.Condition.Rule
import StatesLang.Proofs.RoundTrip.Outline
import StatesLang.Proofs.RoundTrip.Timestamp

/-!
# Conditions read back

Only the key of a comparison can stand in the way: some keys that are written are not read.

* `Condition.Comparison.ofKey_eq_some_iff`: the keys that are read.
* `Condition.comparisons`: the comparisons of a condition, in the order in which they are written.
* `Condition.ofJson_compare`, `ofJson_comparePath`, `ofJson_test`: what comes of a written
  comparison or test.
* **`Condition.ofJson_members`**: a written condition reads back, also among the other members of a
  rule, unless one of its comparisons is not legal; then the first such is named.
* **`ChoiceRule.ofJson_toJson`**: so does a written rule.
-/

namespace StatesLang

namespace Condition

/-! ## Keys -/

theorem TypeTest.ofKey_key (t : TypeTest) : ofKey? t.key = some t := by
  cases t <;> decide

theorem TypeTest.ofKey_comparison (k : Comparison) : ofKey? k.key = none := by
  obtain ⟨kind, op, toPath⟩ := k
  cases kind <;> cases op <;> cases toPath <;> decide

theorem Comparison.ofKey_key (k : Comparison) :
    ofKey? k.key = if k.isLegal then some k else none := by
  obtain ⟨kind, op, toPath⟩ := k
  cases kind <;> cases op <;> cases toPath <;> decide +kernel

theorem Operator.name_of_ofName {name : String} {op : Operator} (h : ofName? name = some op) :
    op.name = name := by
  unfold ofName? at h
  simpa using List.find?_some h

theorem Comparison.ofBody_eq_some {toPath : Bool} {body : List Char} {k : Comparison}
    (h : ofBody? toPath body = some k) :
    k.isLegal = true ∧ k.toPath = toPath ∧ k.kind.name.toList ++ k.op.name.toList = body := by
  obtain ⟨kind, -, hk⟩ := List.exists_of_findSome?_eq_some h
  obtain ⟨name, hname, hk⟩ := Option.bind_eq_some_iff.1 hk
  obtain ⟨op, hop, hk⟩ := Option.bind_eq_some_iff.1 hk
  split at hk
  · next hlegal =>
    cases hk
    refine ⟨hlegal, rfl, ?_⟩
    rw [Operator.name_of_ofName hop, String.toList_ofList]
    exact List.isPrefixOf?_eq_some_iff_append_eq.1 hname
  · cases hk

/-- **The keys that are read are those of the legal comparisons**, each with its own. -/
theorem Comparison.ofKey_eq_some_iff {key : String} {k : Comparison} :
    ofKey? key = some k ↔ k.isLegal = true ∧ k.key = key := by
  constructor
  · intro h
    unfold ofKey? at h
    rw [← String.toList_inj]
    split at h
    · next body hbody =>
      obtain ⟨hlegal, hpath, hk⟩ := ofBody_eq_some h
      have hkey := List.isSuffixOf?_eq_some_iff_append_eq.1 hbody
      exact ⟨hlegal, by rw [← hkey]; simp [Comparison.key, hpath, hk]⟩
    · obtain ⟨hlegal, hpath, hk⟩ := ofBody_eq_some h
      exact ⟨hlegal, by simp [Comparison.key, hpath, hk]⟩
  · rintro ⟨hlegal, rfl⟩
    rw [ofKey_key, if_pos hlegal]

/-- A key that can only be that of a comparison or a test. -/
def IsLeafKey (key : String) : Prop :=
  isRemark key = false ∧ key ≠ "And" ∧ key ≠ "Or" ∧ key ≠ "Not"

instance (key : String) : Decidable (IsLeafKey key) :=
  inferInstanceAs (Decidable (_ ∧ _))

theorem TypeTest.isLeafKey (t : TypeTest) : IsLeafKey t.key := by
  cases t <;> decide

theorem Comparison.isLeafKey (k : Comparison) : IsLeafKey k.key := by
  obtain ⟨kind, op, toPath⟩ := k
  cases kind <;> cases op <;> cases toPath <;> decide

/-! ## Literals -/

theorem literalOf_toJson (key : String) (l : Literal) :
    literalOf key l.kind l.toJson = .ok l := by
  cases l with
  | timestamp t =>
    simp [literalOf, Literal.kind, Literal.toJson, Literal.ofJson?, Timestamp.parse_render]
  | _ => rfl

/-! ## Groups -/

section Group

variable {ms : List (String × Json)} {items : List Json} {child : Json}

theorem ofJson_and (h : Json.lookup "And" ms = some (.array items)) :
    ofJson (.object ms) = (ofJsonList items).map .and := by
  rw [ofJson]
  split <;> simp_all

theorem ofJson_or (ha : Json.lookup "And" ms = none)
    (h : Json.lookup "Or" ms = some (.array items)) :
    ofJson (.object ms) = (ofJsonList items).map .or := by
  rw [ofJson]
  split
  · simp_all
  · simp_all
  · split <;> simp_all

theorem ofJson_not (ha : Json.lookup "And" ms = none) (ho : Json.lookup "Or" ms = none)
    (h : Json.lookup "Not" ms = some child) :
    ofJson (.object ms) = (ofJson child).map .not := by
  rw [ofJson]
  split
  · simp_all
  · simp_all
  · split
    · simp_all
    · simp_all
    · split <;> simp_all

theorem ofJson_leaf (ha : Json.lookup "And" ms = none) (ho : Json.lookup "Or" ms = none)
    (hn : Json.lookup "Not" ms = none) : ofJson (.object ms) = leafOf ms := by
  rw [ofJson]
  split
  · simp_all
  · simp_all
  · split
    · simp_all
    · simp_all
    · split <;> simp_all

end Group

/-! ## Members of a condition -/

/-- The members with which a rule goes beyond its condition. -/
def IsExtra (members : List (String × Json)) : Prop :=
  ∀ m ∈ members, m.1 = "Next" ∨ m.1 = "Comment"

theorem isExtra_nil : IsExtra [] :=
  fun _ hm => absurd hm List.not_mem_nil

theorem IsExtra.lookup_eq_none {extra : List (String × Json)} (h : IsExtra extra) {key : String}
    (hk : key ≠ "Next" ∧ key ≠ "Comment") : Json.lookup key extra = none := by
  induction extra with
  | nil => rfl
  | cons m rest ih =>
    obtain ⟨k, v⟩ := m
    have hne : k ≠ key := by
      rintro rfl
      exact (h (k, v) (by simp)).elim hk.1 hk.2
    rw [Json.lookup, if_neg hne]
    exact ih fun m hm => h m (by simp [hm])

theorem IsExtra.filter_eq_nil {extra : List (String × Json)} (h : IsExtra extra) :
    extra.filter (fun m => !isRemark m.1) = [] := by
  rw [List.filter_eq_nil_iff]
  intro m hm
  rcases h m hm with he | he <;> rw [he] <;> decide

/-- The members of the document of a condition. -/
def members : Condition → List (String × Json)
  | .compare path op expected =>
    (if path = "" then [] else [("Variable", .string path)]) ++
      [(Comparison.key ⟨expected.kind, op, false⟩, expected.toJson)]
  | .comparePath path op kind expectedPath =>
    (if path = "" then [] else [("Variable", .string path)]) ++
      [(Comparison.key ⟨kind, op, true⟩, .string expectedPath)]
  | .test path t expected =>
    (if path = "" then [] else [("Variable", .string path)]) ++ [(t.key, .bool expected)]
  | .and children => [("And", .array (toJsonList children))]
  | .or children => [("Or", .array (toJsonList children))]
  | .not child => [("Not", toJson child)]

theorem toJson_eq (c : Condition) : c.toJson = .object c.members := by
  cases c <;> rfl

/-! ## Comparisons and tests -/

section Leaf

variable {path key : String} {operand : Json} {extra : List (String × Json)}

/-- The members of a comparison or a test, and those of its rule. -/
abbrev leafMembers (path key : String) (operand : Json) (extra : List (String × Json)) :
    List (String × Json) :=
  ((if path = "" then [] else [("Variable", .string path)]) ++ [(key, operand)]) ++ extra

theorem lookup_leafMembers (he : IsExtra extra) {k : String}
    (hk : k ≠ "Next" ∧ k ≠ "Comment" ∧ k ≠ "Variable") (hkey : key ≠ k) :
    Json.lookup k (leafMembers path key operand extra) = none := by
  have hx := he.lookup_eq_none ⟨hk.1, hk.2.1⟩
  by_cases hp : path = ""
  · simp [leafMembers, hp, Json.lookup, hkey, hx]
  · simp [leafMembers, hp, Json.lookup, hkey, hx, Ne.symm hk.2.2]

theorem variableOf_leafMembers (he : IsExtra extra) (hkey : IsLeafKey key) :
    variableOf (leafMembers path key operand extra) = .ok path := by
  have hx : Json.lookup "Variable" extra = none := he.lookup_eq_none (by decide)
  have hne : key ≠ "Variable" := by
    rintro rfl
    exact absurd hkey (by decide)
  by_cases hp : path = ""
  · simp [variableOf, leafMembers, hp, Json.lookup, hne, hx]
  · simp [variableOf, leafMembers, hp, Json.lookup]

theorem operatorOf_leafMembers (he : IsExtra extra) (hkey : IsLeafKey key) :
    operatorOf (leafMembers path key operand extra) = .ok (key, operand) := by
  have hv : isRemark "Variable" = true := by decide
  by_cases hp : path = ""
  · simp [operatorOf, leafMembers, hp, he.filter_eq_nil, hkey.1]
  · simp [operatorOf, leafMembers, hp, he.filter_eq_nil, hkey.1, hv]

theorem ofJson_leafMembers (he : IsExtra extra) (hkey : IsLeafKey key) :
    ofJson (.object (leafMembers path key operand extra)) =
      leafOf (leafMembers path key operand extra) :=
  ofJson_leaf (lookup_leafMembers he (by decide) hkey.2.1)
    (lookup_leafMembers he (by decide) hkey.2.2.1) (lookup_leafMembers he (by decide) hkey.2.2.2)

theorem ofJson_test (he : IsExtra extra) (t : TypeTest) (b : Bool) :
    ofJson (.object (leafMembers path t.key (.bool b) extra)) = .ok (.test path t b) := by
  rw [ofJson_leafMembers he t.isLeafKey, leafOf, variableOf_leafMembers he t.isLeafKey,
    operatorOf_leafMembers he t.isLeafKey]
  simp [bind, Except.bind, TypeTest.ofKey_key]

theorem ofJson_compare (he : IsExtra extra) (op : Operator) (l : Literal) :
    ofJson (.object (leafMembers path (Comparison.key ⟨l.kind, op, false⟩) l.toJson extra)) =
      if Comparison.isLegal ⟨l.kind, op, false⟩ then .ok (.compare path op l)
      else .error (.unknownOperator (Comparison.key ⟨l.kind, op, false⟩)) := by
  have hkey := Comparison.isLeafKey ⟨l.kind, op, false⟩
  rw [ofJson_leafMembers he hkey, leafOf, variableOf_leafMembers he hkey,
    operatorOf_leafMembers he hkey]
  simp only [bind, Except.bind, TypeTest.ofKey_comparison, Comparison.ofKey_key]
  by_cases hl : Comparison.isLegal ⟨l.kind, op, false⟩ = true
  · simp only [hl, if_true, literalOf_toJson]
    rfl
  · simp only [hl]
    rfl

theorem ofJson_comparePath (he : IsExtra extra) (op : Operator) (kind : Kind) (p : String) :
    ofJson (.object (leafMembers path (Comparison.key ⟨kind, op, true⟩) (.string p) extra)) =
      if Comparison.isLegal ⟨kind, op, true⟩ then .ok (.comparePath path op kind p)
      else .error (.unknownOperator (Comparison.key ⟨kind, op, true⟩)) := by
  have hkey := Comparison.isLeafKey ⟨kind, op, true⟩
  rw [ofJson_leafMembers he hkey, leafOf, variableOf_leafMembers he hkey,
    operatorOf_leafMembers he hkey]
  simp only [bind, Except.bind, TypeTest.ofKey_comparison, Comparison.ofKey_key]
  by_cases hl : Comparison.isLegal ⟨kind, op, true⟩ = true
  · simp only [hl, if_true]
  · simp only [hl]
    rfl

end Leaf

/-! ## Whole conditions -/

mutual

/-- The comparisons of a condition, in the order in which they are written. -/
def comparisons : Condition → List Comparison
  | .compare _ op expected => [⟨expected.kind, op, false⟩]
  | .comparePath _ op kind _ => [⟨kind, op, true⟩]
  | .test .. => []
  | .and children => comparisonsList children
  | .or children => comparisonsList children
  | .not child => comparisons child

/-- The comparisons of the conditions of a group. -/
def comparisonsList : List Condition → List Comparison
  | [] => []
  | c :: cs => comparisons c ++ comparisonsList cs

end

/-- What becomes of a value that is written with the comparisons of some conditions. -/
def afterReading {α : Type} (a : α) (ks : List Comparison) : Except Defect α :=
  match ks.find? (fun k => !k.isLegal) with
  | none => .ok a
  | some k => .error (.unknownOperator k.key)

theorem afterReading_singleton {α : Type} (a : α) (k : Comparison) :
    afterReading a [k] = if k.isLegal then .ok a else .error (.unknownOperator k.key) := by
  cases hk : k.isLegal <;> simp [afterReading, hk]

theorem map_afterReading {α β : Type} (f : α → β) (a : α) (ks : List Comparison) :
    (afterReading a ks).map f = afterReading (f a) ks := by
  unfold afterReading
  split <;> rfl

theorem afterReading_eq_ok {α : Type} {a : α} {ks : List Comparison} :
    afterReading a ks = .ok a ↔ ∀ k ∈ ks, k.isLegal = true := by
  unfold afterReading
  split
  · next h => simpa using h
  · next k h =>
    have hk := List.find?_some h
    simp only [reduceCtorEq, false_iff]
    intro hall
    simp [hall k (List.mem_of_find?_eq_some h)] at hk

theorem afterReading_eq_error {α : Type} {a : α} {ks : List Comparison}
    (h : ¬ ∀ k ∈ ks, k.isLegal = true) :
    ∃ k ∈ ks, k.isLegal = false ∧ afterReading a ks = .error (.unknownOperator k.key) := by
  cases hf : ks.find? (fun k => !k.isLegal) with
  | none => exact absurd (by simpa using hf) h
  | some k =>
    have hk := List.find?_some hf
    exact ⟨k, List.mem_of_find?_eq_some hf, by simpa using hk, by rw [afterReading, hf]⟩

mutual

/-- **A written condition reads back**, also among the other members of a rule, unless one of its
comparisons is not legal. -/
theorem ofJson_members {extra : List (String × Json)} (he : IsExtra extra) :
    (c : Condition) → ofJson (.object (c.members ++ extra)) = afterReading c c.comparisons
  | .compare path op expected => by
    rw [members, ofJson_compare he, comparisons, afterReading_singleton]
  | .comparePath path op kind expectedPath => by
    rw [members, ofJson_comparePath he, comparisons, afterReading_singleton]
  | .test path t expected => by
    rw [members, ofJson_test he]
    rfl
  | .and children => by
    rw [members, @ofJson_and _ (toJsonList children) rfl, ofJsonList_toJsonList children,
      map_afterReading, comparisons]
  | .or children => by
    rw [members, @ofJson_or _ (toJsonList children)
      (by simp [Json.lookup, he.lookup_eq_none]) rfl, ofJsonList_toJsonList children,
      map_afterReading, comparisons]
  | .not child => by
    have hc := ofJson_members isExtra_nil child
    rw [List.append_nil, ← toJson_eq] at hc
    rw [members, @ofJson_not _ (toJson child) (by simp [Json.lookup, he.lookup_eq_none])
      (by simp [Json.lookup, he.lookup_eq_none]) rfl, hc, map_afterReading, comparisons]

theorem ofJsonList_toJsonList :
    (cs : List Condition) → ofJsonList (toJsonList cs) = afterReading cs (comparisonsList cs)
  | [] => by simp [toJsonList, ofJsonList, comparisonsList, afterReading]
  | c :: cs => by
    have hc := ofJson_members isExtra_nil c
    rw [List.append_nil, ← toJson_eq] at hc
    rw [toJsonList, ofJsonList, hc, ofJsonList_toJsonList cs, comparisonsList]
    unfold afterReading
    rw [List.find?_append]
    cases (comparisons c).find? (fun k => !k.isLegal) <;>
      cases (comparisonsList cs).find? (fun k => !k.isLegal) <;> rfl

end

/-- A written condition reads back unless one of its comparisons is not legal. -/
theorem ofJson_toJson (c : Condition) : ofJson c.toJson = afterReading c c.comparisons := by
  have h := ofJson_members isExtra_nil c
  rwa [List.append_nil, ← toJson_eq] at h

/-! ## Rules -/

theorem lookup_members {key : String} (hk : isRemark key = true) (hv : key ≠ "Variable")
    (c : Condition) : Json.lookup key c.members = none := by
  have hleaf : ∀ path k (operand : Json), IsLeafKey k → Json.lookup key
      ((if path = "" then [] else [("Variable", .string path)]) ++ [(k, operand)]) = none := by
    intro path k operand hkey
    have hne : k ≠ key := by
      rintro rfl
      exact absurd hk (by simp [hkey.1])
    by_cases hp : path = ""
    · simp [hp, Json.lookup, hne]
    · simp [hp, Json.lookup, hne, Ne.symm hv]
  have hand : "And" ≠ key := by rintro rfl; exact absurd hk (by decide)
  have hor : "Or" ≠ key := by rintro rfl; exact absurd hk (by decide)
  have hnot : "Not" ≠ key := by rintro rfl; exact absurd hk (by decide)
  cases c with
  | compare path op expected => exact hleaf _ _ _ (Comparison.isLeafKey _)
  | comparePath path op kind expectedPath => exact hleaf _ _ _ (Comparison.isLeafKey _)
  | test path t expected => exact hleaf _ _ _ t.isLeafKey
  | and children => simp [members, Json.lookup, hand]
  | or children => simp [members, Json.lookup, hor]
  | not child => simp [members, Json.lookup, hnot]

end Condition

namespace ChoiceRule

/-- The members of a rule beside those of its condition. -/
def extra (r : ChoiceRule) : List (String × Json) :=
  ("Next", .string r.next) :: (r.comment.toList.map fun comment => ("Comment", .string comment))

theorem isExtra (r : ChoiceRule) : Condition.IsExtra r.extra := by
  intro m hm
  rcases List.mem_cons.1 hm with rfl | hm
  · exact Or.inl rfl
  · obtain ⟨_, _, rfl⟩ := List.mem_map.1 hm
    exact Or.inr rfl

theorem toJson_eq (r : ChoiceRule) : r.toJson = .object (r.condition.members ++ r.extra) := by
  have hnext : Json.lookup "Next" r.condition.members = none :=
    Condition.lookup_members (by decide) (by decide) _
  have hcomment : Json.lookup "Comment" r.condition.members = none :=
    Condition.lookup_members (by decide) (by decide) _
  obtain ⟨condition, next, comment⟩ := r
  cases comment with
  | none =>
    simp only [toJson, Condition.toJson_eq, withMember, Json.insert_of_lookup hnext]
    rfl
  | some text =>
    have hc : Json.lookup "Comment" (condition.members ++ [("Next", .string next)]) = none := by
      rw [Json.lookup_append, hcomment]
      rfl
    simp only [toJson, Condition.toJson_eq, withMember, Json.insert_of_lookup hnext,
      Json.insert_of_lookup hc, List.append_assoc]
    rfl

/-- **A written rule reads back** unless a comparison of its condition is not legal. -/
theorem ofJson_toJson {r : ChoiceRule} (h : ∀ k ∈ r.condition.comparisons, k.isLegal = true) :
    ofJson r.toJson = .ok r := by
  have hnext : Json.lookup "Next" r.condition.members = none :=
    Condition.lookup_members (by decide) (by decide) _
  have hcomment : Json.lookup "Comment" r.condition.members = none :=
    Condition.lookup_members (by decide) (by decide) _
  have hc : Condition.ofJson (.object (r.condition.members ++ r.extra)) = .ok r.condition := by
    rw [Condition.ofJson_members r.isExtra, Condition.afterReading_eq_ok]
    exact h
  obtain ⟨condition, next, comment⟩ := r
  rw [toJson_eq, ofJson]
  simp only [Json.member?, Json.lookup_append, hnext, hcomment, Option.none_or, hc]
  cases comment <;> simp [extra, Json.lookup, Json.string?]

end ChoiceRule

end StatesLang
