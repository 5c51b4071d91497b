import Mathlib.Data.List.Perm.Subperm
import StatesLang.Json.Combine
import StatesLang.Proofs.Comparison.Number
import StatesLang.Proofs.RoundTrip.Outline

/-!
# Equality by value

Documents are compared part by part. Arrays and objects are the same if they have the same parts in
the same positions, whatever the order in which an object lists its members.

* `Json.Position`, `Json.child?`: the parts of a document and where they stand.
* `Json.same_iff`: equality by value in terms of the parts.
* **`Json.sameValue_equivalence_unless_split`**: it is reflexive and symmetric, and transitive
  except where a double stands between two different integers.
-/

namespace StatesLang.Json

/-! ## Parts -/

/-- Where a part stands in a document. -/
inductive Position
  | item (i : Nat)
  | member (key : String)

/-- The part of a document in a position. -/
def child? : Json → Position → Option Json
  | .array items, .item i => items[i]?
  | .object members, .member key => lookup key members
  | _, _ => none

theorem sizeOf_of_child {a b : Json} {p : Position} (h : a.child? p = some b) :
    sizeOf b < sizeOf a := by
  unfold child? at h
  split at h
  · next items i =>
    have := List.sizeOf_lt_of_mem (List.mem_of_getElem? h)
    simp
    omega
  · next members key =>
    have := sizeOf_of_lookup h
    simp
    omega
  · cases h

/-- What holds of a document as soon as it holds of its parts holds of all documents. -/
@[elab_as_elim]
theorem child_induction {motive : Json → Prop}
    (step : ∀ a, (∀ p b, a.child? p = some b → motive b) → motive a) (a : Json) : motive a :=
  step a fun _ b hb =>
    have := sizeOf_of_child hb
    child_induction step b
termination_by sizeOf a

/-- A document and the documents inside it, at any depth. -/
inductive Part : Json → Json → Prop
  | self (a : Json) : Part a a
  | child {a b c : Json} {p : Position} (hb : a.child? p = some b) (hc : Part b c) : Part a c

theorem lookup_mem {key : String} {value : Json} {ms : List (String × Json)}
    (h : lookup key ms = some value) : (key, value) ∈ ms := by
  induction ms with
  | nil => cases h
  | cons m rest ih =>
    obtain ⟨k, v⟩ := m
    by_cases hk : k = key
    · rw [lookup, if_pos hk] at h
      cases h
      rw [hk]
      exact List.mem_cons_self
    · rw [lookup, if_neg hk] at h
      exact List.mem_cons_of_mem _ (ih h)

theorem lookup_of_mem {ms : List (String × Json)} (hd : (ms.map Prod.fst).Nodup) {key : String}
    {value : Json} (h : (key, value) ∈ ms) : lookup key ms = some value := by
  induction ms with
  | nil => cases h
  | cons m rest ih =>
    obtain ⟨k, v⟩ := m
    obtain ⟨hnew, hd⟩ := List.nodup_cons.1 hd
    rcases List.mem_cons.1 h with he | h
    · cases he
      rw [lookup, if_pos rfl]
    · have hk : k ≠ key := by
        rintro rfl
        exact hnew (List.mem_map.2 ⟨_, h, rfl⟩)
      rw [lookup, if_neg hk, ih hd h]

theorem keysDistinctItems_iff {items : List Json} :
    KeysDistinctItems items ↔ ∀ item ∈ items, item.KeysDistinct := by
  induction items with
  | nil => simp [KeysDistinctItems]
  | cons item rest ih => simp [KeysDistinctItems, ih]

theorem KeysDistinct.nodup {members : List (String × Json)} (h : (object members).KeysDistinct) :
    (members.map Prod.fst).Nodup :=
  h.1

theorem KeysDistinct.member {members : List (String × Json)} {key : String} {value : Json}
    (h : (object members).KeysDistinct) (hvalue : lookup key members = some value) :
    value.KeysDistinct :=
  keysDistinctMembers_iff.1 h.2 _ (lookup_mem hvalue)

theorem KeysDistinct.item {items : List Json} {i : Nat} {item : Json}
    (h : (array items).KeysDistinct) (hitem : items[i]? = some item) : item.KeysDistinct :=
  keysDistinctItems_iff.1 h item (List.mem_of_getElem? hitem)

theorem KeysDistinct.child {a b : Json} {p : Position} (h : a.KeysDistinct)
    (hb : a.child? p = some b) : b.KeysDistinct := by
  unfold child? at hb
  split at hb
  · exact h.item hb
  · exact h.member hb
  · cases hb

/-! ## Arrays and objects -/

theorem rel_iff {r : Json → Json → Prop} {x y : Option Json} :
    Option.Rel r x y ↔ (x = none ↔ y = none) ∧ ∀ a b, x = some a → y = some b → r a b := by
  cases x <;> cases y <;> simp

/-- Two documents have the same value. -/
def Same (a b : Json) : Prop :=
  sameValue a b = true

theorem sameItems_iff {as bs : List Json} :
    sameItems as bs = true ↔ ∀ i : Nat, Option.Rel Same as[i]? bs[i]? := by
  induction as generalizing bs with
  | nil =>
    cases bs with
    | nil => simp [sameItems]
    | cons b bs =>
      refine iff_of_false (by simp [sameItems]) fun h => ?_
      cases h 0
  | cons a as ih =>
    cases bs with
    | nil =>
      refine iff_of_false (by simp [sameItems]) fun h => ?_
      cases h 0
    | cons b bs =>
      rw [sameItems, Bool.and_eq_true, ih]
      constructor
      · rintro ⟨hab, hrest⟩ i
        cases i with
        | zero => exact .some hab
        | succ i => exact hrest i
      · intro h
        refine ⟨?_, fun i => h (i + 1)⟩
        cases h 0 with
        | some hab => exact hab

theorem sameMembers_iff {as bs : List (String × Json)} :
    sameMembers as bs = true ↔ ∀ m ∈ as, ∃ b, lookup m.1 bs = some b ∧ Same m.2 b := by
  induction as with
  | nil => simp [sameMembers]
  | cons m as ih =>
    obtain ⟨key, a⟩ := m
    rw [sameMembers, Bool.and_eq_true, ih, List.forall_mem_cons]
    cases lookup key bs <;> simp [Same]

/-- Two objects with as many members have the same keys, if one has all keys of the other. -/
theorem keys_perm {as bs : List (String × Json)} (ha : (as.map Prod.fst).Nodup)
    (hlength : as.length = bs.length)
    (hsub : as.map Prod.fst ⊆ bs.map Prod.fst) :
    (as.map Prod.fst).Perm (bs.map Prod.fst) :=
  (List.subperm_of_subset ha hsub).perm_of_length_le (by simp [hlength])

/-- Objects are compared by the keys of one of them and by their sizes, and this is the same as to
compare them under every key. -/
theorem sameObjects_iff {as bs : List (String × Json)} (ha : (as.map Prod.fst).Nodup)
    (hb : (bs.map Prod.fst).Nodup) :
    (as.length = bs.length ∧ sameMembers as bs = true) ↔
      ∀ key, Option.Rel Same (lookup key as) (lookup key bs) := by
  rw [sameMembers_iff]
  constructor
  · rintro ⟨hlength, hmembers⟩ key
    have hsub : as.map Prod.fst ⊆ bs.map Prod.fst := by
      intro k hk
      obtain ⟨m, hm, rfl⟩ := List.mem_map.1 hk
      obtain ⟨b, hlookup, -⟩ := hmembers m hm
      exact List.mem_map.2 ⟨_, lookup_mem hlookup, rfl⟩
    cases hlookup : lookup key as with
    | none =>
      rw [lookup_eq_none, (keys_perm ha hlength hsub).mem_iff, ← lookup_eq_none] at hlookup
      rw [hlookup]
      exact .none
    | some a =>
      obtain ⟨b, hb', hab⟩ := hmembers _ (lookup_mem hlookup)
      rw [hb']
      exact .some hab
  · intro h
    have hkeys : ∀ key, key ∈ as.map Prod.fst ↔ key ∈ bs.map Prod.fst := by
      intro key
      rw [← not_iff_not, ← lookup_eq_none, ← lookup_eq_none]
      exact (rel_iff.1 (h key)).1
    refine ⟨?_, fun m hm => ?_⟩
    · simpa using ((List.perm_ext_iff_of_nodup ha hb).2 hkeys).length_eq
    · have hm' := h m.1
      rw [lookup_of_mem ha hm] at hm'
      generalize lookup m.1 bs = o at hm'
      cases hm' with
      | some hab => exact ⟨_, rfl, hab⟩

/-! ## Documents -/

/-- Two documents are of one kind, and equal as far as nothing stands inside them. -/
def SameHead : Json → Json → Prop
  | .null, .null | .array _, .array _ | .object _, .object _ => True
  | .bool a, .bool b => a = b
  | .number x, .number y => x.compare y = .eq
  | .string s, .string t => s = t
  | _, _ => False

/-- Documents have the same value if they are of one kind and have the same parts. -/
theorem same_iff {a b : Json} (ha : a.KeysDistinct) (hb : b.KeysDistinct) :
    Same a b ↔ SameHead a b ∧ ∀ p, Option.Rel Same (a.child? p) (b.child? p) := by
  cases a <;> cases b
  case array.array as bs =>
    rw [Same, sameValue, sameItems_iff]
    constructor
    · intro h
      refine ⟨trivial, fun p => ?_⟩
      cases p with
      | item i => exact h i
      | member key => exact .none
    · exact fun h i => h.2 (.item i)
  case object.object as bs =>
    rw [Same, sameValue, Bool.and_eq_true, beq_iff_eq, sameObjects_iff ha.1 hb.1]
    constructor
    · intro h
      refine ⟨trivial, fun p => ?_⟩
      cases p with
      | item i => exact .none
      | member key => exact h key
    · exact fun h key => h.2 (.member key)
  -- of the other kinds no document has parts
  all_goals simp [Same, sameValue, SameHead, child?]

/-! ## Reflexivity and symmetry -/

theorem sameHead_refl (a : Json) : SameHead a a := by
  cases a with
  | number x => exact x.compare_self
  | bool | string => exact rfl
  | null | array | object => trivial

theorem SameHead.symm {a b : Json} (h : SameHead a b) : SameHead b a := by
  cases a <;> cases b
  case number.number x y =>
    rw [SameHead, ← Number.compare_swap x y, show x.compare y = .eq from h]
    rfl
  all_goals simp_all [SameHead]

theorem same_refl (a : Json) (ha : a.KeysDistinct) : Same a a := by
  induction a using child_induction with
  | step a ih =>
    refine (same_iff ha ha).2 ⟨sameHead_refl a, fun p => rel_iff.2 ⟨Iff.rfl, ?_⟩⟩
    intro b b' hb hb'
    cases hb.symm.trans hb'
    exact ih p b hb (ha.child hb)

theorem Same.symm {a b : Json} (ha : a.KeysDistinct) (hb : b.KeysDistinct) (h : Same a b) :
    Same b a := by
  induction a using child_induction generalizing b with
  | step a ih =>
    obtain ⟨hhead, hparts⟩ := (same_iff ha hb).1 h
    refine (same_iff hb ha).2 ⟨hhead.symm, fun p => ?_⟩
    obtain ⟨hnone, hsome⟩ := rel_iff.1 (hparts p)
    refine rel_iff.2 ⟨hnone.symm, fun b' a' hb' ha' => ?_⟩
    exact ih p a' ha' (ha.child ha') (hb.child hb') (hsome a' b' ha' hb')

/-! ## Transitivity -/

/-- A document has a double in a position where two others have different integers. -/
inductive Splits : Json → Json → Json → Prop
  | number {x y z : Number} (h : Number.Splits x y z) : Splits (.number x) (.number y) (.number z)
  | child {a b c a' b' c' : Json} {p : Position} (ha : a.child? p = some a')
    (hb : b.child? p = some b') (hc : c.child? p = some c') (h : Splits a' b' c') : Splits a b c

theorem SameHead.trans {a b c : Json} (hab : SameHead a b) (hbc : SameHead b c)
    (hsplit : ¬ Splits a b c) : SameHead a c := by
  cases a <;> cases b <;> simp only [SameHead] at hab
  case number.number x y =>
    cases c <;> simp only [SameHead] at hbc
    case number z => exact (Number.compare_trans_iff hab hbc).2 fun h => hsplit (.number h)
  case bool.bool | string.string => rwa [hab]
  all_goals cases c <;> simp_all [SameHead]

theorem Same.trans {a b c : Json} (ha : a.KeysDistinct) (hb : b.KeysDistinct)
    (hc : c.KeysDistinct) (hab : Same a b) (hbc : Same b c) (hsplit : ¬ Splits a b c) :
    Same a c := by
  induction a using child_induction generalizing b c with
  | step a ih =>
    obtain ⟨hab, habparts⟩ := (same_iff ha hb).1 hab
    obtain ⟨hbc, hbcparts⟩ := (same_iff hb hc).1 hbc
    refine (same_iff ha hc).2 ⟨hab.trans hbc hsplit, fun p => ?_⟩
    obtain ⟨habnone, habsome⟩ := rel_iff.1 (habparts p)
    obtain ⟨hbcnone, hbcsome⟩ := rel_iff.1 (hbcparts p)
    refine rel_iff.2 ⟨habnone.trans hbcnone, fun a' c' ha' hc' => ?_⟩
    cases hb' : b.child? p with
    | none =>
      rw [habnone.2 hb'] at ha'
      cases ha'
    | some b' =>
      exact ih p a' ha' (ha.child ha') (hb.child hb') (hc.child hc') (habsome a' b' ha' hb')
        (hbcsome b' c' hb' hc') fun h => hsplit (.child ha' hb' hc' h)

theorem Splits.not_same {a b c : Json} (h : Splits a b c) (ha : a.KeysDistinct)
    (hc : c.KeysDistinct) : ¬ Same a c := by
  induction h with
  | number h =>
    obtain ⟨m, n, r, hne, rfl, rfl, rfl⟩ := h
    intro hsame
    exact hne (Number.compare_int_eq.1 ((same_iff ha hc).1 hsame).1)
  | @child _ _ _ a' _ c' p ha' _ hc' _ ih =>
    intro hsame
    have hparts := rel_iff.1 (((same_iff ha hc).1 hsame).2 p)
    exact ih (ha.child ha') (hc.child hc') (hparts.2 a' c' ha' hc')

/-- What a document splits are integers nearest to the same double. -/
theorem Splits.exists_integers {a b c : Json} (h : Splits a b c) (ha : a.KeysDistinct)
    (hb : b.KeysDistinct) (hc : c.KeysDistinct) (hab : Same a b) (hbc : Same b c) :
    ∃ m n : WideInt, m ≠ n ∧ a.Part (.number (.int m)) ∧ c.Part (.number (.int n)) ∧
      (Binary64.ofInt m.1).value = (Binary64.ofInt n.1).value := by
  induction h with
  | number h =>
    obtain ⟨m, n, r, hne, rfl, rfl, rfl⟩ := h
    have hab := Number.value_eq_of_compare ((same_iff ha hb).1 hab).1
    have hbc := Number.value_eq_of_compare ((same_iff hb hc).1 hbc).1
    exact ⟨m, n, hne, .self _, .self _, hab.trans hbc⟩
  | @child _ _ _ a' b' c' p ha' hb' hc' _ ih =>
    have hab := (rel_iff.1 (((same_iff ha hb).1 hab).2 p)).2 a' b' ha' hb'
    have hbc := (rel_iff.1 (((same_iff hb hc).1 hbc).2 p)).2 b' c' hb' hc'
    obtain ⟨m, n, hne, hm, hn, hvalue⟩ :=
      ih (ha.child ha') (hb.child hb') (hc.child hc') hab hbc
    exact ⟨m, n, hne, .child ha' hm, .child hc' hn, hvalue⟩

/-- All integers in a document have at most 53 bits, so that they are doubles. -/
def IntegersExact (a : Json) : Prop :=
  ∀ n : WideInt, a.Part (.number (.int n)) → n.1.natAbs ≤ 2 ^ 53

theorem not_splits_of_integersExact {a b c : Json} (ha : a.KeysDistinct) (hb : b.KeysDistinct)
    (hc : c.KeysDistinct) (hab : Same a b) (hbc : Same b c) (hexact : a.IntegersExact)
    (hexact' : c.IntegersExact) : ¬ Splits a b c := by
  intro h
  obtain ⟨m, n, hne, hm, hn, hvalue⟩ := h.exists_integers ha hb hc hab hbc
  rw [Binary64.value_ofInt (hexact m hm), Binary64.value_ofInt (hexact' n hn)] at hvalue
  have hone : (Binary64.one : Int) ≠ 0 := by decide
  exact hne (Subtype.ext (Int.eq_of_mul_eq_mul_right hone hvalue))

/-- **Equality by value is reflexive and symmetric**, and it is transitive except where a double
stands between two different integers. So among documents whose integers have at most 53 bits it is
an equivalence. -/
theorem sameValue_equivalence_unless_split {a b c : Json} (ha : a.KeysDistinct)
    (hb : b.KeysDistinct) (hc : c.KeysDistinct) :
    sameValue a a = true ∧ sameValue a b = sameValue b a ∧
      (sameValue a b = true → sameValue b c = true →
        (sameValue a c = true ↔ ¬ Splits a b c) ∧
        (a.IntegersExact → c.IntegersExact → sameValue a c = true)) := by
  refine ⟨same_refl a ha, Bool.eq_iff_iff.2 ⟨Same.symm ha hb, Same.symm hb ha⟩, ?_⟩
  intro hab hbc
  have htrans : ¬ Splits a b c → Same a c := Same.trans ha hb hc hab hbc
  refine ⟨⟨fun h hsplit => hsplit.not_same ha hc h, htrans⟩, fun hexact hexact' => ?_⟩
  exact htrans (not_splits_of_integersExact ha hb hc hab hbc hexact hexact')

/-- A price as an integer or a double, and members in one order or the other. -/
theorem prices_not_split :
    sameValue (.object [("net", .number (.ofInt 7)), ("tags", .array [.string "new"])])
      (.object [("tags", .array [.string "new"]), ("net", .number (.real (.ofInt 7)))]) = true ∧
    ¬ Splits (.object [("net", .number (.ofInt 7)), ("tags", .array [.string "new"])])
      (.object [("tags", .array [.string "new"]), ("net", .number (.real (.ofInt 7)))])
      (.object [("net", .number (.ofInt 7)), ("tags", .array [.string "new"])]) := by
  have hint : KeysDistinct
      (.object [("net", .number (.ofInt 7)), ("tags", .array [.string "new"])]) := by
    simp [KeysDistinct, KeysDistinctMembers, KeysDistinctItems]
  have hreal : KeysDistinct
      (.object [("tags", .array [.string "new"]), ("net", .number (.real (.ofInt 7)))]) := by
    simp [KeysDistinct, KeysDistinctMembers, KeysDistinctItems]
  obtain ⟨hrefl, hsymm, htrans⟩ := sameValue_equivalence_unless_split hint hreal hint
  have hsame : sameValue (.object [("net", .number (.ofInt 7)), ("tags", .array [.string "new"])])
      (.object [("tags", .array [.string "new"]), ("net", .number (.real (.ofInt 7)))]) = true := by
    decide +kernel
  exact ⟨hsame, (htrans hsame (hsymm.symm.trans hsame)).1.1 hrefl⟩

/-- The double `2^53` is the same as the integers `2^53 + 1` and `2^53`, which differ. -/
theorem sameValue_not_transitive :
    ∃ a b c : Json, a.KeysDistinct ∧ b.KeysDistinct ∧ c.KeysDistinct ∧
      sameValue a b = true ∧ sameValue b c = true ∧ sameValue a c = false :=
  ⟨.number (.ofInt 9007199254740993), .number (.real (.ofInt 9007199254740992)),
    .number (.ofInt 9007199254740992), trivial, trivial, trivial, by decide +kernel,
    by decide +kernel, by decide +kernel⟩

end StatesLang.Json
