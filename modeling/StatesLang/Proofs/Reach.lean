import Mathlib.Tactic.SplitIfs
import StatesLang.Path.Scoped
import StatesLang.Proofs.Comparison.Equality
import StatesLang.Proofs.Grammar.Path

/-!
# Documents with bounded arrays

An array holds as many items as there is room for, while an index can be any number of 64 bits. So a
path need not lead anywhere in any document.

* `Json.IsWithin`: no array of a document holds more items than a bound.
* `Path.IsWithin`: all indexes of a path are below the bound.
* `Path.nest`: a document in which only the given steps lead to a leaf.
* `Path.exists_follow_iff`: steps lead somewhere exactly if their indexes are below the bound.
* **`Path.selectText_eq_iff`**: two texts select alike exactly if they say the same steps, or both
  lead nowhere.
-/

namespace StatesLang

/-- No array of the document holds more items than the bound. -/
inductive Json.IsWithin (bound : Nat) : Json → Prop
  | null : IsWithin bound .null
  | bool (b : Bool) : IsWithin bound (.bool b)
  | number (n : Number) : IsWithin bound (.number n)
  | string (s : String) : IsWithin bound (.string s)
  | array {items : List Json} (hlength : items.length ≤ bound)
    (h : ∀ item ∈ items, IsWithin bound item) : IsWithin bound (.array items)
  | object {members : List (String × Json)} (h : ∀ m ∈ members, IsWithin bound m.2) :
    IsWithin bound (.object members)

namespace Path

/-- Both documents are within the bound. -/
structure Sources.IsWithin (bound : Nat) (d : Sources) : Prop where
  input : d.input.IsWithin bound
  context : d.context.IsWithin bound

/-- An array within the bound can have an item at the index. -/
def Step.IsWithin (bound : Nat) : Step → Prop
  | .field _ => True
  | .index i => i.toNat < bound

/-- All indexes of the path are below the bound. -/
def IsWithin (bound : Nat) (p : Path) : Prop :=
  ∀ s ∈ p.steps, s.IsWithin bound

instance (bound : Nat) : DecidablePred (Step.IsWithin bound)
  | .field _ => inferInstanceAs (Decidable True)
  | .index i => inferInstanceAs (Decidable (i.toNat < bound))

instance (bound : Nat) : DecidablePred (IsWithin bound) :=
  fun p => inferInstanceAs (Decidable (∀ s ∈ p.steps, s.IsWithin bound))

/-! ## Steps that lead somewhere -/

section Follow

variable {bound : Nat} {document v : Json} {s : Step} {ss : List Step}

theorem isWithin_of_step (hd : document.IsWithin bound) (h : s.follow document = some v) :
    s.IsWithin bound ∧ v.IsWithin bound := by
  cases hd with
  | array hlength hitems =>
    cases s with
    | field => cases h
    | index i =>
      obtain ⟨hlt, rfl⟩ := List.getElem?_eq_some_iff.1 h
      exact ⟨Nat.lt_of_lt_of_le hlt hlength, hitems _ (List.getElem_mem hlt)⟩
  | object hmembers =>
    cases s with
    | field name => exact ⟨trivial, hmembers _ (Json.lookup_mem h)⟩
    | index => cases h
  | null | bool | number | string => cases s <;> cases h

theorem isWithin_of_follow (hd : document.IsWithin bound) (h : follow document ss = some v) :
    ∀ s ∈ ss, s.IsWithin bound := by
  induction ss generalizing document with
  | nil => exact fun s hs => absurd hs List.not_mem_nil
  | cons s ss ih =>
    obtain ⟨next, hs, hrest⟩ := Option.bind_eq_some_iff.1 h
    obtain ⟨hstep, hnext⟩ := isWithin_of_step hd hs
    exact List.forall_mem_cons.2 ⟨hstep, ih hnext hrest⟩

end Follow

/-! ## Documents that tell steps apart -/

/-- A document in which the steps lead to a leaf. -/
def nest (leaf : Json) : List Step → Json
  | [] => leaf
  | .field name :: ss => .object [(name, nest leaf ss)]
  | .index i :: ss => .array (List.replicate i.toNat .null ++ [nest leaf ss])

theorem nest_isWithin {bound : Nat} {leaf : Json} (hleaf : leaf.IsWithin bound) {ss : List Step}
    (h : ∀ s ∈ ss, s.IsWithin bound) : (nest leaf ss).IsWithin bound := by
  induction ss with
  | nil => exact hleaf
  | cons s ss ih =>
    obtain ⟨hstep, hrest⟩ := List.forall_mem_cons.1 h
    cases s with
    | field name => exact .object (List.forall_mem_singleton.2 (ih hrest))
    | index i =>
      refine .array ?_ fun item hitem => ?_
      · rw [List.length_append, List.length_replicate, List.length_singleton]
        exact hstep
      · rcases List.mem_append.1 hitem with hitem | hitem
        · rw [List.eq_of_mem_replicate hitem]
          exact .null
        · rw [List.mem_singleton.1 hitem]
          exact ih hrest

theorem follow_nest_cons (leaf : Json) (s : Step) (ss : List Step) :
    s.follow (nest leaf (s :: ss)) = some (nest leaf ss) := by
  cases s with
  | field name => simp [nest, Step.follow, Json.lookup]
  | index i => simp [nest, Step.follow]

/-- Another step leads nowhere, or to one of the items that fill an array up. -/
theorem eq_of_follow_nest_cons {leaf v : Json} {s s' : Step} {ss : List Step}
    (h : s'.follow (nest leaf (s :: ss)) = some v) : s' = s ∨ v = .null := by
  cases s with
  | field name =>
    cases s' with
    | index => cases h
    | field name' =>
      simp only [nest, Step.follow, Json.lookup] at h
      split_ifs at h with hname
      exact .inl (by rw [hname])
  | index i =>
    cases s' with
    | field => cases h
    | index j =>
      simp only [nest, Step.follow] at h
      rcases Nat.lt_or_ge j.toNat i.toNat with hlt | hge
      · rw [List.getElem?_append_left (by simpa using hlt)] at h
        exact .inr (List.eq_of_mem_replicate (List.mem_of_getElem? h))
      · have hlt := (List.getElem?_eq_some_iff.1 h).1
        rw [List.length_append, List.length_replicate, List.length_singleton] at hlt
        exact .inl (by rw [UInt64.toNat_inj.1 (show j.toNat = i.toNat by omega)])

theorem follow_nest (leaf : Json) (ss : List Step) : follow (nest leaf ss) ss = some leaf := by
  induction ss with
  | nil => rfl
  | cons s ss ih => rw [follow, follow_nest_cons, Option.bind_some, ih]

theorem eq_of_follow_nest {t : String} {ss ss' : List Step}
    (h : follow (nest (.string t) ss) ss' = some (.string t)) : ss' = ss := by
  induction ss generalizing ss' with
  | nil =>
    cases ss' with
    | nil => rfl
    | cons s' ss' => cases s' <;> cases h
  | cons s ss ih =>
    cases ss' with
    | nil => cases s <;> cases h
    | cons s' ss' =>
      obtain ⟨v, hv, htail⟩ := Option.bind_eq_some_iff.1 h
      rcases eq_of_follow_nest_cons hv with rfl | rfl
      · rw [follow_nest_cons] at hv
        cases hv
        rw [ih htail]
      · cases ss' with
        | nil => cases htail
        | cons s'' ss' => cases s'' <;> cases htail

/-- **Steps lead somewhere in some document within the bound exactly if their indexes are below
it.** -/
theorem exists_follow_iff {bound : Nat} {ss : List Step} :
    (∃ document v, document.IsWithin bound ∧ follow document ss = some v) ↔
      ∀ s ∈ ss, s.IsWithin bound := by
  constructor
  · rintro ⟨document, v, hd, h⟩
    exact isWithin_of_follow hd h
  · intro h
    exact ⟨nest .null ss, .null, nest_isWithin .null h, follow_nest .null ss⟩

/-! ## Texts that select alike -/

section Texts

variable {bound : Nat} {text other : String} {p : Path}

theorem selectText_of_parse (h : parse text = .ok p) (document : Json) :
    selectText document text = follow document p.steps := by
  rw [selectText, h]
  rfl

theorem selectText_eq_some_iff {document v : Json} :
    selectText document text = some v ↔
      ∃ p, parse text = .ok p ∧ follow document p.steps = some v := by
  unfold selectText
  split
  · next q hq => simp [hq, select]
  · next d hd => simp [hd]

theorem selectText_of_not_isWithin (hp : parse text = .ok p) (hnot : ¬ p.IsWithin bound)
    {document : Json} (hd : document.IsWithin bound) : selectText document text = none := by
  rw [selectText_of_parse hp]
  exact Option.eq_none_iff_forall_ne_some.2 fun v hv => hnot (isWithin_of_follow hd hv)

/-- **Two texts select alike in all documents within the bound** exactly if they say the same steps,
or neither leads anywhere. -/
theorem selectText_eq_iff (hp : parse text = .ok p) :
    (∀ document : Json, document.IsWithin bound →
        selectText document other = selectText document text) ↔
      Says other.toList p.steps ∨
        (¬ p.IsWithin bound ∧ ∀ q, parse other = .ok q → ¬ q.IsWithin bound) := by
  constructor
  · intro hsame
    by_cases hwithin : p.IsWithin bound
    · have hleaf := hsame _ (nest_isWithin (.string "") hwithin)
      rw [selectText_of_parse hp, follow_nest, selectText_eq_some_iff] at hleaf
      obtain ⟨q, hq, hfollow⟩ := hleaf
      refine .inl ?_
      rw [← eq_of_follow_nest hfollow]
      exact (parse_eq_ok.1 hq).2
    · refine .inr ⟨hwithin, fun q hq hqwithin => hwithin ?_⟩
      obtain ⟨document, v, hd, hv⟩ := exists_follow_iff.2 hqwithin
      have hleaf := hsame document hd
      rw [selectText_of_parse hp, selectText_of_parse hq, hv] at hleaf
      exact isWithin_of_follow hd hleaf.symm
  · rintro (hsteps | ⟨hnot, hother⟩) document hd
    · have hq : parse other = .ok ⟨other, p.steps⟩ := parse_eq_ok.2 ⟨rfl, hsteps⟩
      rw [selectText_of_parse hp, selectText_of_parse hq]
    · rw [selectText_of_not_isWithin hp hnot hd]
      refine Option.eq_none_iff_forall_ne_some.2 fun v hv => ?_
      obtain ⟨q, hq, hfollow⟩ := selectText_eq_some_iff.1 hv
      exact hother q hq (isWithin_of_follow hd hfollow)

end Texts

end Path

end StatesLang
