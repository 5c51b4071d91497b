import Mathlib.Data.List.Basic
import StatesLang.Proofs.Grammar.Path
import StatesLang.Proofs.Grammar.Word

/-!
# Paths as bare words

* `Path.EachName`: steps as they are written, with a property of every name behind a dot.
* `Path.PlainName.word`, `Path.Bracketed.word`: the bare words that steps make.
* `Path.EachName.stepsText_word`: a word without the escapes says the same steps if no name holds a
  reserved character.
* **`Path.EachName.of_stepsText_word`**: and only then.
-/

namespace StatesLang.Path

open Call (Word Enclosed InQuotes isDelimiter)

/-- Steps as they are written. Every name behind a dot has a property of what is written and of what
it says. -/
inductive EachName (P : List Char → List Char → Prop) : List Char → List Step → Prop
  | nil : EachName P [] []
  | dotted {raw name rest ss} (h : PlainName raw name) (hne : name ≠ []) (hP : P raw name)
      (hs : EachName P rest ss) :
      EachName P ('.' :: (raw ++ rest)) (.field (String.ofList name) :: ss)
  | bracketed {raw s rest ss} (h : Bracketed raw s) (hs : EachName P rest ss) :
      EachName P ('[' :: (raw ++ rest)) (s :: ss)

variable {P Q : List Char → List Char → Prop} {cs : List Char} {ss : List Step}

theorem EachName.stepsText (h : EachName P cs ss) : StepsText cs ss := by
  induction h with
  | nil => exact .nil
  | dotted h hne _ _ ih => exact .cons (.dotted h hne) ih
  | bracketed h _ ih => exact .cons (.bracketed h) ih

/-! ## A text has one reading -/

theorem PlainName.unique {raw raw' name name' rest rest' : List Char} (h : PlainName raw name)
    (h' : PlainName raw' name') (hrest : AtStep rest) (hrest' : AtStep rest')
    (he : raw ++ rest = raw' ++ rest') : raw = raw' ∧ name = name' ∧ rest = rest' := by
  obtain ⟨position, hr⟩ := unquotedName_complete h hrest 0
  obtain ⟨position', hr'⟩ := unquotedName_complete h' hrest' 0
  rw [he, hr'] at hr
  cases hr
  exact ⟨List.append_cancel_right he, rfl, rfl⟩

theorem Bracketed.unique {raw raw' rest rest' : List Char} {s s' : Step} (h : Bracketed raw s)
    (h' : Bracketed raw' s') (he : raw ++ rest = raw' ++ rest') :
    raw = raw' ∧ s = s' ∧ rest = rest' := by
  obtain ⟨position, hr⟩ := indexer_complete h rest 0
  obtain ⟨position', hr'⟩ := indexer_complete h' rest' 0
  rw [he, hr'] at hr
  cases hr
  exact ⟨List.append_cancel_right he, rfl, rfl⟩

theorem EachName.and {ss' : List Step} (h : EachName P cs ss) (h' : EachName Q cs ss') :
    EachName (fun raw name => P raw name ∧ Q raw name) cs ss := by
  induction h generalizing ss' with
  | nil => exact .nil
  | @dotted raw name rest ss h hne hP hs ih =>
    generalize hcs : '.' :: (raw ++ rest) = cs at h'
    cases h' with
    | nil => cases hcs
    | dotted h' _ hQ hs' =>
      obtain ⟨rfl, rfl, rfl⟩ :=
        h.unique h' hs.stepsText.atStep hs'.stepsText.atStep (List.cons.inj hcs).2
      exact .dotted h hne ⟨hP, hQ⟩ (ih hs')
    | bracketed => cases (List.cons.inj hcs).1
  | @bracketed raw s rest ss h hs ih =>
    generalize hcs : '[' :: (raw ++ rest) = cs at h'
    cases h' with
    | nil => cases hcs
    | dotted => cases (List.cons.inj hcs).1
    | bracketed h' hs' =>
      obtain ⟨rfl, rfl, rfl⟩ := h.unique h' (List.cons.inj hcs).2
      exact .bracketed h (ih hs')

theorem StepsText.of_dot (h : StepsText ('.' :: cs) ss) :
    ∃ raw name rest ss', cs = raw ++ rest ∧ ss = .field (String.ofList name) :: ss' ∧
      PlainName raw name ∧ StepsText rest ss' := by
  generalize hcs : '.' :: cs = text at h
  cases h with
  | nil => cases hcs
  | cons h hs =>
    cases h with
    | dotted h => exact ⟨_, _, _, _, (List.cons.inj hcs).2, rfl, h, hs⟩
    | bracketed => cases (List.cons.inj hcs).1

theorem StepsText.of_bracket (h : StepsText ('[' :: cs) ss) :
    ∃ raw s rest ss', cs = raw ++ rest ∧ ss = s :: ss' ∧ Bracketed raw s ∧ StepsText rest ss' := by
  generalize hcs : '[' :: cs = text at h
  cases h with
  | nil => cases hcs
  | cons h hs =>
    cases h with
    | dotted => cases (List.cons.inj hcs).1
    | bracketed h => exact ⟨_, _, _, _, (List.cons.inj hcs).2, rfl, h, hs⟩

/-! ## Words -/

theorem PlainName.word {raw name : List Char} (h : PlainName raw name)
    (hd : ∀ c ∈ raw, isDelimiter c = false) : Word raw name := by
  induction h with
  | nil => exact .nil
  | escaped c _ ih =>
    exact .escaped c (ih fun d hmem => hd d (List.mem_cons_of_mem _ (List.mem_cons_of_mem _ hmem)))
  | @plain c raw name hc _ ih =>
    refine .plain (hd c List.mem_cons_self) (fun hmem => hc ?_)
      (ih fun d hmem => hd d (List.mem_cons_of_mem _ hmem))
    simp only [List.mem_cons, List.not_mem_nil, or_false] at hmem
    rcases hmem with rfl | rfl | rfl <;> decide

theorem QuotedName.inQuotes {quote : Char} {raw name : List Char} (h : QuotedName quote raw name) :
    InQuotes quote raw := by
  induction h with
  | nil => exact .nil
  | escaped c _ ih => exact .escaped c ih
  | plain hq hb _ ih => exact .plain hq hb ih

theorem Bracketed.exists_enclosed {raw : List Char} {s : Step} (h : Bracketed raw s) :
    ∃ inner, raw = inner ++ [']'] ∧ Enclosed inner := by
  cases h with
  | @field quote raw name hquote h =>
    exact ⟨quote :: (raw ++ [quote]), by simp, .quoted hquote h.inQuotes .nil⟩
  | @index before cs after i hb h ha =>
    refine ⟨before ++ cs ++ after, rfl, Enclosed.of_plain fun c hc hmem => ?_⟩
    have hodd : Text.isBlank c = false ∧ c.isDigit = false ∧ c ≠ '+' := by
      simp only [List.mem_cons, List.not_mem_nil, or_false] at hmem
      rcases hmem with rfl | rfl | rfl | rfl | rfl <;> decide
    exact h.notMem_padded hb ha hodd.1 hodd.2.1 hodd.2.2 hc

theorem Bracketed.word {raw : List Char} {s : Step} (h : Bracketed raw s) {rest w : List Char}
    (hw : Word rest w) : Word ('[' :: (raw ++ rest)) ('[' :: (raw ++ w)) := by
  obtain ⟨inner, rfl, hi⟩ := h.exists_enclosed
  simpa using Word.brackets hi hw

/-! ## Names without reserved characters -/

theorem PlainName.length_le {raw name : List Char} (h : PlainName raw name) :
    name.length ≤ raw.length := by
  induction h with
  | nil => exact Nat.le_refl _
  | escaped c _ ih =>
    simp only [List.length_cons]
    omega
  | plain _ _ ih =>
    simp only [List.length_cons]
    omega

theorem PlainName.notMem_reserved {raw name : List Char} (h : PlainName raw name)
    (hl : raw.length = name.length) : ∀ c ∈ name, c ∉ reserved := by
  induction h with
  | nil => exact nofun
  | escaped c h _ =>
    have hle := h.length_le
    simp only [List.length_cons] at hl
    omega
  | plain hc _ ih =>
    rintro d (_ | ⟨_, hd⟩)
    · exact hc
    · exact ih (by simpa using hl) d hd

theorem plainName_self {name : List Char} (h : ∀ c ∈ name, c ∉ reserved) : PlainName name name := by
  induction name with
  | nil => exact .nil
  | cons c name ih =>
    exact .plain (h c List.mem_cons_self) (ih fun d hd => h d (List.mem_cons_of_mem _ hd))

/-- An escape adds backslashes only. -/
theorem PlainName.count {raw name : List Char} (h : PlainName raw name) {x : Char} (hx : x ≠ '\\') :
    raw.count x = name.count x := by
  induction h with
  | nil => rfl
  | escaped c _ ih => rw [List.count_cons_of_ne hx.symm, List.count_cons, List.count_cons, ih]
  | plain _ _ ih => rw [List.count_cons, List.count_cons, ih]

theorem PlainName.eq_of_append {raw name rest w : List Char} (h : PlainName raw name)
    (he : raw ++ rest = name ++ w) (hw : AtStep w) : raw = name := by
  refine (@Call.eq_of_append_of_count [] _ _ _ _ he h.length_le fun d hd => h.count ?_).1
  rcases hw d hd with rfl | rfl <;> decide

/-! ## Steps without escapes -/

/-- Two characters that stand side by side in a text stand so in one of its parts, unless the first
part ends with the first of them. -/
theorem infix_of_append {a b : Char} {cs ds : List Char} (h : [a, b] <:+: cs ++ ds)
    (hlast : cs.getLast? ≠ some a) : [a, b] <:+: cs ∨ [a, b] <:+: ds := by
  induction cs with
  | nil => exact .inr h
  | cons c cs ih =>
    rw [List.cons_append, List.infix_cons_iff] at h
    cases cs with
    | nil =>
      refine .inr (h.resolve_left fun hpre => hlast ?_)
      rw [List.getLast?_singleton, (List.cons_prefix_cons.1 hpre).1]
    | cons d cs =>
      rw [List.getLast?_cons_cons] at hlast
      rcases h with h | h
      · rw [List.cons_append, List.cons_prefix_cons, List.cons_prefix_cons] at h
        obtain ⟨rfl, rfl, -⟩ := h
        exact .inl (List.infix_cons_iff.2 (.inl (by simp)))
      · exact (ih h hlast).imp_left fun h => List.infix_cons_iff.2 (.inr h)

/-- A name that holds no reserved character. -/
def Unreserved (_raw name : List Char) : Prop :=
  ∀ c ∈ name, c ∉ reserved

/-- A name that is written without delimiters. -/
def Undelimited (raw _name : List Char) : Prop :=
  ∀ c ∈ raw, isDelimiter c = false

instance (raw name : List Char) : Decidable (Unreserved raw name) :=
  List.decidableBAll _ name

instance (raw name : List Char) : Decidable (Undelimited raw name) :=
  List.decidableBAll _ raw

/-- Steps whose names hold no reserved character say the same without the backslashes, and scan
only where they did. -/
theorem EachName.stepsText_word
    (h : EachName (fun raw name => Undelimited raw name ∧ Unreserved raw name) cs ss) :
    ∃ w, Word cs w ∧ StepsText w ss ∧ (['.', '.'] <:+: w → ['.', '.'] <:+: cs) := by
  induction h with
  | nil => exact ⟨[], .nil, .nil, id⟩
  | @dotted raw name rest ss h hne hP _ ih =>
    obtain ⟨w, hw, hs, hscan⟩ := ih
    obtain ⟨hd, hr⟩ := hP
    have hnodot : '.' ∉ name := fun hmem => hr _ hmem (by decide)
    refine ⟨'.' :: (name ++ w), .plain (by decide) (by decide) ((h.word hd).append hw),
      .cons (.dotted (plainName_self hr) hne) hs, fun hinfix => ?_⟩
    obtain ⟨c, name, rfl⟩ := List.exists_cons_of_ne_nil hne
    have hlast : ('.' :: c :: name).getLast? ≠ some '.' := by
      rw [List.getLast?_cons_cons]
      exact fun hlast => hnodot (List.mem_of_getLast? hlast)
    rcases infix_of_append hinfix hlast with h | h
    · rw [List.infix_cons_iff, List.cons_prefix_cons, List.cons_prefix_cons] at h
      rcases h with ⟨-, rfl, -⟩ | h
      · exact absurd List.mem_cons_self hnodot
      · exact absurd (h.subset List.mem_cons_self) hnodot
    · exact (hscan h).trans ((List.suffix_append raw rest).isInfix.trans
        (List.suffix_cons _ _).isInfix)
  | @bracketed raw s rest ss h _ ih =>
    obtain ⟨w, hw, hs, hscan⟩ := ih
    refine ⟨'[' :: (raw ++ w), h.word hw, .cons (.bracketed h) hs, fun hinfix => ?_⟩
    obtain ⟨inner, rfl, -⟩ := h.exists_enclosed
    rw [← List.cons_append, ← List.cons_append] at hinfix ⊢
    rcases infix_of_append hinfix (by simp [List.getLast?_cons]) with h | h
    · exact h.trans (List.prefix_append _ rest).isInfix
    · exact (hscan h).trans (List.suffix_append _ rest).isInfix

/-- **Only such steps do.** -/
theorem EachName.of_stepsText_word (h : EachName Undelimited cs ss) :
    ∃ w, Word cs w ∧ AtStep w ∧ (StepsText w ss → EachName Unreserved cs ss) := by
  induction h with
  | nil => exact ⟨[], .nil, atStep_nil, fun _ => .nil⟩
  | @dotted raw name rest ss h hne hd _ ih =>
    obtain ⟨w, hw, hat, hback⟩ := ih
    refine ⟨'.' :: (name ++ w), .plain (by decide) (by decide) ((h.word hd).append hw),
      fun c hc => .inl (Option.mem_some_iff.1 hc).symm, fun hs => ?_⟩
    obtain ⟨raw', name', rest', ss', he, hss, h', hs'⟩ := hs.of_dot
    obtain ⟨hname, rfl⟩ := List.cons.inj hss
    rw [← String.ofList_injective (Step.field.inj hname)] at h'
    have hself : raw' = name := h'.eq_of_append he.symm hat
    rw [hself] at h' he
    rw [← List.append_cancel_left he] at hs'
    exact .dotted h hne (h'.notMem_reserved rfl) (hback hs')
  | @bracketed raw s rest ss h _ ih =>
    obtain ⟨w, hw, hat, hback⟩ := ih
    refine ⟨'[' :: (raw ++ w), h.word hw, fun c hc => .inr (Option.mem_some_iff.1 hc).symm,
      fun hs => ?_⟩
    obtain ⟨raw', s', rest', ss', he, hss, h', hs'⟩ := hs.of_bracket
    obtain ⟨-, rfl⟩ := List.cons.inj hss
    obtain ⟨-, -, rfl⟩ := h.unique h' he
    exact .bracketed h (hback hs')

end StatesLang.Path
