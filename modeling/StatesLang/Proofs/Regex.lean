import StatesLang.Regex

/-!
# Where regular expressions match

* `Regex.Starts`: nodes match from a place in a text on; `Regex.Occurs`: they match anywhere.
* `Regex.Tells`: a row of entries, one for each place in a text, that tell what holds there.
* `Regex.row_tells`: a row tells where nodes match.
* `Regex.Engine.IsFaithful`: an engine whose tests tell whether an expression matches anywhere.
* **`Regex.compile?_isFaithful`**: so do the tests by rows.
-/

namespace StatesLang.Regex

variable {ns : List Node} {before cs rest : List Char} {c : Char}

/-! ## Matches -/

/-- Nodes match from a place in a text on, given what stands before and behind it. -/
def Starts : List Node → List Char → List Char → Prop
  | [], _, _ => True
  | .start :: ns, before, rest => before = [] ∧ Starts ns before rest
  | .finish :: ns, before, rest => rest = [] ∧ Starts ns before rest
  | .any :: ns, before, rest => ∃ c after, rest = c :: after ∧ Starts ns (before ++ [c]) after
  | .run :: ns, before, rest => ∃ mid after, rest = mid ++ after ∧ Starts ns (before ++ mid) after
  | .exactly c :: ns, before, rest => ∃ after, rest = c :: after ∧ Starts ns (before ++ [c]) after

/-- Nodes match from some place in a text on. -/
def Occurs (ns : List Node) (text : List Char) : Prop :=
  ∃ before rest, text = before ++ rest ∧ Starts ns before rest

theorem exists_append_nil {R : List Char → List Char → Prop} :
    (∃ mid after, [] = mid ++ after ∧ R mid after) ↔ R [] [] := by
  constructor
  · rintro ⟨mid, after, h, hR⟩
    obtain ⟨rfl, rfl⟩ := List.append_eq_nil_iff.1 h.symm
    exact hR
  · exact fun hR => ⟨[], [], rfl, hR⟩

theorem exists_append_cons {R : List Char → List Char → Prop} :
    (∃ mid after, c :: cs = mid ++ after ∧ R mid after) ↔
      R [] (c :: cs) ∨ ∃ mid after, cs = mid ++ after ∧ R (c :: mid) after := by
  constructor
  · rintro ⟨mid, after, h, hR⟩
    obtain ⟨rfl, rfl⟩ | ⟨mid, rfl, rfl⟩ := List.cons_eq_append_iff.1 h
    · exact .inl hR
    · exact .inr ⟨mid, after, rfl, hR⟩
  · rintro (hR | ⟨mid, after, rfl, hR⟩)
    · exact ⟨[], c :: cs, rfl, hR⟩
    · exact ⟨c :: mid, after, rfl, hR⟩

theorem starts_run_nil : Starts (.run :: ns) before [] ↔ Starts ns before [] := by
  rw [Starts, exists_append_nil, List.append_nil]

theorem starts_run_cons : Starts (.run :: ns) before (c :: rest) ↔
    Starts ns before (c :: rest) ∨ Starts (.run :: ns) (before ++ [c]) rest := by
  simp only [Starts, exists_append_cons, List.append_nil, List.append_assoc, List.singleton_append]

/-! ## Rows -/

/-- A row of entries tells where something holds: one entry for each place, from one in a text to
its end. -/
inductive Tells (P : List Char → List Char → Prop) : List Char → List Char → List Bool → Prop
  | last {before : List Char} {b : Bool} (h : b = true ↔ P before []) : Tells P before [] [b]
  | next {before cs : List Char} {c : Char} {b : Bool} {bs : List Bool}
    (h : b = true ↔ P before (c :: cs)) (hs : Tells P (before ++ [c]) cs bs) :
    Tells P before (c :: cs) (b :: bs)

section Tells

variable {P Q : List Char → List Char → Prop} {bs : List Bool}

theorem Tells.exists_cons (h : Tells P before cs bs) :
    ∃ b rest, bs = b :: rest ∧ (b = true ↔ P before cs) := by
  cases h with
  | last h => exact ⟨_, _, rfl, h⟩
  | next h _ => exact ⟨_, _, rfl, h⟩

theorem Tells.headD (h : Tells P before cs bs) : bs.headD false = true ↔ P before cs := by
  obtain ⟨b, rest, rfl, hb⟩ := h.exists_cons
  exact hb

theorem tells_true (before cs : List Char) :
    Tells (Starts []) before cs (List.replicate (cs.length + 1) true) := by
  induction cs generalizing before with
  | nil => exact .last (iff_of_true rfl trivial)
  | cons c cs ih => exact .next (iff_of_true rfl trivial) (ih _)

theorem Tells.never (h : Tells P before cs bs) (hbefore : before ≠ []) :
    Tells (Starts (.start :: ns)) before cs (bs.map fun _ => false) := by
  induction h with
  | last => exact .last (iff_of_false Bool.false_ne_true fun h => hbefore h.1)
  | next _ _ ih =>
    refine .next (iff_of_false Bool.false_ne_true fun h => hbefore h.1) ?_
    exact ih (List.concat_ne_nil _ _)

theorem Tells.onlyFirst (h : Tells (Starts ns) [] cs bs) :
    Tells (Starts (.start :: ns)) [] cs (onlyFirst bs) := by
  cases h with
  | last h => exact .last (by simpa [Starts] using h)
  | next h hs => exact .next (by simpa [Starts] using h) (hs.never (List.cons_ne_nil _ _))

theorem Tells.onlyLast (h : Tells (Starts ns) before cs bs) :
    Tells (Starts (.finish :: ns)) before cs (onlyLast bs) := by
  induction h with
  | last h => exact .last (by simpa [Starts] using h)
  | next _ hs ih =>
    obtain ⟨b, rest, rfl, -⟩ := hs.exists_cons
    exact .next (by simp [Starts]) ih

theorem Tells.any (h : Tells (Starts ns) before cs bs) :
    Tells (Starts (.any :: ns)) before cs (bs.tail ++ [false]) := by
  induction h with
  | last => exact .last (by simp [Starts])
  | next _ hs ih =>
    obtain ⟨b, rest, rfl, hb⟩ := hs.exists_cons
    refine .next ?_ ih
    rw [hb, Starts]
    constructor
    · exact fun h => ⟨_, _, rfl, h⟩
    · rintro ⟨_, _, ⟨⟩, h⟩
      exact h

theorem Tells.exactly (c : Char) (h : Tells (Starts ns) before cs bs) :
    Tells (Starts (.exactly c :: ns)) before cs
      (List.zipWith (fun d b => d == c && b) cs bs.tail ++ [false]) := by
  induction h with
  | last => exact .last (by simp [Starts])
  | next _ hs ih =>
    obtain ⟨b, rest, rfl, hb⟩ := hs.exists_cons
    refine .next ?_ ih
    rw [Bool.and_eq_true, beq_iff_eq, hb, Starts]
    constructor
    · rintro ⟨rfl, h⟩
      exact ⟨_, rfl, h⟩
    · rintro ⟨after, ⟨⟩, h⟩
      exact ⟨rfl, h⟩

theorem Tells.orAfter (h : Tells (Starts ns) before cs bs) :
    Tells (Starts (.run :: ns)) before cs (orAfter bs) := by
  induction h with
  | last h => exact .last (by simpa [Regex.orAfter, starts_run_nil] using h)
  | next h _ ih =>
    refine .next ?_ ih
    rw [starts_run_cons, Bool.or_eq_true, h, ih.headD]

theorem Tells.contains_iff (h : Tells P before cs bs) :
    bs.contains true = true ↔ ∃ mid rest, cs = mid ++ rest ∧ P (before ++ mid) rest := by
  induction h with
  | last h =>
    simp only [List.contains_cons, List.contains_nil, Bool.or_false, beq_iff_eq,
      eq_comm (a := true), h, exists_append_nil, List.append_nil]
  | next h _ ih =>
    simp only [List.contains_cons, Bool.or_eq_true, beq_iff_eq, eq_comm (a := true), h, ih,
      exists_append_cons, List.append_nil, List.append_assoc, List.singleton_append]

end Tells

/-- **A row tells where nodes match.** -/
theorem row_tells (cs : List Char) (ns : List Node) : Tells (Starts ns) [] cs (row cs ns) := by
  induction ns with
  | nil => exact tells_true [] cs
  | cons n ns ih =>
    cases n with
    | start => exact ih.onlyFirst
    | finish => exact ih.onlyLast
    | any => exact ih.any
    | run => exact ih.orAfter
    | exactly c => exact ih.exactly c

theorem occurs_iff {text : String} : occurs ns text = true ↔ Occurs ns text.toList :=
  (row_tells text.toList ns).contains_iff

/-! ## Engines -/

/-- The tests that an engine makes of expressions tell whether these match anywhere in a text. -/
def Engine.IsFaithful (engine : Engine) : Prop :=
  ∀ {expression test ns}, engine expression = some test → parse? expression = some ns →
    ∀ text, test text = true ↔ Occurs ns text.toList

/-- **Rows tell whether an expression matches anywhere in a text.** -/
theorem compile?_isFaithful : Engine.IsFaithful compile? := by
  intro expression test ns htest hparse text
  simp only [compile?, hparse, Option.bind_eq_bind, Option.bind_some, Option.ite_none_right_eq_some,
    Option.some.injEq] at htest
  rw [← htest.2, occurs_iff]

end StatesLang.Regex
