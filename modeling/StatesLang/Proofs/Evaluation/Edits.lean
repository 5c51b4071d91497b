import StatesLang.Proofs.Evaluation.Calls

/-!
# Registries under change

Functions are put into a registry and taken out of it. Calls look their functions up by name, at
every depth anew, so that a change shows in the calls in which its name stands, and in no others.

* `Registry.Edit`, `Registry.edited`: a change of one function, and a sequence of changes.
* `Registry.find_edited_of_ne`, `Registry.find_edited_of_last`: which function has a name then.
* **`Registry.edited_frame`**: calls that no change concerns keep their values, and calls of names
  that were taken out fail.
-/

namespace StatesLang.Registry

/-! ## One function -/

section Find

variable {r : Registry} {name other : String} {h : Handler}

theorem lookup_filter (functions : List (String × Handler)) (name other : String) :
    (functions.filter fun f => f.1 != name).lookup other =
      if other = name then none else functions.lookup other := by
  induction functions with
  | nil => simp
  | cons f rest ih =>
    obtain ⟨key, f⟩ := f
    by_cases hkey : key = name
    · subst hkey
      rw [List.filter_cons_of_neg (by simp), ih]
      split
      · rfl
      · next hne => rw [List.lookup_cons, beq_eq_false_iff_ne.2 hne]
    · rw [List.filter_cons_of_pos (by simpa using hkey), List.lookup_cons, List.lookup_cons, ih]
      by_cases hother : other = key
      · subst hother
        simp [hkey]
      · rw [beq_eq_false_iff_ne.2 hother]

theorem find_unregister (r : Registry) (name other : String) :
    (r.unregister name).find? other = if other = name then none else r.find? other :=
  lookup_filter r.functions name other

theorem find_register (r : Registry) (name other : String) (h : Handler) :
    (r.register name h).find? other = if other = name then some h else r.find? other := by
  have hrest := find_unregister r name other
  rw [find?] at hrest
  rw [find?, register, List.lookup_cons]
  by_cases hother : other = name
  · simp [hother]
  · simp only [beq_eq_false_iff_ne.2 hother, hrest, if_neg hother]

end Find

/-! ## Changes -/

/-- A change of a registry. -/
inductive Edit
  | register (name : String) (h : Handler)
  | unregister (name : String)

/-- The name that a change concerns. -/
def Edit.name : Edit → String
  | .register name _ | .unregister name => name

/-- The function that has the name then. -/
def Edit.handler? : Edit → Option Handler
  | .register _ h => some h
  | .unregister _ => none

/-- A registry after a change. -/
def Edit.apply (r : Registry) : Edit → Registry
  | .register name h => r.register name h
  | .unregister name => r.unregister name

/-- A registry after changes one after the other. -/
def edited (r : Registry) (edits : List Edit) : Registry :=
  edits.foldl Edit.apply r

section Edits

variable {r : Registry} {edits : List Edit} {name : String}

/-- A change decides on its name and leaves all others as they are. -/
theorem Edit.find_apply (r : Registry) (e : Edit) (name : String) :
    (e.apply r).find? name = if name = e.name then e.handler? else r.find? name := by
  cases e with
  | register key h => exact find_register r key name h
  | unregister key => exact find_unregister r key name

theorem Edit.limits_apply (r : Registry) (e : Edit) : (e.apply r).limits = r.limits := by
  cases e <;> rfl

theorem limits_edited (r : Registry) (edits : List Edit) : (r.edited edits).limits = r.limits := by
  induction edits generalizing r with
  | nil => rfl
  | cons e edits ih => exact (ih (e.apply r)).trans (e.limits_apply r)

theorem find_edited_of_ne (r : Registry) (h : ∀ e ∈ edits, e.name ≠ name) :
    (r.edited edits).find? name = r.find? name := by
  induction edits generalizing r with
  | nil => rfl
  | cons e edits ih =>
    obtain ⟨he, hedits⟩ := List.forall_mem_cons.1 h
    rw [edited, List.foldl_cons, ← edited, ih (e.apply r) hedits, e.find_apply, if_neg he.symm]

theorem find_edited_of_last (r : Registry) {before after : List Edit} {e : Edit}
    (h : ∀ e' ∈ after, e'.name ≠ e.name) :
    (r.edited (before ++ e :: after)).find? e.name = e.handler? := by
  rw [edited, List.foldl_append, List.foldl_cons, ← edited, find_edited_of_ne _ h, e.find_apply,
    if_pos rfl]

end Edits

/-! ## Calls -/

theorem call_of_find_none {r : Registry} {entropy : UInt64} {c : Call} {sources : Path.Sources}
    (h : r.find? c.name = none) : r.call entropy c sources = .error (.unknown c.name) := by
  rw [call, ← Nat.succ_pred_eq_of_pos (callDepth_pos c), invoke, h]

/-- **Changes show in the calls of their names only.** A call in which no name stands that they
concern, and nothing is random, has the same value as before, or the same error, whatever functions
were put in or taken out. A call of a name that was taken out last fails for want of a function. -/
theorem edited_frame (limits : Settings.Calls) (edits : List Edit) (c : Call)
    (entropy entropy' : UInt64) (sources : Path.Sources) :
    ((∀ d, c.Part d → (∀ e ∈ edits, e.name ≠ d.name) ∧ ¬ d.IsRandom) →
      ((standard limits).edited edits).call entropy c sources =
        (standard limits).call entropy' c sources) ∧
    (∀ before after, edits = before ++ .unregister c.name :: after →
      (∀ e ∈ after, e.name ≠ c.name) →
        ((standard limits).edited edits).call entropy c sources =
          .error (.unknown c.name)) := by
  constructor
  · intro h
    refine call_congr_of_shares ⟨limits_edited _ edits, fun d hd => ?_, fun d _ f hf => ?_⟩
      ⟨fun _ _ _ _ => rfl, .inr fun d hd => (h d hd).2⟩
    · exact find_edited_of_ne _ (h d hd).1
    · exact standard_isPlain hf
  · rintro before after rfl hafter
    exact call_of_find_none (find_edited_of_last _ hafter)

/-- One function is taken out, another one replaced, a new one that calls itself put in, and the one
that makes arrays put in anew and taken out in the end. -/
def rebuilding : List Edit :=
  [.unregister "States.Hash", .register "States.Format" fun _ _ => .error (.refused "closed"),
    .register "Desk.Ring" fun c s => s.resolve 0 (.call c),
    .register "States.Array" fun _ _ => .ok .null, .unregister "States.Array"]

/-- The number of different items. -/
def counting : Call :=
  ⟨"States.ArrayLength", [.call ⟨"States.ArrayUnique", [.path "$"]⟩]⟩

theorem part_counting {d : Call} (h : counting.Part d) :
    d = counting ∨ d = ⟨"States.ArrayUnique", [.path "$"]⟩ := by
  cases h with
  | self => exact .inl rfl
  | param hd he =>
    obtain rfl : _ = _ := Call.Param.call.inj (List.mem_singleton.1 hd)
    cases he with
    | self => exact .inr rfl
    | param hd => exact nomatch List.mem_singleton.1 hd

theorem counting_frame :
    ((standard {}).edited rebuilding).call 7 counting
        ⟨.array [.string "a", .string "b", .string "a"], .null⟩ = .ok (.number (.ofInt 2)) ∧
      ((standard {}).edited rebuilding).call 7 ⟨"States.Array", [.call counting]⟩
        ⟨.array [.string "a", .string "b", .string "a"], .null⟩ =
          .error (.unknown "States.Array") := by
  constructor
  · refine ((edited_frame {} rebuilding counting 7 0 _).1 fun d hd => ?_).trans (by decide +kernel)
    rcases part_counting hd with rfl | rfl
    · exact ⟨by simp [rebuilding, Edit.name, Call.name, counting],
        by simp [Call.IsRandom, Builtin.Draws, Call.name, counting]⟩
    · exact ⟨by simp [rebuilding, Edit.name, Call.name],
        by simp [Call.IsRandom, Builtin.Draws, Call.name]⟩
  · exact (edited_frame {} rebuilding ⟨"States.Array", [.call counting]⟩ 7 7 _).2
      (rebuilding.take 4) [] rfl (List.forall_mem_nil _)

end StatesLang.Registry
