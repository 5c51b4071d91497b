import StatesLang.Builtin.Standard
import StatesLang.Proofs.RoundTrip.Record

/-!
# What functions depend on

A function is handed the whole scope of its call, the documents in it. The standard functions read
the values of their parameters and the limits, and two of them draw on chance.

* `Handler.IsPlain`: what a function may read, and how it may fail.
* `Builtin.FailsAs`: every failure is one of the call itself, with its closure lemmas.
* `Builtin.Draws`, `Builtin.Grows`: the calls that have random values, and those that make arrays as
  long as they are told to.
* **`Registry.standard_isPlain`**: the standard functions read and fail in no other way.
-/

namespace StatesLang

theorem Decode.bind_eq_error {ε α β : Type} {x : Except ε α} {f : α → Except ε β} {e : ε} :
    x >>= f = .error e ↔ x = .error e ∨ ∃ a, x = .ok a ∧ f a = .error e := by
  cases x <;> simp [bind, Except.bind]

namespace Handler

/-- The parameters of a call have the same values in two scopes, which have the same limits. -/
structure Scope.Agree (c : Call) (s s' : Scope) : Prop where
  limits : s.limits = s'.limits
  resolve : ∀ i p, c.params[i]? = some p → s.resolve i p = s'.resolve i p

/-- A function that reads of its scope only the limits and the values of the parameters, and the
entropy only if the number of parameters is one for which it draws. Its errors are those of the
parameters and failures of the call. It breaks off only if it makes arrays as long as it is told to,
and the limit lets them get too long. -/
structure IsPlain (draws : Nat → Prop) (grows : Prop) (h : Handler) : Prop where
  congr : ∀ {c s s'}, Scope.Agree c s s' → (s.entropy = s'.entropy ∨ ¬ draws c.params.length) →
    h c s = h c s'
  error : ∀ {c s e}, h c s = .error e →
    (∃ f, e = .failed c.render f) ∨
      (e = .oversized ∧ grows ∧ Builtin.capacity < s.limits.maxArrayRangeItems) ∨
      ∃ i p, c.params[i]? = some p ∧ s.resolve i p = .error e

theorem IsPlain.mono {draws draws' : Nat → Prop} {grows : Prop} {h : Handler}
    (hh : h.IsPlain draws grows) (hle : ∀ n, draws n → draws' n) : h.IsPlain draws' grows where
  congr hs he := hh.congr hs (he.imp_right fun hn hd => hn (hle _ hd))
  error he := hh.error he

/-! ## Values of all parameters -/

namespace Scope

variable {s s' : Scope}

theorem resolveFrom_congr : {ps : List Call.Param} → {position : Nat} →
    (∀ i p, ps[i]? = some p → s.resolve (position + i) p = s'.resolve (position + i) p) →
      s.resolveFrom position ps = s'.resolveFrom position ps
  | [], _, _ => rfl
  | p :: ps, position, h => by
    have hrest : s.resolveFrom (position + 1) ps = s'.resolveFrom (position + 1) ps :=
      resolveFrom_congr fun i q hq => by
        rw [Nat.add_assoc, Nat.add_comm 1 i]
        exact h (i + 1) q hq
    rw [resolveFrom, resolveFrom, hrest, show s.resolve position p = _ from h 0 p rfl]
    rfl

theorem resolveAll_congr {c : Call} (h : Agree c s s') : s.resolveAll c = s'.resolveAll c :=
  resolveFrom_congr fun i p hp => by
    rw [Nat.zero_add]
    exact h.resolve i p hp

theorem resolveFrom_eq_error {e : Call.Error} : {ps : List Call.Param} → {position : Nat} →
    s.resolveFrom position ps = .error e →
      ∃ i p, ps[i]? = some p ∧ s.resolve (position + i) p = .error e
  | [], _, h => nomatch h
  | p :: ps, position, h => by
    rw [resolveFrom, Decode.bind_eq_error] at h
    obtain h | ⟨v, -, h⟩ := h
    · exact ⟨0, p, rfl, h⟩
    · obtain h | ⟨vs, -, h⟩ := Decode.bind_eq_error.1 h
      · obtain ⟨i, q, hq, he⟩ := resolveFrom_eq_error h
        refine ⟨i + 1, q, hq, ?_⟩
        rwa [Nat.add_comm i 1, ← Nat.add_assoc]
      · cases h

theorem resolveAll_eq_error {c : Call} {e : Call.Error} (h : s.resolveAll c = .error e) :
    ∃ i p, c.params[i]? = some p ∧ s.resolve i p = .error e := by
  simpa only [Nat.zero_add] using resolveFrom_eq_error h

theorem length_of_resolveFrom : {ps : List Call.Param} → {position : Nat} → {vs : List Json} →
    s.resolveFrom position ps = .ok vs → vs.length = ps.length
  | [], _, _, h => by cases h; rfl
  | p :: ps, position, vs, h => by
    rw [resolveFrom, Decode.bind_eq_ok] at h
    obtain ⟨v, -, h⟩ := h
    obtain ⟨rest, hrest, h⟩ := Decode.bind_eq_ok.1 h
    cases h
    rw [List.length_cons, List.length_cons, length_of_resolveFrom hrest]

end Scope

end Handler

namespace Builtin

open Handler (IsPlain Scope)

/-! ## Failures of a call -/

section FailsAs

variable {α β : Type} {c : Call} {grows : Prop} {limits : Settings.Calls} {v : Json} {i : Nat}

/-- Whatever goes wrong is a failure of the call, or an array that gets too long. -/
def FailsAs (c : Call) (grows : Prop) (limits : Settings.Calls) (x : Except Call.Error α) : Prop :=
  ∀ e, x = .error e → (∃ f, e = .failed c.render f) ∨
    (e = .oversized ∧ grows ∧ capacity < limits.maxArrayRangeItems)

theorem FailsAs.ok (a : α) : FailsAs c grows limits (.ok a) := nofun

theorem FailsAs.fail (f : Call.Failure) :
    FailsAs c grows limits (Builtin.fail c f : Except Call.Error α) := by
  intro e he
  cases he
  exact .inl ⟨f, rfl⟩

theorem FailsAs.oversized (hgrows : grows) (h : capacity < limits.maxArrayRangeItems) :
    FailsAs c grows limits (.error .oversized : Except Call.Error α) := by
  intro e he
  cases he
  exact .inr ⟨rfl, hgrows, h⟩

theorem FailsAs.bind {x : Except Call.Error α} {k : α → Except Call.Error β}
    (hx : FailsAs c grows limits x) (hk : ∀ a, FailsAs c grows limits (k a)) :
    FailsAs c grows limits (x >>= k) := by
  intro e he
  obtain he | ⟨a, -, he⟩ := Decode.bind_eq_error.1 he
  · exact hx e he
  · exact hk a e he

theorem FailsAs.string : FailsAs c grows limits (string c i v) := by
  unfold Builtin.string
  split
  · exact .ok _
  · exact .fail _

theorem FailsAs.integer : FailsAs c grows limits (integer c i v) := by
  unfold Builtin.integer
  split
  · split
    · exact .ok _
    · exact .fail _
  · exact .fail _

theorem FailsAs.array : FailsAs c grows limits (array c i v) := by
  unfold Builtin.array
  split
  · exact .ok _
  · exact .fail _

theorem FailsAs.object : FailsAs c grows limits (object c i v) := by
  unfold Builtin.object
  split
  · exact .ok _
  · exact .fail _

theorem FailsAs.boolean : FailsAs c grows limits (boolean c i v) := by
  unfold Builtin.boolean
  split
  · exact .ok _
  · exact .fail _

end FailsAs

/-! ## Functions of values -/

section Plain

variable {draws : Nat → Prop} {grows : Prop} {h : Handler}

/-- A function that takes the values of all its parameters and makes something of them. -/
theorem isPlain_of_arguments {least : Nat} {most : Option Nat}
    {k : Call → Scope → List Json → Except Call.Error Json}
    (heq : ∀ c s, h c s = arguments least most c s >>= k c s)
    (hfails : ∀ c (s : Scope) vs, FailsAs c grows s.limits (k c s vs))
    (hsteady : ∀ c s s' vs, takes least most vs.length = true → s.limits = s'.limits →
      (s.entropy = s'.entropy ∨ ¬ draws vs.length) → k c s vs = k c s' vs) :
    h.IsPlain draws grows where
  congr := by
    intro c s s' hs hentropy
    rw [heq, heq, arguments, arguments, Scope.resolveAll_congr hs]
    split
    · next htakes =>
      cases hvs : s'.resolveAll c with
      | error e => rfl
      | ok vs =>
        -- whether the function draws shows in the number of values as in that of parameters
        rw [← Scope.length_of_resolveFrom hvs] at htakes hentropy
        exact hsteady c s s' vs htakes hs.limits hentropy
    · rfl
  error := by
    intro c s e he
    rw [heq, arguments] at he
    obtain he | ⟨vs, -, he⟩ := Decode.bind_eq_error.1 he
    · split at he
      · exact .inr (.inr (Scope.resolveAll_eq_error he))
      · exact or_assoc.1 (.inl (FailsAs.fail _ e he))
    · exact or_assoc.1 (.inl (hfails c s vs e he))

theorem isPlain_unary {f : Call → Json → Except Call.Error Json}
    (hf : ∀ c l a, FailsAs c grows l (f c a)) : (unary f).IsPlain draws grows := by
  refine isPlain_of_arguments (fun _ _ => rfl) (fun c s vs => ?_) (fun _ _ _ _ _ _ _ => rfl)
  split
  · exact hf c s.limits _
  · exact .fail _

theorem isPlain_binary {f : Call → Json → Json → Except Call.Error Json}
    (hf : ∀ c l a b, FailsAs c grows l (f c a b)) : (binary f).IsPlain draws grows := by
  refine isPlain_of_arguments (fun _ _ => rfl) (fun c s vs => ?_) (fun _ _ _ _ _ _ _ => rfl)
  split
  · exact hf c s.limits _ _
  · exact .fail _

theorem isPlain_ternary {f : Call → Settings.Calls → Json → Json → Json → Except Call.Error Json}
    (hf : ∀ c l a b d, FailsAs c grows l (f c l a b d)) : (ternary f).IsPlain draws grows := by
  refine isPlain_of_arguments (fun _ _ => rfl) (fun c s vs => ?_) fun _ _ _ _ _ hl _ => by
    rw [hl]
  split
  · exact hf c s.limits _ _ _
  · exact .fail _

/-- A function that takes the value of its one parameter, if the parameter is of a kind that it
wants. -/
def ofParam (refusal : Call.Param → Option Call.Failure)
    (k : Call → Json → Except Call.Error Json) : Handler := fun c s =>
  match c.params with
  | [p] => (refusal p).elim (s.resolve 0 p >>= k c) (fail c)
  | ps => fail c (.arity 1 (some 1) ps.length)

theorem isPlain_ofParam {refusal : Call.Param → Option Call.Failure}
    {k : Call → Json → Except Call.Error Json} (hfails : ∀ c l v, FailsAs c grows l (k c v)) :
    (ofParam refusal k).IsPlain draws grows where
  congr := by
    intro c s s' hs _
    unfold ofParam
    split
    · next p hp => rw [hs.resolve 0 p (by rw [hp]; rfl)]
    · rfl
  error := by
    intro c s e he
    unfold ofParam at he
    split at he
    · next p hp =>
      cases hrefusal : refusal p with
      | some f =>
        rw [hrefusal] at he
        exact or_assoc.1 (.inl (FailsAs.fail f e he))
      | none =>
        rw [hrefusal] at he
        obtain he | ⟨v, -, he⟩ := Decode.bind_eq_error.1 he
        · exact .inr (.inr ⟨0, p, by rw [hp]; rfl, he⟩)
        · exact or_assoc.1 (.inl (hfails c s.limits v e he))
    · exact or_assoc.1 (.inl (FailsAs.fail _ e he))

/-! ## The standard functions -/

theorem isPlain_format : format.IsPlain draws grows := by
  refine isPlain_of_arguments (fun _ _ => rfl) (fun c _ vs => ?_) (fun _ _ _ _ _ _ _ => rfl)
  split
  · refine .bind .string fun text => ?_
    split
    · exact .ok _
    · exact .fail _
  · exact .fail _

/-- Which parameters are taken for texts. -/
def textRefusal : Call.Param → Option Call.Failure
  | .string _ | .call _ => none
  | _ => some .notTextOrCall

/-- The document that a value holds as its text. -/
def parsed (c : Call) (v : Json) : Except Call.Error Json := do
  match Json.parse? (← string c 0 v) with
  | .ok value => return value
  | .error e => fail c (.notJson e)

theorem stringToJson_eq : stringToJson = ofParam textRefusal parsed := by
  funext c s
  obtain ⟨name, _ | ⟨p, _ | ⟨q, ps⟩⟩⟩ := c
  · rfl
  · cases p <;> rfl
  · rfl

theorem isPlain_stringToJson : stringToJson.IsPlain draws grows := by
  rw [stringToJson_eq]
  refine isPlain_ofParam fun c _ v => .bind .string fun text => ?_
  split
  · exact .ok _
  · exact .fail _

/-- Which parameters are taken for paths. -/
def pathRefusal : Call.Param → Option Call.Failure
  | .path _ => none
  | _ => some .notPath

theorem jsonToString_eq :
    jsonToString = ofParam pathRefusal fun _ v => .ok (.string v.compact) := by
  funext c s
  obtain ⟨name, _ | ⟨p, _ | ⟨q, ps⟩⟩⟩ := c
  · rfl
  · cases p <;> rfl
  · rfl

theorem isPlain_jsonToString : jsonToString.IsPlain draws grows := by
  rw [jsonToString_eq]
  exact isPlain_ofParam fun _ _ _ => .ok _

theorem makeArray_eq (c : Call) (s : Scope) :
    makeArray c s = arguments 0 none c s >>= fun vs => .ok (.array vs) := by
  simp only [makeArray, arguments, takes, Nat.zero_le, decide_true, Option.all_none,
    Bool.and_self, if_true]
  rfl

theorem isPlain_makeArray : makeArray.IsPlain draws grows :=
  isPlain_of_arguments makeArray_eq (fun _ _ _ => .ok _) (fun _ _ _ _ _ _ _ => rfl)

theorem isPlain_partition : partition.IsPlain draws grows :=
  isPlain_binary fun c _ a b => .bind .array fun items => .bind .integer fun size => by
    split
    · exact .fail _
    · exact .ok _

theorem isPlain_contains : contains.IsPlain draws grows :=
  isPlain_binary fun _ _ _ _ => .bind .array fun _ => .ok _

/-- What is too long for an array is not too long for the limit. -/
theorem isPlain_range (hgrows : grows) : range.IsPlain draws grows :=
  isPlain_ternary fun c l a b d =>
    .bind .integer fun start => .bind .integer fun stop => .bind .integer fun step => by
      dsimp only
      split
      · exact .fail _
      · split
        · exact .fail _
        · next hle =>
          split
          · next hlong => exact .oversized hgrows (by omega)
          · exact .ok _

theorem isPlain_getItem : getItem.IsPlain draws grows :=
  isPlain_binary fun c _ a b => .bind .array fun items => .bind .integer fun index => by
    split
    · exact .ok _
    · exact .fail _

theorem isPlain_length : length.IsPlain draws grows :=
  isPlain_unary fun _ _ _ => .bind .array fun _ => .ok _

theorem isPlain_unique : unique.IsPlain draws grows :=
  isPlain_unary fun _ _ _ => .bind .array fun _ => .ok _

theorem isPlain_base64Encode : base64Encode.IsPlain draws grows :=
  isPlain_unary fun _ _ _ => .bind .string fun _ => .ok _

theorem isPlain_base64Decode : base64Decode.IsPlain draws grows :=
  isPlain_unary fun c _ a => .bind .string fun text => by
    split
    · exact .fail _
    · split
      · exact .ok _
      · exact .fail _

theorem isPlain_hash : hash.IsPlain draws grows :=
  isPlain_binary fun c _ a b => .bind .string fun name => by
    split
    · exact .ok _
    · exact .fail _

theorem isPlain_jsonMerge : jsonMerge.IsPlain draws grows :=
  isPlain_ternary fun _ _ _ _ _ =>
    .bind .object fun _ => .bind .object fun _ => .bind .boolean fun _ => .ok _

theorem isPlain_mathAdd : mathAdd.IsPlain draws grows :=
  isPlain_binary fun c _ a b => by
    split
    · split
      · exact .ok _
      · exact .fail _
    · exact .fail _

theorem isPlain_stringSplit : stringSplit.IsPlain draws grows :=
  isPlain_binary fun _ _ _ _ => .bind .string fun _ => .bind .string fun _ => .ok _

/-- A number is drawn only if there are bounds and no seed. -/
theorem isPlain_mathRandom : mathRandom.IsPlain (· = 2) grows := by
  refine isPlain_of_arguments (fun _ _ => rfl) (fun c s vs => ?_) fun c s s' vs _ _ hentropy => ?_
  · split
    · next a b rest =>
      refine .bind .integer fun least => .bind .integer fun most => ?_
      split
      · exact .fail _
      · split
        · exact .ok _
        · exact .bind .integer fun n => .ok _
    · exact .fail _
  · obtain _ | ⟨a, _ | ⟨b, _ | ⟨d, rest⟩⟩⟩ := vs
    · rfl
    · rfl
    · simp only [hentropy.resolve_right (not_not_intro rfl)]
    · rfl

theorem isPlain_uuid : uuid.IsPlain (· = 0) grows := by
  refine isPlain_of_arguments (fun _ _ => rfl) (fun _ _ _ => .ok _)
    fun c s s' vs htakes _ hentropy => ?_
  have hnone : vs.length = 0 := by simpa [takes] using htakes
  simp only [hentropy.resolve_right (not_not_intro hnone)]

end Plain

/-- The calls whose value is random: identifiers, and numbers between two bounds without a seed. -/
def Draws (name : String) (given : Nat) : Prop :=
  name = "States.UUID" ∧ given = 0 ∨ name = "States.MathRandom" ∧ given = 2

/-- The calls that make arrays as long as they are told to. -/
def Grows (name : String) : Prop :=
  name = "States.ArrayRange"

theorem isPlain_standard : ∀ f ∈ standard, f.2.IsPlain (Draws f.1) (Grows f.1) := by
  simp only [standard, List.forall_mem_cons, List.not_mem_nil, IsEmpty.forall_iff, implies_true,
    and_true]
  exact ⟨isPlain_format, isPlain_stringToJson, isPlain_jsonToString, isPlain_makeArray,
    isPlain_partition, isPlain_contains, isPlain_range rfl, isPlain_getItem, isPlain_length,
    isPlain_unique, isPlain_base64Encode, isPlain_base64Decode, isPlain_hash, isPlain_jsonMerge,
    isPlain_mathRandom.mono fun n hn => .inr ⟨rfl, hn⟩, isPlain_mathAdd, isPlain_stringSplit,
    isPlain_uuid.mono fun n hn => .inl ⟨rfl, hn⟩⟩

end Builtin

/-- **The standard functions depend on the values of their parameters**, on the limits, and on
chance where they draw. -/
theorem Registry.standard_isPlain {limits : Settings.Calls} {name : String} {h : Handler}
    (hh : (standard limits).find? name = some h) :
    h.IsPlain (Builtin.Draws name) (Builtin.Grows name) := by
  obtain ⟨before, after, hf, -⟩ := List.lookup_eq_some_iff.1 hh
  have hmem : (name, h) ∈ (standard limits).functions := hf ▸ List.mem_append_cons_self
  exact Builtin.isPlain_standard _ hmem

end StatesLang
