import StatesLang.Proofs.Evaluation.Range
import StatesLang.Proofs.Faults.Functions

/-!
# Where nothing faults

Every operation of a standard function that could stop the evaluation stands behind a check of the
call that gives it what it needs, but for the room for a range: the limit on its length can be above
what any array holds.

* `Checked.Agrees`: a function comes to what the plain one comes to, and is stopped only where that
  one breaks off.
* `Checked.agrees_standard`: this holds of all standard functions.
* **`Checked.call_faultless`**: no call is stopped, whatever its parameters and the documents are,
  unless the limit on ranges is too high.
* `Checked.firstOfHalf_faults`: a call that is.
-/

namespace StatesLang.Checked

open Builtin (takes)

/-! ## Parameters -/

/-- What a function is handed, where evaluating the parameters is not stopped. -/
def ofScope (s : StatesLang.Handler.Scope) : Scope :=
  ⟨s.limits, s.entropy, fun position p => ofOutcome (s.resolve position p)⟩

section Parameters

variable {c : Call} {s : StatesLang.Handler.Scope} {least : Nat} {most : Option Nat}

theorem resolveFrom_ofScope : (ps : List Call.Param) → (position : Nat) →
    (ofScope s).resolveFrom position ps = ofOutcome (s.resolveFrom position ps)
  | [], _ => rfl
  | p :: ps, position => by
    rw [Scope.resolveFrom, resolveFrom_ofScope ps]
    exact bind_ofOutcome fun v _ => bind_ofOutcome fun vs _ => rfl

theorem arguments_ofScope :
    arguments least most c (ofScope s) = ofOutcome (Builtin.arguments least most c s) := by
  rw [arguments, Builtin.arguments, checkArity]
  split
  · exact resolveFrom_ofScope c.params 0
  · rfl

theorem takes_of_arguments {vs : List Json} (h : Builtin.arguments least most c s = .ok vs) :
    takes least most vs.length = true := by
  rw [Builtin.arguments] at h
  split at h
  · next htakes => rwa [Handler.Scope.length_of_resolveFrom h]
  · cases h

end Parameters

/-! ## Agreement -/

/-- A function comes to what another one comes to, and is stopped only where that one breaks off.
The limits are sizes. -/
def Agrees (h : Handler) (h' : StatesLang.Handler) : Prop :=
  ∀ c s, Width.size.Holds s.limits.maxArrayRangeItems → h c (ofScope s) = ofOutcome (h' c s)

section Agreement

variable {h : Handler} {k : Call → Scope → List Json → Checked Json}

theorem agrees_arguments {least : Nat} {most : Option Nat} {h' : StatesLang.Handler}
    {k' : Call → StatesLang.Handler.Scope → List Json → Except Call.Error Json}
    (heq : ∀ c s, h c s = arguments least most c s >>= k c s)
    (heq' : ∀ c s, h' c s = Builtin.arguments least most c s >>= k' c s)
    (hk : ∀ c s vs, Width.size.Holds s.limits.maxArrayRangeItems →
      takes least most vs.length = true → k c (ofScope s) vs = ofOutcome (k' c s vs)) :
    Agrees h h' := by
  intro c s hlimit
  rw [heq, heq', arguments_ofScope]
  exact bind_ofOutcome fun vs hvs => hk c s vs hlimit (takes_of_arguments hvs)

theorem agrees_unary {f : Call → Json → Except Call.Error Json}
    (heq : ∀ c s, h c s = arguments 1 (some 1) c s >>= k c s)
    (hk : ∀ c s a, k c s [a] = ofOutcome (f c a)) : Agrees h (Builtin.unary f) := by
  refine agrees_arguments heq (fun _ _ => rfl) fun c s vs _ htakes => ?_
  obtain ⟨a, rfl⟩ : ∃ a, vs = [a] := List.length_eq_one_iff.1 (by simp [takes] at htakes; omega)
  exact hk c _ a

theorem agrees_binary {f : Call → Json → Json → Except Call.Error Json}
    (heq : ∀ c s, h c s = arguments 2 (some 2) c s >>= k c s)
    (hk : ∀ c s a b, k c s [a, b] = ofOutcome (f c a b)) : Agrees h (Builtin.binary f) := by
  refine agrees_arguments heq (fun _ _ => rfl) fun c s vs _ htakes => ?_
  obtain ⟨a, b, rfl⟩ : ∃ a b, vs = [a, b] :=
    List.length_eq_two.1 (by simp [takes] at htakes; omega)
  exact hk c _ a b

theorem agrees_ternary {f : Call → Settings.Calls → Json → Json → Json → Except Call.Error Json}
    (heq : ∀ c s, h c s = arguments 3 (some 3) c s >>= k c s)
    (hk : ∀ c s a b d, Width.size.Holds s.limits.maxArrayRangeItems →
      k c s [a, b, d] = ofOutcome (f c s.limits a b d)) : Agrees h (Builtin.ternary f) := by
  refine agrees_arguments heq (fun _ _ => rfl) fun c s vs hlimit htakes => ?_
  obtain ⟨a, b, d, rfl⟩ : ∃ a b d, vs = [a, b, d] :=
    List.length_eq_three.1 (by simp [takes] at htakes; omega)
  exact hk c (ofScope s) a b d hlimit

end Agreement

/-! ## Integers -/

theorem exists_int64 {c : Call} {index : Nat} {v : Json} {n : Int}
    (h : Builtin.integer c index v = .ok n) : ∃ m : Int64, m.toInt = n := by
  unfold Builtin.integer at h
  split at h
  · next x =>
    cases x with
    | real => cases h
    | int i =>
      rw [Json.Number.int64?] at h
      by_cases hhigh : i.1 < 0x8000000000000000
      · rw [if_pos hhigh] at h
        cases h
        exact ⟨.ofInt i.1, Int64.toInt_ofInt_of_le i.2.1 hhigh⟩
      · rw [if_neg hhigh] at h
        cases h
  · cases h

theorem bind_widened {c : Call} {index : Nat} {v : Json} {k : Int → Checked Json}
    {k' : Int → Except Call.Error Json} (h : ∀ n : Int64, k n.toInt = ofOutcome (k' n.toInt)) :
    (do k (← cast .int128 (← ofOutcome (Builtin.integer c index v)))) =
      ofOutcome (Builtin.integer c index v >>= k') := by
  refine bind_ofOutcome fun n hn => ?_
  obtain ⟨m, rfl⟩ := exists_int64 hn
  have hbounds := And.intro m.le_toInt m.toInt_lt
  rw [cast_of_holds (Width.holds_int128.2 (by omega)), pure_bind, h]

/-! ## Functions of texts -/

theorem agrees_format : Agrees format Builtin.format := by
  refine agrees_arguments (fun _ _ => rfl) (fun _ _ => rfl) fun c s vs _ htakes => ?_
  cases vs with
  | nil => simp [takes] at htakes
  | cons template args =>
    refine bind_ofOutcome fun text _ => ?_
    rw [itemsFrom_one, pure_bind]
    cases Format.fill args.length 0 (Format.pieces text.toList) args <;> rfl

theorem agrees_stringToJson : Agrees stringToJson Builtin.stringToJson := by
  rintro ⟨name, params⟩ s _
  match params with
  | [] => rfl
  | _ :: _ :: _ => rfl
  | [p] =>
    cases p with
    | string | call =>
      refine bind_ofOutcome (x := s.resolve 0 _) fun value _ => bind_ofOutcome fun text _ => ?_
      cases Json.parse? text <;> rfl
    | null | boolean | int | decimal | path => rfl

theorem agrees_jsonToString : Agrees jsonToString Builtin.jsonToString := by
  rintro ⟨name, params⟩ s _
  match params with
  | [] => rfl
  | _ :: _ :: _ => rfl
  | [p] =>
    cases p with
    | path text => exact bind_ofOutcome (x := s.resolve 0 (.path text)) fun value _ => rfl
    | null | boolean | string | int | decimal | call => rfl

theorem agrees_base64Encode : Agrees base64Encode Builtin.base64Encode :=
  agrees_unary (fun _ _ => rfl) fun _ _ _ => bind_ofOutcome fun _ _ => rfl

theorem agrees_base64Decode : Agrees base64Decode Builtin.base64Decode := by
  refine agrees_unary (fun _ _ => rfl) fun c s a => bind_ofOutcome fun text _ => ?_
  cases Base64.decode (Builtin.bytesOf text) with
  | error e => rfl
  | ok bytes => cases hs : String.fromUTF8? ⟨bytes.toArray⟩ <;> simp only [hs] <;> rfl

theorem agrees_hash : Agrees hash Builtin.hash := by
  refine agrees_binary (fun _ _ => rfl) fun c s a b => ?_
  rw [item_zero, pure_bind]
  refine bind_ofOutcome fun name _ => ?_
  cases Builtin.digests.lookup name <;> rfl

theorem agrees_stringSplit : Agrees stringSplit Builtin.stringSplit :=
  agrees_binary (fun _ _ => rfl) fun _ _ _ _ =>
    bind_ofOutcome fun _ _ => bind_ofOutcome fun _ _ => rfl

/-! ## Functions of arrays and objects -/

theorem agrees_makeArray : Agrees makeArray Builtin.makeArray := by
  intro c s _
  rw [makeArray, resolveFrom_ofScope]
  exact bind_ofOutcome fun vs _ => rfl

theorem agrees_partition : Agrees partition Builtin.partition := by
  refine agrees_binary (fun _ _ => rfl) fun c s a b =>
    bind_ofOutcome fun items _ => bind_ofOutcome fun size hsize => ?_
  obtain ⟨size, rfl⟩ := exists_int64 hsize
  split
  · rfl
  · next hpos =>
    have hhigh := size.toInt_lt
    rw [cast_of_holds (Width.holds_size.2 (by omega)), pure_bind, pieces_of_pos (by omega),
      pure_bind]
    rfl

theorem agrees_contains : Agrees contains Builtin.contains :=
  agrees_binary (fun _ _ => rfl) fun _ _ _ _ => bind_ofOutcome fun _ _ => rfl

theorem agrees_getItem : Agrees getItem Builtin.getItem := by
  refine agrees_binary (fun _ _ => rfl) fun c s a b => bind_ofOutcome fun items _ =>
    bind_ofOutcome fun index _ => ?_
  generalize (if 0 ≤ index then items[index.toNat]? else none) = found
  cases found <;> rfl

theorem agrees_unique : Agrees unique Builtin.unique :=
  agrees_unary (fun _ _ => rfl) fun _ _ _ => bind_ofOutcome fun _ _ => rfl

theorem agrees_length : Agrees length Builtin.length :=
  agrees_unary (fun _ _ => rfl) fun _ _ _ => bind_ofOutcome fun _ _ => rfl

section Range

variable {start stop step : Int64}

theorem rangeCount_eq (hstep : step.toInt ≠ 0) :
    rangeCount start.toInt stop.toInt step.toInt =
      pure (Builtin.stepCount start.toInt stop.toInt step.toInt : Int) := by
  have hstart := And.intro start.le_toInt start.toInt_lt
  have hstop := And.intro stop.le_toInt stop.toInt_lt
  have hquotient := Builtin.natAbs_quotient_le start stop step
  unfold rangeCount Builtin.stepCount
  split
  · rw [sub, fit_of_holds (Width.holds_int128.2 (by omega)), pure_bind,
      div_of_holds hstep (Width.holds_int128.2 (by omega)), pure_bind,
      add, fit_of_holds (Width.holds_int128.2 (by omega)),
      Builtin.tdiv_eq_natAbs (by omega)]
    rfl
  · rfl

/-- A step that does not lead past the end leads to a number of 64 bits. -/
theorem rangeItem_eq {k : Nat} (h : Builtin.Between start.toInt stop.toInt step.toInt k) :
    rangeItem start.toInt step.toInt k =
      pure (.number (.ofInt (start.toInt + k * step.toInt))) := by
  have hstart := And.intro start.le_toInt start.toInt_lt
  have hstop := And.intro stop.le_toInt stop.toInt_lt
  have hbounds := h.bounds
  rw [rangeItem, mul, fit_of_holds (Width.holds_int128.2 (by omega)), pure_bind,
    add, fit_of_holds (Width.holds_int128.2 (by omega)), pure_bind,
    cast_of_holds (Width.holds_int64.2 (by omega)), pure_bind]

theorem rangeItems_eq {count : Nat}
    (h : ∀ k, k < count → Builtin.Between start.toInt stop.toInt step.toInt k) :
    (List.range count).mapM (fun k => rangeItem start.toInt step.toInt k) =
      pure (Builtin.rangeItems (Builtin.widen start.toInt) (Builtin.widen step.toInt) count) := by
  refine mapM_eq_pure fun k hk => ?_
  have hbetween := h k (List.mem_range.1 hk)
  rw [rangeItem_eq hbetween, Builtin.toInt_rangeItem hbetween]

end Range

theorem agrees_range : Agrees range Builtin.range := by
  refine agrees_ternary (fun _ _ => rfl) fun c s a b d hlimit =>
    bind_widened fun start => bind_widened fun stop => bind_widened fun step => ?_
  have hbounds := Width.holds_size.1 hlimit
  -- both sides count in 128 bits, where the one wraps around and the other is stopped
  simp only [Builtin.widen_toInt_eq_zero, Builtin.toInt_rangeCount]
  split
  · rfl
  · next hstep =>
    rw [rangeCount_eq hstep, pure_bind, cast_of_holds (Width.holds_int128.2 (by omega)),
      pure_bind]
    split
    · rfl
    · rw [Int.toNat_natCast, allot]
      simp only [Int.ofNat_lt]
      split
      · rfl
      · rw [pure_bind, rangeItems_eq fun k => (Builtin.between_iff hstep k).2]
        rfl

theorem agrees_jsonMerge : Agrees jsonMerge Builtin.jsonMerge :=
  agrees_ternary (fun _ _ => rfl) fun _ _ _ _ _ _ => bind_ofOutcome fun _ _ =>
    bind_ofOutcome fun _ _ => bind_ofOutcome fun _ _ => rfl

/-! ## Functions of numbers and chance -/

theorem agrees_mathAdd : Agrees mathAdd Builtin.mathAdd := by
  refine agrees_binary (fun _ _ => rfl) fun c s a b => ?_
  rw [item_zero, pure_bind, item_one, pure_bind]
  cases a <;> cases b
  case number.number x y => cases hsum : Builtin.sum x y <;> simp only [hsum] <;> rfl
  all_goals rfl

theorem agrees_mathRandom : Agrees mathRandom Builtin.mathRandom := by
  refine agrees_arguments (fun _ _ => rfl) (fun _ _ => rfl) fun c s vs _ htakes => ?_
  obtain _ | ⟨a, _ | ⟨b, rest⟩⟩ := vs
  · simp [takes] at htakes
  · simp [takes] at htakes
  · refine bind_ofOutcome fun least _ => bind_ofOutcome fun most _ => ?_
    split
    · rfl
    · next hle =>
      cases rest with
      | nil => exact drawn_of_le hle _
      | cons seed rest =>
        exact bind_ofOutcome fun n _ => drawn_of_le hle _

theorem agrees_uuid : Agrees uuid Builtin.uuid := by
  rintro ⟨name, params⟩ s _
  cases params <;> rfl

/-! ## Evaluation -/

/-- No standard function is stopped for any other reason. -/
theorem agrees_standard :
    List.Forall₂ (fun g f => g.1 = f.1 ∧ Agrees g.2 f.2) standard Builtin.standard := by
  simp [standard, Builtin.standard, agrees_format, agrees_stringToJson, agrees_jsonToString,
    agrees_makeArray, agrees_partition, agrees_contains, agrees_range, agrees_getItem,
    agrees_length, agrees_unique, agrees_base64Encode, agrees_base64Decode, agrees_hash,
    agrees_jsonMerge, agrees_mathRandom, agrees_mathAdd, agrees_stringSplit, agrees_uuid]

theorem lookup_rel {α β : Type} {R : α → β → Prop} {gs : List (String × α)}
    {fs : List (String × β)} (h : List.Forall₂ (fun g f => g.1 = f.1 ∧ R g.2 f.2) gs fs)
    (name : String) : Option.Rel R (gs.lookup name) (fs.lookup name) := by
  induction h with
  | nil => exact .none
  | @cons g f gs fs hgf _ ih =>
    rw [List.lookup_cons, List.lookup_cons, hgf.1]
    split
    · exact .some hgf.2
    · exact ih

section Evaluation

variable {limits : Settings.Calls} {sources : Path.Sources}

theorem resolveParam_ofOutcome {call : Call → Checked Json}
    {call' : Call → Except Call.Error Json} (h : ∀ c, call c = ofOutcome (call' c))
    (p : Call.Param) :
    resolveParam sources call p = ofOutcome (Registry.resolveParam sources call' p) := by
  cases p with
  | call c => exact h c
  | null | boolean | string | int | decimal | path => rfl

theorem invoke_ofOutcome (hlimits : Width.size.Holds limits.maxArrayRangeItems) :
    (fuel : Nat) → (entropy : UInt64) → (c : Call) → invoke limits sources fuel entropy c =
      ofOutcome ((Registry.standard limits).invoke sources fuel entropy c)
  | 0, _, _ => rfl
  | fuel + 1, entropy, c => by
    have hfunction := lookup_rel agrees_standard c.name
    have hparam : (fun position => resolveParam sources
        (invoke limits sources fuel (Handler.inner entropy position))) = fun position p =>
        ofOutcome (Registry.resolveParam sources ((Registry.standard limits).invoke sources fuel
          (Handler.inner entropy position)) p) :=
      funext fun position => funext (resolveParam_ofOutcome (invoke_ofOutcome hlimits fuel _))
    rw [invoke, Registry.invoke, hparam, Registry.find?]
    -- either both lists have a function of the name or neither has
    change Option.Rel Agrees _ ((Registry.standard limits).functions.lookup c.name) at hfunction
    generalize standard.lookup c.name = g at hfunction ⊢
    generalize (Registry.standard limits).functions.lookup c.name = f at hfunction ⊢
    cases hfunction with
    | none => rfl
    | some hagrees => exact hagrees c ⟨sources, limits, entropy, _⟩ hlimits

/-- **No call of standard functions is stopped**, unless the limit lets a range in it get longer
than any array. Whatever its parameters are, how deep they nest and what the documents hold, no
other operation meets with operands that it has no result for. What comes out is what the functions
give, a value or a failure of one of them. -/
theorem call_faultless (hlimits : Width.size.Holds limits.maxArrayRangeItems) (entropy : UInt64)
    (c : Call) (sources : Path.Sources) :
    call limits entropy c sources = ofOutcome ((Registry.standard limits).call entropy c sources) ∧
    (∀ f, call limits entropy c sources = fault f → f = .capacity ∧
      Builtin.capacity < limits.maxArrayRangeItems ∧
      ∃ d, c.Part d ∧ d.name = "States.ArrayRange") ∧
    ∀ e, (Registry.standard limits).call entropy c sources = .error e →
      e.IsOfEvaluation limits c := by
  have hcall : call limits entropy c sources =
      ofOutcome ((Registry.standard limits).call entropy c sources) :=
    invoke_ofOutcome hlimits _ entropy c
  have herror : ∀ e, (Registry.standard limits).call entropy c sources = .error e →
      e.IsOfEvaluation limits c :=
    fun e he => Registry.call_eq_error (fun _ _ => Registry.standard_isPlain) he
  refine ⟨hcall, fun f hf => ?_, herror⟩
  obtain ⟨hfault, hbreaks⟩ := ofOutcome_eq_fault (hcall.symm.trans hf)
  cases herror _ hbreaks with
  | oversized hd hgrows hlimit => exact ⟨hfault, hlimit, _, hd, hgrows⟩

/-- The longest steps through the numbers of 64 bits, in pieces of the greatest size. -/
def longPieces : Call :=
  ⟨"States.ArrayPartition", [.call Builtin.longSteps, .int Int64.maxValue]⟩

theorem longPieces_faultless :
    Width.size.Holds ({} : Settings.Calls).maxArrayRangeItems ∧
    call {} 0 longPieces Builtin.ends = ofOutcome (.ok (.array [.array
      ([-9223372036854775808, -1, 9223372036854775806].map fun n => .number (.ofInt n))])) := by
  have hlimits : Width.size.Holds ({} : Settings.Calls).maxArrayRangeItems := by decide
  refine ⟨hlimits, (call_faultless hlimits 0 longPieces Builtin.ends).1.trans ?_⟩
  exact congrArg ofOutcome (by decide +kernel)

/-- The first number of a range that is too long for any array. -/
def firstOfHalf : Call :=
  ⟨"States.ArrayGetItem", [.call Builtin.half, .int 0]⟩

theorem firstOfHalf_faults :
    Width.size.Holds (9223372036854775807 : Nat) ∧
    call { maxArrayRangeItems := 9223372036854775807 } 0 firstOfHalf ⟨.null, .null⟩ =
      fault .capacity := by
  have hlimits : Width.size.Holds (9223372036854775807 : Nat) := by decide
  have hcall : (Registry.standard { maxArrayRangeItems := 9223372036854775807 }).call 0 firstOfHalf
      ⟨.null, .null⟩ = .error .oversized := by decide +kernel
  exact ⟨hlimits, (invoke_ofOutcome hlimits _ 0 firstOfHalf).trans (congrArg ofOutcome hcall)⟩

end Evaluation

end StatesLang.Checked
