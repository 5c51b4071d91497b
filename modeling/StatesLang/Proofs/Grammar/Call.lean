import Mathlib.Data.List.Chain
import StatesLang.Proofs.Grammar.Literal
import StatesLang.Proofs.Grammar.Symbol

/-!
# The grammar of calls

* `Call.CallText`, `Call.ParamsText`, `Call.ParamText`: calls as rows of symbols.
* `Call.Says`: a text that spells a call.
* `Call.Closes`: what the calls that are still open demand of the symbols to come.
* `Call.parse_eq_ok`: the parser reads exactly the calls of the grammar that are nested within its
  limit.
* **`Call.parse_iff_spells`**: with some limit it reads all of them, and blanks do not matter.
-/

namespace StatesLang.Call

mutual

/-- A call as symbols: its name, and its parameters in parentheses. -/
inductive CallText : List Symbol → Call → Prop
  | bare (name) : CallText [.word name, .opening, .closing] ⟨String.ofList name, []⟩
  | applied (name) {ks ps} (h : ParamsText ks ps) :
      CallText (.word name :: .opening :: (ks ++ [.closing])) ⟨String.ofList name, ps⟩

/-- Parameters as symbols, with a comma between each two of them. -/
inductive ParamsText : List Symbol → List Param → Prop
  | one {ks p} (h : ParamText ks p) : ParamsText ks [p]
  | more {ks p ks' ps} (h : ParamText ks p) (hs : ParamsText ks' ps) :
      ParamsText (ks ++ .comma :: ks') (p :: ps)

/-- A parameter as symbols: a quoted text, a literal or a call. -/
inductive ParamText : List Symbol → Param → Prop
  | text (s) : ParamText [.text s] (.string (String.ofList s))
  | literal {w p} (h : LiteralText w p) : ParamText [.word w] p
  | call {ks c} (h : CallText ks c) : ParamText ks (.call c)

end

/-- A text that spells a call. -/
def Says (cs : List Char) (c : Call) : Prop :=
  ∃ ks, Spells cs ks ∧ CallText ks c

theorem nesting_literal {w : List Char} {p : Param} (h : LiteralText w p) : p.nesting = 0 := by
  cases h <;> rfl

theorem ParamText.ne_nil {ks : List Symbol} {p : Param} (h : ParamText ks p) : ks ≠ [] := by
  cases h with
  | text => simp
  | literal => simp
  | call h => cases h <;> simp

theorem ParamsText.ne_nil {ks : List Symbol} {ps : List Param} (h : ParamsText ks ps) :
    ks ≠ [] := by
  cases h with
  | one h => exact h.ne_nil
  | more => simp

theorem nesting_pos (c : Call) : 0 < c.nesting := by
  cases c
  rw [nesting]
  omega

/-! ## What open calls demand -/

/-- The symbols of the parameters still to come, by what may come next. -/
def Follows : Expected → List Symbol → List Param → Prop
  | .firstOrEnd, ks, ps => ks = [] ∧ ps = [] ∨ ParamsText ks ps
  | .param, ks, ps => ParamsText ks ps
  | .separator, ks, ps => ks = [] ∧ ps = [] ∨ ∃ ks', ks = .comma :: ks' ∧ ParamsText ks' ps

/-- The call with more parameters, once it is closed. -/
def Open.finish (o : Open) (ps : List Param) : Call :=
  ⟨String.ofList o.name, o.reversed.reverse ++ ps⟩

/-- What the open calls demand of the symbols to come: each its other parameters and the end, within
the limit, the outermost one nothing behind it. -/
def Closes (limit : Nat) : List Open → Open → Expected → List Symbol → Call → Prop
  | [], o, e, ks, c => ∃ body ps, ks = body ++ [.closing] ∧ Follows e body ps ∧
      paramsNesting ps + 1 ≤ limit ∧ c = o.finish ps
  | around :: outer, o, e, ks, c => ∃ body ps rest, ks = body ++ .closing :: rest ∧
      Follows e body ps ∧ paramsNesting ps + (outer.length + 2) ≤ limit ∧
      Closes limit outer (around.push (.call (o.finish ps))) .separator rest c

theorem Follows.push {e : Expected} (he : e ≠ .separator) {ks ks' : List Symbol} {p : Param}
    {ps : List Param} (h : ParamText ks p) (hs : Follows .separator ks' ps) :
    Follows e (ks ++ ks') (p :: ps) := by
  have hall : ParamsText (ks ++ ks') (p :: ps) := by
    rcases hs with ⟨rfl, rfl⟩ | ⟨ks', rfl, hs⟩
    · rw [List.append_nil]
      exact .one h
    · exact .more h hs
  cases e with
  | firstOrEnd => exact .inr hall
  | param => exact hall
  | separator => exact absurd rfl he

theorem Open.finish_push (o : Open) (p : Param) (ps : List Param) :
    (o.push p).finish ps = o.finish (p :: ps) := by
  simp [Open.finish, Open.push]

theorem Closes.push {limit : Nat} {outer : List Open} {o : Open} {e : Expected}
    (he : e ≠ .separator) {ks ks' : List Symbol} {p : Param} {c : Call} (h : ParamText ks p)
    (hp : p.nesting + (outer.length + 1) ≤ limit)
    (hs : Closes limit outer (o.push p) .separator ks' c) :
    Closes limit outer o e (ks ++ ks') c := by
  cases outer with
  | nil =>
    obtain ⟨body, ps, rfl, hf, hn, rfl⟩ := hs
    rw [List.length_nil] at hp
    refine ⟨ks ++ body, p :: ps, by rw [List.append_assoc], hf.push he h, ?_, o.finish_push p ps⟩
    rw [paramsNesting]
    omega
  | cons around outer =>
    obtain ⟨body, ps, rest, rfl, hf, hn, hc⟩ := hs
    rw [List.length_cons] at hp
    rw [o.finish_push] at hc
    refine ⟨ks ++ body, p :: ps, rest, by rw [List.append_assoc], hf.push he h, ?_, hc⟩
    rw [paramsNesting]
    omega

theorem Closes.comma {limit : Nat} {outer : List Open} {o : Open} {ks : List Symbol} {c : Call}
    (hs : Closes limit outer o .param ks c) : Closes limit outer o .separator (.comma :: ks) c := by
  cases outer with
  | nil =>
    obtain ⟨body, ps, rfl, hf, hn, hc⟩ := hs
    exact ⟨.comma :: body, ps, rfl, .inr ⟨body, rfl, hf⟩, hn, hc⟩
  | cons around outer =>
    obtain ⟨body, ps, rest, rfl, hf, hn, hc⟩ := hs
    exact ⟨.comma :: body, ps, rest, rfl, .inr ⟨body, rfl, hf⟩, hn, hc⟩

theorem Closes.call {limit : Nat} {outer : List Open} {o : Open} {name : List Char}
    {position : Nat} {e : Expected} (he : e ≠ .separator) {ks : List Symbol} {c : Call}
    (hs : Closes limit (o :: outer) ⟨name, position, []⟩ .firstOrEnd ks c) :
    Closes limit outer o e (.word name :: .opening :: ks) c := by
  obtain ⟨body, ps, rest, rfl, hf, hn, hc⟩ := hs
  have htext :
      CallText (.word name :: .opening :: (body ++ [.closing])) ⟨String.ofList name, ps⟩ := by
    rcases hf with ⟨rfl, rfl⟩ | hf
    · exact .bare name
    · exact .applied name hf
  have hpush := hc.push he (.call htext) (by rw [Param.nesting, nesting]; omega)
  simpa using hpush

/-! ## What is read is a call -/

theorem follows_nil {e : Expected} (he : e ≠ .param) : Follows e [] [] := by
  cases e with
  | firstOrEnd => exact .inl ⟨rfl, rfl⟩
  | param => exact absurd rfl he
  | separator => exact .inl ⟨rfl, rfl⟩

theorem Open.finish_nil (o : Open) : o.finish [] = o.close := by
  simp [Open.finish, Open.close]

theorem Token.symbol?_of_kind {t : Token} {kind : Token.Kind} (h : t.kind = kind) :
    t.symbol? = Token.symbol? ⟨kind, 0⟩ := by
  rw [← h]
  rfl

theorem Closes.closing {limit : Nat} {around : Open} {outer : List Open} {o : Open} {e : Expected}
    (he : e ≠ .param) (hl : outer.length + 2 ≤ limit) {ks : List Symbol} {c : Call}
    (hs : Closes limit outer (around.push (.call o.close)) .separator ks c) :
    Closes limit (around :: outer) o e (.closing :: ks) c := by
  refine ⟨[], [], ks, rfl, follows_nil he, ?_, by rw [o.finish_nil]; exact hs⟩
  rw [paramsNesting]
  omega

theorem closes_end {limit : Nat} {o : Open} {e : Expected} (he : e ≠ .param) (hl : 1 ≤ limit) :
    Closes limit [] o e [.closing] o.close :=
  ⟨[], [], rfl, follows_nil he, hl, o.finish_nil.symm⟩

theorem parseParams_sound {limit : Nat} {outer : List Open} {o : Open} {e : Expected}
    {ts : List Token} {c : Call} (hl : outer.length + 1 ≤ limit)
    (h : parseParams limit outer o e ts = .ok c) :
    ∃ ks, Carry ts ks ∧ Closes limit outer o e ks c := by
  fun_induction parseParams limit outer o e ts with
  | case1 => cases h
  | case2 o t ht =>
    cases h
    exact ⟨_, (carry_nil.2 rfl).cons (Token.symbol?_of_kind ht), closes_end (by simp) hl⟩
  | case3 => cases h
  | case4 o t rest ht around outer ih =>
    rw [List.length_cons] at hl
    obtain ⟨ks, hts, hc⟩ := ih (by omega) h
    exact ⟨_, hts.cons (Token.symbol?_of_kind ht), hc.closing (by simp) hl⟩
  | case5 o t ht =>
    cases h
    exact ⟨_, (carry_nil.2 rfl).cons (Token.symbol?_of_kind ht), closes_end (by simp) hl⟩
  | case6 => cases h
  | case7 o t rest ht around outer ih =>
    rw [List.length_cons] at hl
    obtain ⟨ks, hts, hc⟩ := ih (by omega) h
    exact ⟨_, hts.cons (Token.symbol?_of_kind ht), hc.closing (by simp) hl⟩
  | case8 outer o t rest ht ih =>
    obtain ⟨ks, hts, hc⟩ := ih hl h
    exact ⟨_, hts.cons (Token.symbol?_of_kind ht), hc.comma⟩
  | case9 => cases h
  | case10 => cases h
  | case11 => cases h
  | case12 => cases h
  | case13 => cases h
  | case14 outer o e t rest s ht he ih =>
    obtain ⟨ks, hts, hc⟩ := ih hl h
    have hflat : (Param.string (String.ofList s)).nesting = 0 := rfl
    have hpush := hc.push he (.text s) (by omega)
    exact ⟨_, hts.cons (Token.symbol?_of_kind ht), hpush⟩
  | case15 => cases h
  | case16 outer o e t first word ht position rest hlimit he ih =>
    obtain ⟨ks, hts, hc⟩ := ih (by rw [List.length_cons]; omega) h
    exact ⟨_, (hts.cons rfl).cons (Token.symbol?_of_kind ht), hc.call he⟩
  | case17 outer o e t first word ht rest _ p hp he ih =>
    obtain ⟨ks, hts, hc⟩ := ih hl h
    have htext := literal?_iff.1 hp
    have hpush := hc.push he (.literal htext) (by rw [nesting_literal htext]; omega)
    exact ⟨_, hts.cons (Token.symbol?_of_kind ht), hpush⟩
  | case18 => cases h

/-! ## Calls are read -/

theorem Token.kind_of_symbol? {t : Token} {k : Symbol} (h : t.symbol? = some k) :
    match k with
    | .comma => t.kind = .comma
    | .opening => t.kind = .opening
    | .closing => t.kind = .closing
    | .text s => t.kind = .quoted s
    | .word w => ∃ first, t.kind = .bare first w := by
  obtain ⟨kind, position⟩ := t
  cases kind with
  | bare first w => cases h; exact ⟨first, rfl⟩
  | defective => cases h
  | _ => cases h; rfl

/-- The text does not go on with parentheses. -/
def NoOpening (ts : List Token) : Prop :=
  ∀ t ∈ ts.head?, t.kind ≠ .opening

section Steps

variable {limit : Nat} {outer : List Open} {o : Open} {e : Expected} {t u : Token}
  {rest : List Token}

theorem parseParams_comma (ht : t.kind = .comma) :
    parseParams limit outer o .separator (t :: rest) = parseParams limit outer o .param rest := by
  obtain ⟨kind, position⟩ := t
  cases ht
  rfl

theorem parseParams_text (he : e ≠ .separator) {s : List Char} (ht : t.kind = .quoted s) :
    parseParams limit outer o e (t :: rest) =
      parseParams limit outer (o.push (.string (String.ofList s))) .separator rest := by
  obtain ⟨kind, position⟩ := t
  cases ht
  cases e with
  | separator => exact absurd rfl he
  | _ => rfl

theorem parseParams_call (he : e ≠ .separator) {first : Char} {w : List Char}
    (ht : t.kind = .bare first w) (hu : u.kind = .opening) (hl : outer.length + 1 < limit) :
    parseParams limit outer o e (t :: u :: rest) =
      parseParams limit (o :: outer) ⟨w, u.position, []⟩ .firstOrEnd rest := by
  obtain ⟨kind, position⟩ := t
  obtain ⟨kind', position'⟩ := u
  cases ht
  cases hu
  cases e with
  | separator => exact absurd rfl he
  | _ => exact if_neg (by omega)

theorem parseParams_literal (he : e ≠ .separator) {first : Char} {w : List Char} {p : Param}
    (ht : t.kind = .bare first w) (hp : LiteralText w p) (hrest : NoOpening rest) :
    parseParams limit outer o e (t :: rest) =
      parseParams limit outer (o.push p) .separator rest := by
  obtain ⟨kind, position⟩ := t
  cases ht
  have hlit := literal?_iff.2 hp
  cases rest with
  | nil =>
    cases e with
    | separator => exact absurd rfl he
    | _ =>
      conv_lhs =>
        rw [parseParams.eq_def]
        dsimp only
        rw [hlit]
  | cons u rest =>
    obtain ⟨kind, position'⟩ := u
    cases kind with
    | opening => exact absurd rfl (hrest _ rfl)
    | _ =>
      cases e with
      | separator => exact absurd rfl he
      | _ =>
        conv_lhs =>
          rw [parseParams.eq_def]
          dsimp only
          rw [hlit]

theorem parseParams_closing (he : e ≠ .param) (ht : t.kind = .closing) {around : Open} :
    parseParams limit (around :: outer) o e (t :: rest) =
      parseParams limit outer (around.push (.call o.close)) .separator rest := by
  obtain ⟨kind, position⟩ := t
  cases ht
  cases e with
  | param => exact absurd rfl he
  | _ => rfl

theorem parseParams_end (he : e ≠ .param) (ht : t.kind = .closing) :
    parseParams limit [] o e (t :: rest) =
      match rest with
      | [] => .ok o.close
      | t :: _ => .error (.trailing t.first t.position) := by
  obtain ⟨kind, position⟩ := t
  cases ht
  cases e with
  | param => exact absurd rfl he
  | _ => cases rest <;> rfl

end Steps

/-- The call with more parameters that are read. -/
def Open.pushAll (o : Open) (ps : List Param) : Open :=
  { o with reversed := ps.reverse ++ o.reversed }

theorem Open.pushAll_cons (o : Open) (p : Param) (ps : List Param) :
    o.pushAll (p :: ps) = (o.push p).pushAll ps := by
  simp [Open.pushAll, Open.push]

theorem Open.close_pushAll (name : List Char) (position : Nat) (ps : List Param) :
    (Open.pushAll ⟨name, position, []⟩ ps).close = ⟨String.ofList name, ps⟩ := by
  simp [Open.pushAll, Open.close]

theorem noOpening_cons {t : Token} {ts : List Token} {k : Symbol} (ht : t.symbol? = some k)
    (hk : k ≠ .opening) : NoOpening (t :: ts) := by
  intro u hu hkind
  rw [List.head?_cons, Option.mem_some_iff] at hu
  rw [hu, Token.symbol?_of_kind hkind] at ht
  exact hk (Option.some.inj ht).symm

mutual

/-- A call is its name, the parentheses and what stands between them, which leaves the call ready to
be closed. -/
theorem parseParams_of_call {ks : List Symbol} {c : Call} (h : CallText ks c) {ts : List Token}
    (hts : Carry ts ks) :
    ∃ t u body v first name, ts = t :: u :: (body ++ [v]) ∧ t.kind = .bare first name ∧
      u.kind = .opening ∧ v.kind = .closing ∧
      ∀ limit outer rest, c.nesting + outer.length ≤ limit →
        ∃ o e, e ≠ .param ∧ o.close = c ∧
          parseParams limit outer ⟨name, u.position, []⟩ .firstOrEnd (body ++ v :: rest) =
            parseParams limit outer o e (v :: rest) := by
  cases h with
  | bare name =>
    obtain ⟨t, us, rfl, ht, hus⟩ := carry_cons.1 hts
    obtain ⟨u, vs, rfl, hu, hvs⟩ := carry_cons.1 hus
    obtain ⟨v, ws, rfl, hv, hws⟩ := carry_cons.1 hvs
    obtain ⟨first, ht⟩ := Token.kind_of_symbol? ht
    rw [carry_nil.1 hws]
    refine ⟨t, u, [], v, first, name, rfl, ht, Token.kind_of_symbol? hu, Token.kind_of_symbol? hv,
      fun limit outer rest _ => ⟨⟨name, u.position, []⟩, .firstOrEnd, by simp, rfl, rfl⟩⟩
  | @applied name ks ps h =>
    obtain ⟨t, us, rfl, ht, hus⟩ := carry_cons.1 hts
    obtain ⟨u, vs, rfl, hu, hvs⟩ := carry_cons.1 hus
    obtain ⟨body, vs, rfl, hbody, hvs⟩ := carry_append.1 hvs
    obtain ⟨v, ws, rfl, hv, hws⟩ := carry_cons.1 hvs
    obtain ⟨first, ht⟩ := Token.kind_of_symbol? ht
    rw [carry_nil.1 hws]
    refine ⟨t, u, body, v, first, name, rfl, ht, Token.kind_of_symbol? hu,
      Token.kind_of_symbol? hv, fun limit outer rest hl => ?_⟩
    rw [nesting] at hl
    have hrest : NoOpening (v :: rest) := noOpening_cons hv (by simp)
    exact ⟨_, .separator, by simp, Open.close_pushAll name u.position ps,
      parseParams_of_params h (by simp) (by omega) hbody hrest⟩

theorem parseParams_of_params {ks : List Symbol} {ps : List Param} (h : ParamsText ks ps)
    {limit : Nat} {outer : List Open} {o : Open} {e : Expected} (he : e ≠ .separator)
    (hl : paramsNesting ps + (outer.length + 1) ≤ limit) {ts : List Token} (hts : Carry ts ks)
    {rest : List Token} (hrest : NoOpening rest) :
    parseParams limit outer o e (ts ++ rest) =
      parseParams limit outer (o.pushAll ps) .separator rest := by
  cases h with
  | one h =>
    rw [paramsNesting] at hl
    exact parseParams_of_param h he (by omega) hts hrest
  | @more ks p ks' ps h hs =>
    obtain ⟨ts, us, rfl, hfirst, hus⟩ := carry_append.1 hts
    obtain ⟨u, vs, rfl, hu, hvs⟩ := carry_cons.1 hus
    rw [paramsNesting] at hl
    rw [List.append_assoc, List.cons_append,
      parseParams_of_param h he (by omega) hfirst (noOpening_cons hu (by simp)),
      parseParams_comma (Token.kind_of_symbol? hu),
      parseParams_of_params hs (by simp) (by omega) hvs hrest, Open.pushAll_cons]

theorem parseParams_of_param {ks : List Symbol} {p : Param} (h : ParamText ks p)
    {limit : Nat} {outer : List Open} {o : Open} {e : Expected} (he : e ≠ .separator)
    (hl : p.nesting + (outer.length + 1) ≤ limit) {ts : List Token} (hts : Carry ts ks)
    {rest : List Token} (hrest : NoOpening rest) :
    parseParams limit outer o e (ts ++ rest) =
      parseParams limit outer (o.push p) .separator rest := by
  cases h with
  | text s =>
    obtain ⟨t, us, rfl, ht, hus⟩ := carry_cons.1 hts
    rw [carry_nil.1 hus]
    exact parseParams_text he (Token.kind_of_symbol? ht)
  | literal h =>
    obtain ⟨t, us, rfl, ht, hus⟩ := carry_cons.1 hts
    obtain ⟨first, ht⟩ := Token.kind_of_symbol? ht
    rw [carry_nil.1 hus]
    exact parseParams_literal he ht h hrest
  | @call _ c h =>
    rw [Param.nesting] at hl
    obtain ⟨t, u, body, v, first, name, rfl, ht, hu, hv, hbody⟩ := parseParams_of_call h hts
    obtain ⟨o', e', he', hclose, hread⟩ := hbody limit (o :: outer) rest
      (by rw [List.length_cons]; exact hl)
    have hpos := nesting_pos c
    rw [List.cons_append, List.cons_append, List.append_assoc, List.singleton_append,
      parseParams_call he ht hu (by omega), hread, parseParams_closing he' hv, hclose]

end

theorem parseTokens_of_call {ks : List Symbol} {c : Call} (h : CallText ks c) {limit : Nat}
    (hl : c.nesting ≤ limit) {ts : List Token} (hts : Carry ts ks) (finish : Nat)
    (rest : List Token) :
    parseTokens limit finish (ts ++ rest) =
      match rest with
      | [] => .ok c
      | t :: _ => .error (.trailing t.first t.position) := by
  obtain ⟨⟨_, _⟩, ⟨_, position⟩, body, v, first, name, rfl, rfl, rfl, hv, hbody⟩ :=
    parseParams_of_call h hts
  obtain ⟨o, e, he, rfl, hread⟩ := hbody limit [] rest hl
  have hpos := nesting_pos o.close
  rw [List.cons_append, List.cons_append, List.append_assoc, List.singleton_append, parseTokens,
    if_neg (by omega), hread, parseParams_end he hv]

theorem parseTokens_sound {limit finish : Nat} {ts : List Token} {c : Call}
    (h : parseTokens limit finish ts = .ok c) :
    ∃ ks, Carry ts ks ∧ CallText ks c ∧ c.nesting ≤ limit := by
  unfold parseTokens at h
  split at h
  · cases h
  · next first name start rest =>
    split at h
    · cases h
    · next position rest =>
      split_ifs at h with hlimit
      obtain ⟨ks, hts, body, ps, rfl, hf, hn, rfl⟩ :=
        parseParams_sound (by rw [List.length_nil]; omega) h
      have hcarry : Carry (⟨.bare first name, start⟩ :: ⟨.opening, position⟩ :: rest)
          (.word name :: .opening :: (body ++ [.closing])) :=
        (hts.cons rfl).cons rfl
      refine ⟨_, hcarry, ?_, hn⟩
      rcases hf with ⟨rfl, rfl⟩ | hf
      · exact .bare name
      · exact .applied name hf
    · cases h
  · cases h
  · cases h
  · cases h

/-- **The parser reads exactly the calls of the grammar** that are nested within its limit. -/
theorem parse_eq_ok {limit : Nat} {text : String} {c : Call} :
    parse limit text = .ok c ↔ Says text.toList c ∧ c.nesting ≤ limit := by
  constructor
  · intro h
    obtain ⟨ks, hts, hc, hn⟩ := parseTokens_sound h
    exact ⟨⟨ks, (spells_iff_carry 0).2 hts, hc⟩, hn⟩
  · rintro ⟨⟨ks, hs, hc⟩, hn⟩
    have hread := parseTokens_of_call hc hn ((spells_iff_carry 0).1 hs) text.length []
    rwa [List.append_nil] at hread

/-! ## Commas and ends -/

/-- The symbols that may stand side by side in a call. -/
def Symbol.MayPrecede : Symbol → Symbol → Prop
  | .comma, .text _ | .comma, .word _ => True
  | .opening, .text _ | .opening, .word _ | .opening, .closing => True
  | .closing, .comma | .closing, .closing => True
  | .text _, .comma | .text _, .closing => True
  | .word _, .comma | .word _, .closing | .word _, .opening => True
  | _, _ => False

/-- Symbols that start like a parameter, end like one and may stand side by side. -/
structure Arranged (ks : List Symbol) : Prop where
  first : ∀ k ∈ ks.head?, Symbol.MayPrecede .comma k
  last : ∀ k ∈ ks.getLast?, k.MayPrecede .comma
  chain : ks.IsChain Symbol.MayPrecede

theorem Symbol.MayPrecede.closing {k : Symbol} (h : k.MayPrecede .comma) :
    k.MayPrecede .closing := by
  cases k <;> simp_all [Symbol.MayPrecede]

theorem Symbol.MayPrecede.opening {k : Symbol} (h : Symbol.MayPrecede .comma k) :
    Symbol.MayPrecede .opening k := by
  cases k <;> simp_all [Symbol.MayPrecede]

mutual

theorem CallText.arranged {ks : List Symbol} {c : Call} (h : CallText ks c) :
    Arranged ks ∧ ks.getLast? = some .closing := by
  cases h with
  | bare name =>
    refine ⟨⟨?_, ?_, ?_⟩, rfl⟩
    · simp [Symbol.MayPrecede]
    · simp [Symbol.MayPrecede]
    · simp [Symbol.MayPrecede]
  | @applied name ks ps h =>
    have hks := h.arranged
    have hclosed : (ks ++ [Symbol.closing]).IsChain Symbol.MayPrecede := by
      refine List.isChain_append.2 ⟨hks.chain, List.isChain_singleton _, ?_⟩
      rintro x hx y hy
      cases Option.mem_some_iff.1 hy
      exact (hks.last x hx).closing
    have hhead : (ks ++ [Symbol.closing]).head? = ks.head? := by
      cases ks with
      | nil => exact absurd rfl h.ne_nil
      | cons k ks => rfl
    have hlast : (Symbol.word name :: .opening :: (ks ++ [.closing])).getLast? = some .closing := by
      rw [← List.cons_append, ← List.cons_append, List.getLast?_concat]
    refine ⟨⟨?_, ?_, ?_⟩, hlast⟩
    · simp [Symbol.MayPrecede]
    · intro k hk
      rw [hlast] at hk
      cases Option.mem_some_iff.1 hk
      trivial
    · refine List.isChain_cons.2 ⟨?_, List.isChain_cons.2 ⟨fun k hk => ?_, hclosed⟩⟩
      · simp [Symbol.MayPrecede]
      · rw [hhead] at hk
        exact (hks.first k hk).opening

theorem ParamsText.arranged {ks : List Symbol} {ps : List Param} (h : ParamsText ks ps) :
    Arranged ks := by
  cases h with
  | one h => exact h.arranged
  | @more ks p ks' ps h hs =>
    have hks := h.arranged
    have hks' := hs.arranged
    refine ⟨fun k hk => ?_, fun k hk => ?_, List.isChain_append.2 ⟨hks.chain, ?_, ?_⟩⟩
    · obtain ⟨d, ds, rfl⟩ := List.exists_cons_of_ne_nil h.ne_nil
      exact hks.first k hk
    · rw [List.getLast?_append_of_ne_nil _ (by simp)] at hk
      obtain ⟨d, ds, rfl⟩ := List.exists_cons_of_ne_nil hs.ne_nil
      rw [List.getLast?_cons_cons] at hk
      exact hks'.last k hk
    · exact List.isChain_cons.2 ⟨hks'.first, hks'.chain⟩
    · rintro x hx y hy
      cases Option.mem_some_iff.1 hy
      exact hks.last x hx

theorem ParamText.arranged {ks : List Symbol} {p : Param} (h : ParamText ks p) : Arranged ks := by
  cases h with
  | text s =>
    refine ⟨?_, ?_, List.isChain_singleton _⟩
    · simp [Symbol.MayPrecede]
    · simp [Symbol.MayPrecede]
  | literal h =>
    refine ⟨?_, ?_, List.isChain_singleton _⟩
    · simp [Symbol.MayPrecede]
    · simp [Symbol.MayPrecede]
  | call h => exact h.arranged.1

end

/-- **Calls do not differ by a comma.** -/
theorem CallText.no_other_comma {ks ks' : List Symbol} {c c' : Call} (h : CallText (ks ++ ks') c) :
    ¬ CallText (ks ++ .comma :: ks') c' := by
  intro h'
  have hbehind := List.isChain_append.1 h'.arranged.1.chain
  cases hlast : ks.getLast? with
  | none =>
    rw [List.getLast?_eq_none_iff] at hlast
    subst hlast
    exact h'.arranged.1.first .comma rfl
  | some x =>
    have hx : x.MayPrecede .comma := hbehind.2.2 x hlast .comma rfl
    cases ks' with
    | nil =>
      have hend := h'.arranged.2
      rw [List.getLast?_concat] at hend
      cases hend
    | cons y ks' =>
      have hy : Symbol.MayPrecede .comma y := (List.isChain_cons.1 hbehind.2.1).1 y rfl
      have hxy : x.MayPrecede y :=
        (List.isChain_append.1 h.arranged.1.chain).2.2 x hlast y rfl
      cases x <;> cases y <;> simp_all [Symbol.MayPrecede]

/-- A text that is read with some limit on the nesting. -/
def IsRead (text : String) : Prop :=
  ∃ limit c, parse limit text = .ok c

theorem blanks_of_isRead {text extra : String} (h : IsRead text) (h' : IsRead (text ++ extra)) :
    Text.Blanks extra.toList := by
  obtain ⟨limit, c, h⟩ := h
  obtain ⟨limit', c', h'⟩ := h'
  obtain ⟨⟨ks, hs, hc⟩, hn⟩ := parse_eq_ok.1 h
  obtain ⟨hspelled, hn'⟩ := parse_eq_ok.1 h'
  have hboth : parse (max limit limit') (text ++ extra) = .ok c' :=
    parse_eq_ok.2 ⟨hspelled, Nat.le_trans hn' (Nat.le_max_right ..)⟩
  obtain ⟨ts, position, htokens, hts⟩ := exists_carry_append hs extra.toList
    (.inr fun w hw => by rw [hc.arranged.2] at hw; cases hw) 0
  rw [parse, String.toList_append, htokens,
    parseTokens_of_call hc (Nat.le_trans hn (Nat.le_max_left ..)) hts] at hboth
  split at hboth
  · next hnil => exact blanks_of_tokens_nil hnil
  · cases hboth

/-- **The parser reads exactly the calls of the grammar**, with some limit on the nesting. Blanks
around the symbols do not matter, no comma may be left out or put in, nothing but blanks may follow,
and a text with a token that cannot be read is not read. -/
theorem parse_iff_spells (text : String) :
    (∀ c, (∃ limit, parse limit text = .ok c) ↔ Says text.toList c) ∧
      (∀ other ks, Spells text.toList ks → Spells other.toList ks →
        ∀ limit c, parse limit text = .ok c ↔ parse limit other = .ok c) ∧
      (∀ other ks ks', Spells text.toList (ks ++ ks') → Spells other.toList (ks ++ .comma :: ks') →
        ¬ (IsRead text ∧ IsRead other)) ∧
      (∀ extra, IsRead text → IsRead (text ++ extra) → Text.Blanks extra.toList) ∧
      (IsRead text → ∀ t ∈ tokens 0 text.toList, ∀ c d, t.kind ≠ .defective c d) := by
  have hunique : ∀ {text : String} {ks : List Symbol} {limit : Nat} {c : Call},
      Spells text.toList ks → (parse limit text = .ok c ↔ CallText ks c ∧ c.nesting ≤ limit) := by
    intro text ks limit c hs
    rw [parse_eq_ok]
    refine and_congr_left' ⟨?_, fun hc => ⟨ks, hs, hc⟩⟩
    rintro ⟨ks', hs', hc⟩
    rwa [((spells_iff_carry 0).1 hs).unique ((spells_iff_carry 0).1 hs')]
  refine ⟨fun c => ⟨?_, fun h => ?_⟩, fun other ks hs hs' limit c => ?_, ?_, ?_, ?_⟩
  · rintro ⟨limit, h⟩
    exact (parse_eq_ok.1 h).1
  · exact ⟨c.nesting, parse_eq_ok.2 ⟨h, Nat.le_refl _⟩⟩
  · rw [hunique hs, hunique hs']
  · rintro other ks ks' hs hs' ⟨⟨limit, c, h⟩, limit', c', h'⟩
    exact ((hunique hs).1 h).1.no_other_comma ((hunique hs').1 h').1
  · exact fun extra h h' => blanks_of_isRead h h'
  · rintro ⟨limit, c, h⟩ t ht first d hkind
    obtain ⟨⟨ks, hs, -⟩, -⟩ := parse_eq_ok.1 h
    have hnone : none ∈ (tokens 0 text.toList).map Token.symbol? :=
      List.mem_map.2 ⟨t, ht, Token.symbol?_of_kind hkind⟩
    have hcarry : (tokens 0 text.toList).map Token.symbol? = ks.map some :=
      (spells_iff_carry 0).1 hs
    rw [hcarry] at hnone
    simp at hnone

end StatesLang.Call
