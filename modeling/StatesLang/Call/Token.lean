import StatesLang.Call.Basic
import StatesLang.Text.Classes

/-!
# The tokens of a call

Positions count characters from the beginning of the text.

* `Call.Defect`: why a text is no call, and its wording.
* `Call.Token`: punctuation, quoted texts and bare words, each with its position.
* `Call.quotedText`, `Call.bareWord`: the content of a token and the text behind it.
* `Call.tokens`: the tokens of a text. A token that cannot be read holds its defect and is the last.
-/

namespace StatesLang.Call

/-- Why a text is no call. -/
inductive Defect
  | expectedName (position : Nat)
  | expectedParameters (position : Nat)
  | tooDeep (limit position : Nat)
  | unclosedParameters (start : Nat)
  | expectedParameter (position : Nat)
  | unexpected (c : Char) (position : Nat)
  | trailing (c : Char) (position : Nat)
  | unrecognized (word : String) (position : Nat)
  | unterminatedText (start : Nat)
  | danglingEscape (position : Nat)
  | unexpectedQuote (position : Nat)
  | unclosedBracket (word : String)
deriving DecidableEq

/-- The wording of a defect. -/
def Defect.message : Defect → String
  | .expectedName p => s!"expected function name at position {p}"
  | .expectedParameters p => s!"expected '(' after function name at position {p}"
  | .tooDeep limit p => s!"functions nested deeper than {limit} levels at position {p}"
  | .unclosedParameters p => s!"missing ')' for parameter list opened at position {p}"
  | .expectedParameter p => s!"expected parameter at position {p}"
  | .unexpected c p => s!"unexpected character '{c}' at position {p}"
  | .trailing c p => s!"unexpected character '{c}' after closing ')' at position {p}"
  | .unrecognized word p => s!"unrecognized token '{word}' at position {p}"
  | .unterminatedText p => s!"unterminated string starting at position {p}"
  | .danglingEscape p => s!"dangling escape at position {p}"
  | .unexpectedQuote p => s!"unexpected quote at position {p}"
  | .unclosedBracket word => s!"unterminated '[' in token '{word}'"

/-- What a token says. -/
inductive Token.Kind
  | comma
  | opening
  | closing
  | quoted (content : List Char)
  | bare (first : Char) (content : List Char)
  /-- A token that cannot be read, with its first character. -/
  | defective (first : Char) (defect : Defect)
deriving DecidableEq

/-- A token and its position. -/
structure Token where
  kind : Token.Kind
  position : Nat
deriving DecidableEq

/-- The first character of a token. -/
def Token.first (t : Token) : Char :=
  match t.kind with
  | .comma => ','
  | .opening => '('
  | .closing => ')'
  | .quoted _ => '\''
  | .bare c _ => c
  | .defective c _ => c

/-- The content of a token, the text behind it and the position of that text. -/
structure Lexeme where
  content : List Char
  rest : List Char
  position : Nat
deriving DecidableEq

/-- Puts characters before the content. -/
def Lexeme.prepend (cs : List Char) (l : Lexeme) : Lexeme :=
  { l with content := cs ++ l.content }

/-! ## Quoted texts -/

/-- A quoted text, read behind its opening quote. A backslash is dropped before a backslash and
before a quote and stays before any other character. There is none without a closing quote. -/
def quotedText (position : Nat) : List Char → Option Lexeme
  | [] | ['\\'] => none
  | '\\' :: c :: rest =>
    (quotedText (position + 2) rest).map
      (·.prepend (if c = '\'' ∨ c = '\\' then [c] else ['\\', c]))
  | c :: rest =>
    if c = '\'' then some ⟨[], rest, position + 1⟩
    else (quotedText (position + 1) rest).map (·.prepend [c])

/-! ## Bare words -/

/-- Whether a character ends a bare word outside brackets. -/
def isDelimiter (c : Char) : Bool :=
  c == ',' || c == '(' || c == ')' || Text.isBlank c

/-- Where a character of a bare word stands: how many brackets are open around it, and the quote
that is open inside them. -/
structure Place where
  brackets : Nat
  quote : Option Char
deriving DecidableEq

/-- Outside all brackets. -/
def Place.outside : Place := ⟨0, none⟩

/-- Where the next character stands after one that is no escape. Inside a quote only the same quote
counts; outside brackets quotes do not count. -/
def Place.after (p : Place) (c : Char) : Place :=
  match p.quote with
  | some q => if c = q then { p with quote := none } else p
  | none =>
    if c = '[' then { p with brackets := p.brackets + 1 }
    else if c = ']' then { p with brackets := p.brackets - 1 }
    else if (c = '\'' ∨ c = '"') ∧ 0 < p.brackets then { p with quote := some c }
    else p

/-- A bare word up to the first delimiter outside brackets, and the place where it ends. An escape
outside brackets stands for the escaped character alone; inside brackets all is kept. -/
def bareWord (position : Nat) (place : Place) : List Char → Except Defect (Lexeme × Place)
  | [] => .ok (⟨[], [], position⟩, place)
  | ['\\'] => .error (.danglingEscape position)
  | '\\' :: c :: rest => do
    let (l, place') ← bareWord (position + 2) place rest
    return (l.prepend (if place.brackets = 0 then [c] else ['\\', c]), place')
  | c :: rest =>
    if place.brackets = 0 ∧ isDelimiter c then .ok (⟨[], c :: rest, position⟩, place)
    else if place.brackets = 0 ∧ c = '\'' then .error (.unexpectedQuote position)
    else do
      let (l, place') ← bareWord (position + 1) (place.after c) rest
      return (l.prepend [c], place')

/-- A bare word whose brackets are closed again. -/
def closedWord (position : Nat) (cs : List Char) : Except Defect Lexeme := do
  let (l, place) ← bareWord position .outside cs
  if place.brackets = 0 then .ok l
  else .error (.unclosedBracket (String.ofList l.content))

/-! ## What is read is behind -/

theorem quotedText_length {position : Nat} {cs : List Char} {l : Lexeme}
    (h : quotedText position cs = some l) : l.rest.length < cs.length := by
  fun_induction quotedText position cs generalizing l with
  | case1 => cases h
  | case2 => cases h
  | case3 position c rest ih =>
    obtain ⟨m, hm, rfl⟩ := Option.map_eq_some_iff.1 h
    have := ih hm
    simp only [Lexeme.prepend, List.length_cons]
    omega
  | case4 => cases h; simp
  | case5 position c rest =>
    rename_i ih
    obtain ⟨m, hm, rfl⟩ := Option.map_eq_some_iff.1 h
    have := ih hm
    simp only [Lexeme.prepend, List.length_cons]
    omega

theorem bareWord_length {position : Nat} {place : Place} {cs : List Char} {r : Lexeme × Place}
    (h : bareWord position place cs = .ok r) : r.1.rest.length ≤ cs.length := by
  fun_induction bareWord position place cs generalizing r with
  | case1 => cases h; simp
  | case2 => cases h
  | case3 position place c rest ih =>
    cases hr : bareWord (position + 2) place rest with
    | error e => rw [hr] at h; cases h
    | ok q =>
      rw [hr] at h
      cases h
      have := ih hr
      simp only [Lexeme.prepend, List.length_cons]
      omega
  | case4 => cases h; simp
  | case5 => cases h
  | case6 position place c rest =>
    rename_i ih
    cases hr : bareWord (position + 1) (place.after c) rest with
    | error e => rw [hr] at h; cases h
    | ok q =>
      rw [hr] at h
      cases h
      have := ih hr
      simp only [Lexeme.prepend, List.length_cons]
      omega

theorem closedWord_length {position : Nat} {c : Char} {rest : List Char} {l : Lexeme}
    (hc : isDelimiter c = false) (h : closedWord position (c :: rest) = .ok l) :
    l.rest.length < (c :: rest).length := by
  have key : ∀ {r}, bareWord position .outside (c :: rest) = .ok r →
      r.1.rest.length < (c :: rest).length := by
    intro r hr
    unfold bareWord at hr
    split at hr
    · rename_i he; cases he
    · cases hr
    · rename_i c' rest' he
      cases he
      cases hq : bareWord (position + 2) .outside rest' with
      | error e => rw [hq] at hr; cases hr
      | ok q =>
        rw [hq] at hr
        cases hr
        have := bareWord_length hq
        simp only [Lexeme.prepend, List.length_cons]
        omega
    · rename_i c' rest' _ _ he
      cases he
      simp only [hc] at hr
      split at hr
      · rename_i hd; exact absurd hd.2 (by decide)
      · split at hr
        · cases hr
        · cases hq : bareWord (position + 1) (Place.outside.after c) rest with
          | error e => rw [hq] at hr; cases hr
          | ok q =>
            rw [hq] at hr
            cases hr
            have := bareWord_length hq
            simp only [Lexeme.prepend, List.length_cons]
            omega
  cases hb : bareWord position .outside (c :: rest) with
  | error e => simp only [closedWord, hb] at h; cases h
  | ok r =>
    have hk := key hb
    simp only [closedWord, hb, bind, Except.bind] at h
    split at h
    · cases h; exact hk
    · cases h

/-! ## Tokens -/

/-- The tokens of a text that starts at a position. -/
def tokens (position : Nat) : List Char → List Token
  | [] => []
  | c :: rest =>
    if hb : Text.isBlank c then tokens (position + 1) rest
    else if hc : c = ',' then ⟨.comma, position⟩ :: tokens (position + 1) rest
    else if ho : c = '(' then ⟨.opening, position⟩ :: tokens (position + 1) rest
    else if he : c = ')' then ⟨.closing, position⟩ :: tokens (position + 1) rest
    else if c = '\'' then
      match h : quotedText (position + 1) rest with
      | some l =>
        have := quotedText_length h
        ⟨.quoted l.content, position⟩ :: tokens l.position l.rest
      | none => [⟨.defective c (.unterminatedText position), position⟩]
    else
      match h : closedWord position (c :: rest) with
      | .ok l =>
        have := closedWord_length (by simp [isDelimiter, hb, hc, ho, he]) h
        ⟨.bare c l.content, position⟩ :: tokens l.position l.rest
      | .error d => [⟨.defective c d, position⟩]
termination_by cs => cs.length
decreasing_by all_goals simp only [List.length_cons] at *; omega

end StatesLang.Call
