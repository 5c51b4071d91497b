import Mathlib.Algebra.Ring.Nat
import StatesLang.Proofs.Evaluation.Handlers

/-!
# What comes of templates of texts

A template of a text is cut at its placeholders, the texts of the arguments are put between the
pieces, and the backslashes before braces are taken out of the whole.

* `Format.Cut`: a template and its literal pieces.
* `Format.weave`: pieces with texts between them.
* `Format.fill_eq_ok`: what filling in a template gives, and when.
* `Format.escapes`: the number of backslashes before braces.
* `Format.unescape_weave_iff`: the texts stay as they are where every such backslash is in a piece.
* **`Builtin.format_verbatim_iff`**: the value of a template, and when the arguments stand in it
  unchanged.
-/

namespace StatesLang

namespace Format

/-! ## Pieces -/

/-- A template and its literal pieces, those before, between and behind its placeholders. A
backslash belongs to a piece together with the character behind it. -/
inductive Cut : List Char → List (List Char) → Prop
  | done : Cut [] [[]]
  | dangling : Cut ['\\'] [['\\']]
  | escaped (c : Char) {rest l : List Char} {ls : List (List Char)} (h : Cut rest (l :: ls)) :
    Cut ('\\' :: c :: rest) (('\\' :: c :: l) :: ls)
  | placeholder {rest : List Char} {ls : List (List Char)} (h : Cut rest ls) :
    Cut ('\x7b' :: '\x7d' :: rest) ([] :: ls)
  | plain {c : Char} {rest l : List Char} {ls : List (List Char)} (hc : c ≠ '\\')
    (hno : c = '\x7b' → rest.head? ≠ some '\x7d') (h : Cut rest (l :: ls)) :
    Cut (c :: rest) ((c :: l) :: ls)

/-- Texts put between pieces, nothing where there are not enough of them. -/
def weave : List (List Char) → List (List Char) → List Char
  | [], _ => []
  | l :: ls, ts => l ++ (ts.headD [] ++ weave ls ts.tail)

theorem Cut.exists_cons {cs : List Char} {ls : List (List Char)} (h : Cut cs ls) :
    ∃ l rest, ls = l :: rest := by
  cases h <;> exact ⟨_, _, rfl⟩

theorem exists_cut (cs : List Char) : ∃ ls, Cut cs ls := by
  fun_induction pieces cs with
  | case1 => exact ⟨_, .done⟩
  | case2 => exact ⟨_, .dangling⟩
  | case3 c rest ih =>
    obtain ⟨ls, h⟩ := ih
    obtain ⟨l, ls, rfl⟩ := h.exists_cons
    exact ⟨_, .escaped c h⟩
  | case4 rest ih =>
    obtain ⟨ls, h⟩ := ih
    exact ⟨_, .placeholder h⟩
  | case5 c rest hlone hescape hopen ih =>
    obtain ⟨ls, h⟩ := ih
    obtain ⟨l, ls, rfl⟩ := h.exists_cons
    refine ⟨_, .plain ?_ ?_ h⟩
    · rintro rfl
      cases rest with
      | nil => exact hlone rfl rfl
      | cons d rest => exact hescape d rest rfl rfl
    · rintro rfl hhead
      obtain ⟨rest, rfl⟩ := List.head?_eq_some_iff.1 hhead
      exact hopen rest rfl rfl

theorem Cut.unique {cs : List Char} {ls ls' : List (List Char)} (h : Cut cs ls)
    (h' : Cut cs ls') : ls' = ls := by
  induction h generalizing ls' with
  | done => cases h'; rfl
  | dangling =>
    cases h' with
    | dangling => rfl
    | plain hc => exact absurd rfl hc
  | escaped c _ ih =>
    cases h' with
    | escaped _ h' => cases ih h'; rfl
    | plain hc => exact absurd rfl hc
  | placeholder _ ih =>
    cases h' with
    | placeholder h' => rw [ih h']
    | plain _ hno => exact absurd rfl (hno rfl)
  | plain hc hno _ ih =>
    cases h' with
    | dangling | escaped => exact absurd rfl hc
    | placeholder => exact absurd rfl (hno rfl)
    | plain _ _ h' => cases ih h'; rfl

/-! ## Filling in -/

/-- Arguments that all have texts, as many as there are gaps between the pieces, and the pieces with
the texts in these gaps. -/
def Fills (ls : List (List Char)) (args : List Json) (out : List Char) : Prop :=
  ∃ texts : List (List Char), args.map scalarText? = texts.map some ∧
    ls.length = texts.length + 1 ∧ out = weave ls texts

section Fills

variable {l cs out : List Char} {ls : List (List Char)} {args : List Json}

theorem fills_last : Fills [l] args out ↔ args = [] ∧ out = l := by
  constructor
  · rintro ⟨texts, hargs, hlength, rfl⟩
    have htexts : texts = [] := List.length_eq_zero_iff.1 (Nat.succ.inj hlength).symm
    subst htexts
    exact ⟨List.map_eq_nil_iff.1 hargs, List.append_nil l⟩
  · rintro ⟨rfl, rfl⟩
    exact ⟨[], rfl, rfl, (List.append_nil out).symm⟩

theorem fills_append :
    Fills ((cs ++ l) :: ls) args out ↔
      ∃ filled, Fills (l :: ls) args filled ∧ out = cs ++ filled := by
  constructor
  · rintro ⟨texts, hargs, hlength, rfl⟩
    exact ⟨_, ⟨texts, hargs, hlength, rfl⟩, List.append_assoc ..⟩
  · rintro ⟨_, ⟨texts, hargs, hlength, rfl⟩, rfl⟩
    exact ⟨texts, hargs, hlength, (List.append_assoc ..).symm⟩

theorem fills_nil_cons (hls : ls ≠ []) : Fills ([] :: ls) args out ↔ ∃ a rest text filled,
    args = a :: rest ∧ scalarText? a = some text ∧ Fills ls rest filled ∧ out = text ++ filled := by
  constructor
  · rintro ⟨texts, hargs, hlength, rfl⟩
    cases texts with
    | nil => exact absurd (List.length_eq_zero_iff.1 (Nat.succ.inj hlength)) hls
    | cons text texts =>
      obtain ⟨a, rest, rfl, ha, hrest⟩ := List.map_eq_cons_iff.1 hargs
      exact ⟨a, rest, text, _, rfl, ha, ⟨texts, hrest, Nat.succ.inj hlength, rfl⟩, rfl⟩
  · rintro ⟨a, rest, text, _, rfl, ha, ⟨texts, hrest, hlength, rfl⟩, rfl⟩
    exact ⟨text :: texts, by rw [List.map_cons, ha, hrest, List.map_cons],
      congrArg Nat.succ hlength, rfl⟩

end Fills

section Pieces

variable {given index : Nat} {cs : List Char} {rest : List Piece} {args : List Json}
  {out : List Char}

theorem pieces_plain {c : Char} {rest : List Char} (hc : c ≠ '\\')
    (hno : c = '\x7b' → rest.head? ≠ some '\x7d') :
    pieces (c :: rest) = .literal [c] :: pieces rest := by
  rw [pieces]
  · rintro rfl
    exact absurd rfl hc
  · rintro _ _ rfl
    exact absurd rfl hc
  · rintro _ rfl rfl
    exact absurd rfl (hno rfl)

theorem fill_literal_eq_ok : fill given index (.literal cs :: rest) args = .ok out ↔
    ∃ filled, fill given index rest args = .ok filled ∧ out = cs ++ filled := by
  rw [fill, Decode.bind_eq_ok]
  exact exists_congr fun _ => and_congr_right fun _ =>
    ⟨fun h => (Except.ok.inj h).symm, fun h => congrArg Except.ok h.symm⟩

theorem fill_placeholder_eq_ok : fill given index (.placeholder :: rest) args = .ok out ↔
    ∃ a more text filled, args = a :: more ∧ scalarText? a = some text ∧
      fill given (index + 1) rest more = .ok filled ∧ out = text ++ filled := by
  cases args with
  | nil => simp [fill]
  | cons a more =>
    rw [fill]
    cases ha : scalarText? a with
    | none => simp [ha]
    | some text =>
      simp only [Decode.bind_eq_ok, List.cons.injEq]
      constructor
      · rintro ⟨filled, hfilled, hout⟩
        exact ⟨a, more, text, filled, ⟨rfl, rfl⟩, ha, hfilled, (Except.ok.inj hout).symm⟩
      · rintro ⟨_, _, _, filled, ⟨rfl, rfl⟩, htext, hfilled, rfl⟩
        cases ha.symm.trans htext
        exact ⟨filled, hfilled, rfl⟩

/-- **Filling in a template puts the texts of the arguments between its pieces.** It succeeds
exactly if every argument has a text and there are as many of them as placeholders. -/
theorem fill_eq_ok {template : List Char} {ls : List (List Char)} (h : Cut template ls) :
    ∀ {index args out}, fill given index (pieces template) args = .ok out ↔ Fills ls args out := by
  have hnil : ∀ {index args out}, fill given index [] args = .ok out ↔ Fills [[]] args out := by
    intro index args out
    rw [fills_last]
    cases args with
    | nil => exact ⟨fun h => ⟨rfl, (Except.ok.inj h).symm⟩, fun h => congrArg Except.ok h.2.symm⟩
    | cons a args => exact ⟨nofun, nofun⟩
  -- a literal becomes part of the first piece of what follows
  have hliteral : ∀ (rest : List Char) {index args out cs l ls},
      (∀ filled, fill given index (pieces rest) args = .ok filled ↔ Fills (l :: ls) args filled) →
        (fill given index (.literal cs :: pieces rest) args = .ok out ↔
          Fills ((cs ++ l) :: ls) args out) := by
    intro rest index args out cs l ls ih
    rw [fill_literal_eq_ok, fills_append]
    exact exists_congr fun filled => and_congr_left' (ih filled)
  induction h with
  | done => exact hnil
  | dangling => exact hliteral [] fun _ => hnil
  | escaped c _ ih => exact hliteral _ fun _ => ih
  | placeholder h ih =>
    intro index args out
    obtain ⟨l, ls, rfl⟩ := h.exists_cons
    rw [pieces, fill_placeholder_eq_ok, fills_nil_cons (List.cons_ne_nil _ _)]
    simp only [ih]
  | plain hc hno _ ih =>
    intro index args out
    rw [pieces_plain hc hno]
    exact hliteral _ fun _ => ih

end Pieces

/-! ## Backslashes before braces -/

/-- A backslash with a brace behind it. -/
def IsEscape (c : Char) (rest : List Char) : Prop :=
  c = '\\' ∧ (rest.head? = some '\x7b' ∨ rest.head? = some '\x7d')

instance (c : Char) (rest : List Char) : Decidable (IsEscape c rest) :=
  inferInstanceAs (Decidable (_ ∧ _))

/-- The number of backslashes with a brace behind them. -/
def escapes : List Char → Nat
  | [] => 0
  | c :: rest => (if IsEscape c rest then 1 else 0) + escapes rest

theorem IsEscape.append {c : Char} {a : List Char} (b : List Char) (h : IsEscape c a) :
    IsEscape c (a ++ b) := by
  cases a with
  | nil => simp [IsEscape] at h
  | cons d a => exact h

/-- Exactly the backslashes before braces are dropped. -/
theorem unescape_cons (c : Char) (rest : List Char) :
    unescape (c :: rest) = if IsEscape c rest then unescape rest else c :: unescape rest := by
  have hbrace : ∀ {b : Char} (rest : List Char), b = '\x7b' ∨ b = '\x7d' →
      unescape (b :: rest) = b :: unescape rest := by
    rintro b rest (rfl | rfl)
    all_goals
      rw [unescape]
      simp
  cases rest with
  | nil => simp [unescape, IsEscape]
  | cons d rest =>
    by_cases hc : c = '\\'
    · subst hc
      rw [unescape]
      by_cases hd : d = '\x7b' ∨ d = '\x7d'
      · rw [if_pos hd, if_pos ⟨rfl, by simpa using hd⟩, hbrace rest hd]
      · rw [if_neg hd, if_neg fun h => hd (by simpa [IsEscape] using h)]
    · rw [unescape, if_neg fun h => hc h.1]
      rintro _ _ rfl
      exact absurd rfl hc

theorem length_unescape (cs : List Char) : (unescape cs).length + escapes cs = cs.length := by
  induction cs with
  | nil => simp [unescape, escapes]
  | cons c rest ih =>
    rw [unescape_cons, escapes]
    split
    · rw [List.length_cons]
      omega
    · rw [List.length_cons, List.length_cons]
      omega

theorem escapes_append_le (a b : List Char) : escapes a + escapes b ≤ escapes (a ++ b) := by
  induction a with
  | nil => simp [escapes]
  | cons c a ih =>
    rw [List.cons_append, escapes, escapes]
    by_cases hc : IsEscape c a
    · rw [if_pos hc, if_pos (hc.append b)]
      omega
    · rw [if_neg hc]
      omega

/-- Texts put together lose the backslashes that each of them loses, if no other brace has got a
backslash before it. -/
theorem unescape_append {a b : List Char} (h : escapes (a ++ b) = escapes a + escapes b) :
    unescape (a ++ b) = unescape a ++ unescape b := by
  -- the whole never has fewer of these backslashes, so the numbers agree behind each character, too
  induction a with
  | nil => simp [unescape]
  | cons c a ih =>
    have hle := escapes_append_le a b
    rw [List.cons_append, escapes, escapes] at h
    rw [List.cons_append, unescape_cons, unescape_cons]
    by_cases hc : IsEscape c a
    · rw [if_pos (hc.append b), if_pos hc] at h
      rw [if_pos (hc.append b), if_pos hc, ih (by omega)]
    · rw [if_neg hc] at h
      by_cases hc' : IsEscape c (a ++ b)
      · rw [if_pos hc'] at h
        omega
      · rw [if_neg hc'] at h
        rw [if_neg hc', if_neg hc, ih (by omega), List.cons_append]

theorem unescape_eq_self {cs : List Char} : unescape cs = cs ↔ escapes cs = 0 := by
  have hlength := length_unescape cs
  constructor
  · intro h
    rw [h] at hlength
    omega
  · intro h
    induction cs with
    | nil => rw [unescape]
    | cons c rest ih =>
      rw [escapes] at h
      by_cases hc : IsEscape c rest
      · rw [if_pos hc] at h
        omega
      · rw [unescape_cons, if_neg hc, ih (length_unescape rest) (by omega)]

/-! ## Backslashes in pieces and texts -/

theorem length_weave_unescape : (ls ts : List (List Char)) →
    (weave (ls.map unescape) ts).length + (ls.map escapes).sum = (weave ls ts).length
  | [], _ => rfl
  | l :: ls, ts => by
    have hrest := length_weave_unescape ls ts.tail
    have hl := length_unescape l
    simp only [List.map_cons, weave, List.length_append, List.sum_cons]
    omega

theorem sum_le_escapes_weave : (ls ts : List (List Char)) →
    (ls.map escapes).sum ≤ escapes (weave ls ts)
  | [], _ => Nat.zero_le _
  | l :: ls, ts => by
    have hrest := sum_le_escapes_weave ls ts.tail
    have hl := escapes_append_le l (ts.headD [] ++ weave ls ts.tail)
    have ht := escapes_append_le (ts.headD []) (weave ls ts.tail)
    rw [List.map_cons, List.sum_cons, weave]
    omega

/-- The texts between the pieces stay as they are exactly if each backslash before a brace stands,
with this brace, in one of the pieces. -/
theorem unescape_weave_iff {ls ts : List (List Char)} :
    unescape (weave ls ts) = weave (ls.map unescape) ts ↔
      escapes (weave ls ts) = (ls.map escapes).sum := by
  constructor
  · -- the lengths of the two sides tell how many backslashes each has lost
    intro h
    have hwoven := length_unescape (weave ls ts)
    have hpieces := length_weave_unescape ls ts
    rw [h] at hwoven
    omega
  · intro h
    induction ls generalizing ts with
    | nil => simp [weave, unescape]
    | cons l ls ih =>
      have hrest := sum_le_escapes_weave ls ts.tail
      have hl := escapes_append_le l (ts.headD [] ++ weave ls ts.tail)
      have ht := escapes_append_le (ts.headD []) (weave ls ts.tail)
      rw [List.map_cons, List.sum_cons, weave] at h
      have htext : unescape (ts.headD []) = ts.headD [] := unescape_eq_self.2 (by omega)
      rw [weave, unescape_append (by omega), unescape_append (by omega), htext, ih (by omega),
        List.map_cons, weave]

end Format

namespace Builtin

open Format (Cut Fills weave escapes unescape scalarText?)

theorem format_eq {c : Call} {s : Handler.Scope} {template : String} {args : List Json}
    (h : s.resolveAll c = .ok (.string template :: args)) :
    format c s = match Format.fill args.length 0 (Format.pieces template.toList) args with
      | .ok cs => .ok (.string (String.ofList (unescape cs)))
      | .error f => fail c f := by
  have htakes : takes 1 none c.params.length = true := by
    rw [← Handler.Scope.length_of_resolveFrom h]
    simp [takes]
  unfold format arguments
  rw [if_pos htakes, h]
  rfl

theorem format_eq_ok {c : Call} {s : Handler.Scope} {template : String} {args : List Json}
    {ls : List (List Char)} {v : Json} (h : s.resolveAll c = .ok (.string template :: args))
    (hcut : Cut template.toList ls) :
    format c s = .ok v ↔ ∃ out, Fills ls args out ∧ v = .string (String.ofList (unescape out)) := by
  have hfill (out : List Char) : Format.fill args.length 0 (Format.pieces template.toList) args =
      .ok out ↔ Fills ls args out := Format.fill_eq_ok hcut
  simp only [← hfill]
  rw [format_eq h]
  cases Format.fill args.length 0 (Format.pieces template.toList) args with
  | error f => simp [fail]
  | ok out => simp [eq_comm]

/-- **Arguments stand unchanged in a filled-in template exactly if no backslash before a brace is
theirs or comes about between them and the pieces.** The backslashes before braces are dropped once,
from the whole, and not from each piece. So a text alone in the template `{}` stays as it is exactly
if it has no backslash before a brace. -/
theorem format_verbatim_iff {c : Call} {s : Handler.Scope} :
    (∀ {template args v}, s.resolveAll c = .ok (.string template :: args) → format c s = .ok v →
      ∃ ls texts : List (List Char), (∀ ls', Cut template.toList ls' ↔ ls' = ls) ∧
        args.map scalarText? = texts.map some ∧ ls.length = texts.length + 1 ∧
        v = .string (String.ofList (unescape (weave ls texts))) ∧
        (v = .string (String.ofList (weave (ls.map unescape) texts)) ↔
          escapes (weave ls texts) = (ls.map escapes).sum)) ∧
    ∀ {text}, s.resolveAll c = .ok [.string "\x7b\x7d", .string text] →
      ∃ out, format c s = .ok (.string out) ∧ (out = text ↔ escapes text.toList = 0) := by
  constructor
  · intro template args v hargs h
    obtain ⟨ls, hcut⟩ := Format.exists_cut template.toList
    obtain ⟨_, ⟨texts, htexts, hlength, rfl⟩, rfl⟩ := (format_eq_ok hargs hcut).1 h
    refine ⟨ls, texts, fun ls' => ⟨hcut.unique, fun h => h ▸ hcut⟩, htexts, hlength, rfl, ?_⟩
    rw [← Format.unescape_weave_iff, Json.string.injEq, String.ofList_inj]
  · intro text hargs
    have hcut : Cut "\x7b\x7d".toList [[], []] := .placeholder .done
    have hfills : Fills [[], []] [.string text] text.toList :=
      ⟨[text.toList], rfl, rfl, (List.append_nil text.toList).symm⟩
    refine ⟨_, (format_eq_ok hargs hcut).2 ⟨_, hfills, rfl⟩, ?_⟩
    rw [← Format.unescape_eq_self, ← String.toList_inj, String.toList_ofList]

/-- A text put into a template. -/
def formatted (template text : String) : Call :=
  ⟨"States.Format", [.string template, .string text]⟩

/-- Parameters of their own, with nothing to select from. -/
def bare : Handler.Scope :=
  ⟨⟨.null, .null⟩, {}, 0, fun _ => Registry.resolveParam ⟨.null, .null⟩ fun _ => .error .endless⟩

/-- Backslashes of a text stay where no brace is behind them, also between escaped braces. -/
theorem format_verbatim_directory :
    bare.resolveAll (formatted "\\\x7b\x7b\x7d\\\x7d" "C:\\tmp") =
        .ok [.string "\\\x7b\x7b\x7d\\\x7d", .string "C:\\tmp"] ∧
      format (formatted "\\\x7b\x7b\x7d\\\x7d" "C:\\tmp") bare =
        .ok (.string "\x7bC:\\tmp\x7d") ∧
      (∃ ls texts : List (List Char),
        (∀ ls', Cut "\\\x7b\x7b\x7d\\\x7d".toList ls' ↔ ls' = ls) ∧
        [Json.string "C:\\tmp"].map scalarText? = texts.map some ∧
        ls.length = texts.length + 1) ∧
      format (formatted "\x7b\x7d" "C:\\tmp") bare = .ok (.string "C:\\tmp") := by
  have hescaped : bare.resolveAll (formatted "\\\x7b\x7b\x7d\\\x7d" "C:\\tmp") =
      .ok [.string "\\\x7b\x7b\x7d\\\x7d", .string "C:\\tmp"] := by decide +kernel
  have hvalue : format (formatted "\\\x7b\x7b\x7d\\\x7d" "C:\\tmp") bare =
      .ok (.string "\x7bC:\\tmp\x7d") := by decide +kernel
  have halone : bare.resolveAll (formatted "\x7b\x7d" "C:\\tmp") =
      .ok [.string "\x7b\x7d", .string "C:\\tmp"] := by decide +kernel
  obtain ⟨ls, texts, hcut, htexts, hlength, -⟩ := format_verbatim_iff.1 hescaped hvalue
  obtain ⟨out, hout, hsame⟩ := format_verbatim_iff.2 halone
  cases hsame.2 (by decide +kernel)
  exact ⟨hescaped, hvalue, ⟨ls, texts, hcut, htexts, hlength⟩, hout⟩

/-- A text alone in a template does not always stay as it is. -/
theorem format_drops_backslash :
    (Registry.standard {}).evaluate 0 "States.Format('\x7b\x7d', $.s)"
        ⟨.object [("s", .string "\\\x7b")], .null⟩ = .ok (.string "\x7b") ∧
      "\x7b" ≠ "\\\x7b" := by
  decide +kernel

end Builtin

end StatesLang
