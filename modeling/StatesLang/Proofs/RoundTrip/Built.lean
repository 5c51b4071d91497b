import StatesLang.Proofs.RoundTrip.Call
import StatesLang.Proofs.RoundTrip.Path

/-!
# Calls built without a text

A call need not come out of a text. One that is put together from its parts is read back from its
text if the parts need no escape: brackets and quoted names in its paths do not, whatever stands in
them.

* `Call.Segment`, `Call.IsPathText`: paths as they are put together from names and steps.
* `Call.Built`: calls with plain names, such paths and finite decimals.
* `Call.Built.verbatim`, `Call.exists_callText`: such a call needs no escape, and it has symbols.
* **`Call.parse_render_built`**: it is read back from its text, if it is nested within the limit.
-/

namespace StatesLang

theorem Path.Step.unescaped_renderChars (step : Path.Step) :
    Call.Unescaped step.renderChars := by
  have h := Path.stepText_renderChars step
  generalize hcs : step.renderChars = cs at h
  cases h with
  | dotted => cases hcs
  | bracketed h =>
    obtain ⟨inner, rfl, hi⟩ := h.exists_enclosed
    exact .brackets hi .nil

namespace Call

/-! ## Calls and their parts -/

/-- No blanks, and none of these characters. -/
def Free (banned cs : List Char) : Prop :=
  ∀ c ∈ cs, Text.isBlank c = false ∧ c ∉ banned

instance (banned cs : List Char) : Decidable (Free banned cs) :=
  List.decidableBAll _ cs

/-- A segment of a path: a plain name behind a dot, or any step in brackets. -/
inductive Segment : List Char → Prop
  | dotted {name} (hne : name ≠ [])
      (hfree : Free ['.', '\\', ',', '(', ')', '\'', '"', '[', ']', '*', '?'] name) :
      Segment ('.' :: name)
  | bracketed (s : Path.Step) : Segment s.renderChars

/-- A path that is put together: a root, and any segments behind it. -/
def IsPathText (cs : List Char) : Prop :=
  ∃ (root : List Char) (segments : List (List Char)), (root = ['$'] ∨ root = ['$', '$']) ∧
    (∀ s ∈ segments, Segment s) ∧ cs = root ++ segments.flatten

mutual

/-- A call that is put together: its name and those of the calls in it are plain and not empty, its
decimals are finite and its paths are put together. Its texts may hold any characters. -/
def Built : Call → Prop
  | ⟨name, params⟩ =>
    name.toList ≠ [] ∧ Free ['\\', ',', '(', ')', '\'', '[', ']'] name.toList ∧ ParamsBuilt params

/-- The same for a parameter. -/
def Param.Built : Param → Prop
  | .path text => IsPathText text.toList
  | .decimal x => ∃ y, x = .finite y
  | .call c => Call.Built c
  | .null | .boolean _ | .string _ | .int _ => True

/-- The same for parameters. -/
def ParamsBuilt : List Param → Prop
  | [] => True
  | p :: ps => p.Built ∧ ParamsBuilt ps

end

/-! ## No escapes -/

theorem Free.plainChars {banned cs : List Char} (h : Free banned cs)
    (hbanned : ['\\', ',', '(', ')', '\'', '['] ⊆ banned) : PlainChars cs := by
  intro c hc
  obtain ⟨hblank, hno⟩ := h c hc
  have hne : ∀ d ∈ ['\\', ',', '(', ')', '\'', '['], c ≠ d :=
    fun d hd he => hno (hbanned (he ▸ hd))
  refine ⟨isDelimiter_eq_false.2 ⟨hblank, ?_, ?_, ?_⟩, ?_⟩
  · exact hne _ (by decide)
  · exact hne _ (by decide)
  · exact hne _ (by decide)
  · intro hmem
    exact hne c (by simp at hmem ⊢; tauto) rfl

theorem Unescaped.append {w w' : List Char} (h : Unescaped w) (h' : Unescaped w') :
    Unescaped (w ++ w') :=
  (h.word.append h'.word).unescaped rfl

theorem Segment.unescaped {cs : List Char} (h : Segment cs) : Unescaped cs := by
  cases h with
  | dotted _ hfree =>
    exact .plain (by decide) (by decide) (.of_plain (hfree.plainChars (by decide)))
  | bracketed s => exact s.unescaped_renderChars

theorem IsPathText.unescaped {cs : List Char} (h : IsPathText cs) : Unescaped cs := by
  obtain ⟨root, segments, hroot, hsegments, rfl⟩ := h
  have hflat : Unescaped segments.flatten := by
    clear hroot
    induction segments with
    | nil => exact .nil
    | cons s segments ih =>
      obtain ⟨hs, hrest⟩ := List.forall_mem_cons.1 hsegments
      exact hs.unescaped.append (ih hrest)
  refine .append ?_ hflat
  rcases hroot with rfl | rfl <;> exact .of_plain (by decide)

theorem IsPathText.exists_root {cs : List Char} (h : IsPathText cs) : ∃ rest, cs = '$' :: rest := by
  obtain ⟨root, segments, rfl | rfl, -, rfl⟩ := h
  · exact ⟨_, rfl⟩
  · exact ⟨_, rfl⟩

mutual

theorem Built.verbatim : (c : Call) → c.Built → c.Verbatim
  | ⟨_, params⟩, h =>
    ⟨.of_plain (h.2.1.plainChars (by decide)), ParamsBuilt.verbatim params h.2.2⟩

theorem Param.Built.verbatim : (p : Param) → p.Built → p.Verbatim
  | .path _, h => IsPathText.unescaped h
  | .decimal _, h => h
  | .call c, h => Call.Built.verbatim c h
  | .null, _ | .boolean _, _ | .string _, _ | .int _, _ => trivial

theorem ParamsBuilt.verbatim : (ps : List Param) → ParamsBuilt ps → ParamsVerbatim ps
  | [], _ => trivial
  | p :: ps, h => ⟨Param.Built.verbatim p h.1, ParamsBuilt.verbatim ps h.2⟩

end

/-! ## Symbols -/

theorem wordsNonempty_append {ks ks' : List Symbol} (h : WordsNonempty ks)
    (h' : WordsNonempty ks') : WordsNonempty (ks ++ ks') :=
  fun w hw => (List.mem_append.1 hw).elim (h w) (h' w)

theorem LiteralText.wordsNonempty {w : List Char} {p : Param} (h : LiteralText w p) :
    WordsNonempty [.word w] := by
  intro v hv
  cases List.mem_singleton.1 hv
  exact h.ne_nil

mutual

theorem exists_callText : (c : Call) → c.Built → ∃ ks, CallText ks c ∧ WordsNonempty ks
  | ⟨name, []⟩, h => by
    have htext := CallText.bare name.toList
    rw [String.ofList_toList] at htext
    refine ⟨_, htext, fun w hw => ?_⟩
    cases (by simpa using hw : w = name.toList)
    exact h.1
  | ⟨name, p :: ps⟩, h => by
    obtain ⟨ks, hks, hne⟩ := exists_paramsText (p :: ps) (by simp) h.2.2
    have htext := CallText.applied name.toList hks
    rw [String.ofList_toList] at htext
    refine ⟨_, htext, fun w hw => ?_⟩
    rcases (by simpa using hw : w = name.toList ∨ .word w ∈ ks) with rfl | hw
    · exact h.1
    · exact hne w hw

theorem exists_paramsText : (ps : List Param) → ps ≠ [] → ParamsBuilt ps →
    ∃ ks, ParamsText ks ps ∧ WordsNonempty ks
  | [], hne, _ => absurd rfl hne
  | [p], _, h => by
    obtain ⟨ks, hks, hne⟩ := exists_paramText p h.1
    exact ⟨ks, .one hks, hne⟩
  | p :: q :: ps, _, h => by
    obtain ⟨ks, hks, hne⟩ := exists_paramText p h.1
    obtain ⟨ks', hks', hne'⟩ := exists_paramsText (q :: ps) (by simp) h.2
    refine ⟨_, .more hks hks', wordsNonempty_append hne fun w hw => ?_⟩
    exact hne' w ((List.mem_cons.1 hw).resolve_left nofun)

theorem exists_paramText : (p : Param) → p.Built → ∃ ks, ParamText ks p ∧ WordsNonempty ks
  | .null, _ => ⟨_, .literal .null, LiteralText.null.wordsNonempty⟩
  | .boolean true, _ => ⟨_, .literal .true, LiteralText.true.wordsNonempty⟩
  | .boolean false, _ => ⟨_, .literal .false, LiteralText.false.wordsNonempty⟩
  | .string s, _ => by
    have htext := ParamText.text s.toList
    rw [String.ofList_toList] at htext
    exact ⟨_, htext, by simp [WordsNonempty]⟩
  | .int n, _ =>
    have h := LiteralText.int (Literal.int64?_toString n)
    ⟨_, .literal h, h.wordsNonempty⟩
  | .decimal x, h => by
    obtain ⟨y, rfl⟩ := h
    have h := LiteralText.decimal (Literal.int64?_render rfl y)
      (Literal.decimal?_render .expression y)
    exact ⟨_, .literal h, h.wordsNonempty⟩
  | .path text, h => by
    obtain ⟨rest, hrest⟩ := IsPathText.exists_root h
    have hp := LiteralText.path rest
    rw [← hrest, String.ofList_toList] at hp
    exact ⟨_, .literal hp, hp.wordsNonempty⟩
  | .call c, h => by
    obtain ⟨ks, hks, hne⟩ := exists_callText c h
    exact ⟨ks, .call hks, hne⟩

end

/-- **A call that is put together is read back from its text** under just the limits that it is
nested within. -/
theorem parse_render_built {c : Call} (h : c.Built) (limit : Nat) :
    parse limit c.render = .ok c ↔ c.nesting ≤ limit := by
  obtain ⟨ks, hks, hne⟩ := exists_callText c h
  obtain ⟨ks', hks', hs⟩ := hks.spelled hne h.verbatim
  have hsays : Says c.render.toList c := by
    rw [render, String.toList_ofList]
    exact ⟨ks', hs, hks'⟩
  rw [parse_eq_ok]
  exact and_iff_right hsays

/-- Quotes, brackets and separators in a text and in the name of a member, and calls inside. -/
def greeting : Call :=
  ⟨"States.Format", [.string "it's {}, \\", .path "$$.a['b], (\\\\\\'c'][7]",
    .decimal (.finite (.zero true)), .call ⟨"F", [.null, .int (-5), .call ⟨"G", []⟩]⟩]⟩

theorem greeting_built : greeting.Built := by
  have hpath : IsPathText "$$.a['b], (\\\\\\'c'][7]".toList := by
    refine ⟨['$', '$'],
      [['.', 'a'], (Path.Step.field "b], (\\'c").renderChars, (Path.Step.index 7).renderChars],
      .inr rfl, ?_, by decide⟩
    have hdotted : Segment ['.', 'a'] := .dotted (by decide) (by decide)
    simp [hdotted, Segment.bracketed]
  exact ⟨by decide, by decide, trivial, hpath, ⟨_, rfl⟩,
    ⟨by decide, by decide, trivial, trivial, ⟨by decide, by decide, trivial⟩, trivial⟩, trivial⟩

theorem greeting_reads_back :
    parse defaultNesting greeting.render = .ok greeting ∧ parse 2 greeting.render ≠ .ok greeting :=
  ⟨(parse_render_built greeting_built _).2 (by decide),
    fun h => absurd ((parse_render_built greeting_built 2).1 h) (by decide)⟩

end Call

end StatesLang
