import StatesLang.Proofs.PathParameter
import StatesLang.Proofs.RoundTrip.Digits

/-!
# Paths read back

Steps in brackets are steps of the grammar, whatever characters their names hold. Only the test for
scans, which looks at the text before its steps are read, can stand in the way: it also finds two
dots inside quotes.

* `Path.stepsText_renderChars`: what is written for steps says these steps.
* `Path.scan_renderChars_iff`: it holds a scan exactly if the name of a member does.
* `Path.parse_renderSteps`, `Path.parse_renderSteps_scan`: what comes of written steps.
* **`Path.canonical_keeps_iff`**: the canonical text of a path reads back, and selects the same
  nodes, exactly if no name holds two dots side by side.
-/

namespace StatesLang.Path

/-! ## Steps in brackets -/

/-- What becomes of one character of a name. -/
def escapeChar (c : Char) : List Char :=
  if c = '\\' ∨ c = '\'' then ['\\', c] else [c]

/-- The single quotes come second, so the backslashes put before them are not escaped in turn. -/
theorem escapeName_eq (name : List Char) : escapeName name = name.flatMap escapeChar := by
  rw [escapeName, replaceChar, replaceChar, List.flatMap_assoc]
  refine List.flatMap_congr fun c _ => ?_
  by_cases hslash : c = '\\'
  · subst hslash
    rfl
  · by_cases hquote : c = '\'' <;> simp [escapeChar, hslash, hquote]

theorem quotedName_escape (name : List Char) :
    QuotedName '\'' (name.flatMap escapeChar) name := by
  induction name with
  | nil => exact .nil
  | cons c name ih =>
    rw [List.flatMap_cons]
    by_cases hc : c = '\\' ∨ c = '\''
    · rw [escapeChar, if_pos hc]
      exact .escaped c ih
    · rw [escapeChar, if_neg hc]
      rw [not_or] at hc
      exact .plain hc.2 hc.1 ih

theorem indexText_toString (i : UInt64) : IndexText (toString i.toNat).toList i := by
  have hdigits : (toString i.toNat).toList = Nat.toDigits 10 i.toNat := String.toList_ofList
  rw [hdigits]
  exact .mk (.inl rfl) (List.ne_nil_of_length_pos Nat.length_toDigits_pos)
    (fun _ => Literal.isDigit_of_mem_toDigits) (Literal.digitsValue_toDigits i.toNat).symm

theorem stepText_renderChars (s : Step) : StepText s.renderChars s := by
  cases s with
  | field name =>
    have h := Bracketed.field (.inl rfl) (quotedName_escape name.toList)
    rw [String.ofList_toList, ← escapeName_eq] at h
    exact .bracketed h
  | index i =>
    have h := @Bracketed.index [] _ [] i nofun (indexText_toString i) nofun
    rw [List.nil_append, List.append_nil] at h
    exact .bracketed h

theorem stepsText_renderChars (ss : List Step) : StepsText (ss.flatMap Step.renderChars) ss := by
  induction ss with
  | nil => exact .nil
  | cons s ss ih =>
    rw [List.flatMap_cons]
    exact .cons (stepText_renderChars s) ih

/-! ## Scans -/

theorem scan_cons_iff {c : Char} {cs : List Char} :
    ['.', '.'] <:+: c :: cs ↔ (c = '.' ∧ cs.head? = some '.') ∨ ['.', '.'] <:+: cs := by
  have hhead : ['.'] <+: cs ↔ cs.head? = some '.' := by
    cases cs with
    | nil => simp
    | cons d cs => simp [eq_comm]
  rw [List.infix_cons_iff, List.cons_prefix_cons, hhead, eq_comm]

theorem scan_append_iff {cs ds : List Char} (h : ds.head? ≠ some '.') :
    ['.', '.'] <:+: cs ++ ds ↔ ['.', '.'] <:+: cs ∨ ['.', '.'] <:+: ds := by
  induction cs with
  | nil => simp
  | cons c cs ih =>
    have hhead : (cs ++ ds).head? = some '.' ↔ cs.head? = some '.' := by
      cases cs with
      | nil => simp [h]
      | cons d cs => rfl
    rw [List.cons_append, scan_cons_iff, scan_cons_iff, ih, hhead, or_assoc]

theorem head?_escape (name : List Char) :
    (name.flatMap escapeChar).head? = some '.' ↔ name.head? = some '.' := by
  cases name with
  | nil => rfl
  | cons c name =>
    by_cases hc : c = '\\' ∨ c = '\''
    · have hdot : c ≠ '.' := by rcases hc with rfl | rfl <;> decide
      simp [escapeChar, hc, hdot]
    · simp [escapeChar, hc]

/-- No backslash that escapes a character stands between two dots. -/
theorem scan_escape_iff (name : List Char) :
    ['.', '.'] <:+: name.flatMap escapeChar ↔ ['.', '.'] <:+: name := by
  induction name with
  | nil => rfl
  | cons c name ih =>
    rw [List.flatMap_cons, scan_cons_iff]
    by_cases hc : c = '\\' ∨ c = '\''
    · have hdot : c ≠ '.' := by rcases hc with rfl | rfl <;> decide
      rw [escapeChar, if_pos hc, List.cons_append, List.singleton_append, scan_cons_iff,
        scan_cons_iff, ih]
      simp [hdot]
    · rw [escapeChar, if_neg hc, List.singleton_append, scan_cons_iff, head?_escape, ih]

/-- The name of a member in which two dots stand side by side. -/
def Step.HasScan : Step → Prop
  | .field name => ['.', '.'] <:+: name.toList
  | .index _ => False

instance : DecidablePred Step.HasScan
  | .field name => inferInstanceAs (Decidable (['.', '.'] <:+: name.toList))
  | .index _ => inferInstanceAs (Decidable False)

theorem Step.scan_renderChars_iff (s : Step) : ['.', '.'] <:+: s.renderChars ↔ s.HasScan := by
  cases s with
  | field name =>
    have hend : ¬ ['.', '.'] <:+: ['\'', ']'] := by decide
    rw [renderChars, escapeName_eq, List.cons_append, List.cons_append, scan_cons_iff,
      scan_cons_iff, scan_append_iff (by decide), scan_escape_iff]
    simp [HasScan, hend]
  | index i =>
    have hdigits : '.' ∉ (toString i.toNat).toList :=
      (indexText_toString i).notMem (by decide) (by decide)
    refine iff_of_false (fun h => ?_) id
    rcases List.mem_append.1 (h.subset List.mem_cons_self) with hmem | hmem
    · exact hdigits ((List.mem_cons.1 hmem).resolve_left (by decide))
    · exact absurd hmem (by decide)

theorem scan_renderChars_iff (ss : List Step) :
    ['.', '.'] <:+: ss.flatMap Step.renderChars ↔ ∃ s ∈ ss, s.HasScan := by
  induction ss with
  | nil => simp
  | cons s ss ih =>
    have hhead : (ss.flatMap Step.renderChars).head? ≠ some '.' := by
      cases ss with
      | nil => simp
      | cons s' ss => cases s' <;> simp [Step.renderChars]
    rw [List.flatMap_cons, scan_append_iff hhead, s.scan_renderChars_iff, ih]
    simp

theorem toList_renderSteps (ss : List Step) :
    (renderSteps ss).toList = '$' :: ss.flatMap Step.renderChars :=
  String.toList_ofList

theorem scan_renderSteps_iff (ss : List Step) :
    ['.', '.'] <:+: (renderSteps ss).toList ↔ ∃ s ∈ ss, s.HasScan := by
  rw [toList_renderSteps, scan_cons_iff, scan_renderChars_iff]
  simp

/-! ## Written steps -/

/-- **Steps read back** if no name of theirs holds a scan. -/
theorem parse_renderSteps {ss : List Step} (h : ∀ s ∈ ss, ¬ s.HasScan) :
    parse (renderSteps ss) = .ok ⟨renderSteps ss, ss⟩ := by
  refine parse_eq_ok.2 ⟨rfl, _, toList_renderSteps ss, fun hscan => ?_, stepsText_renderChars ss⟩
  obtain ⟨s, hs, hdots⟩ := (scan_renderSteps_iff ss).1 hscan
  exact h s hs hdots

theorem parse_renderSteps_scan {ss : List Step} (h : ∃ s ∈ ss, s.HasScan) :
    parse (renderSteps ss) = .error .scan := by
  have hscan := hasScan_iff.2 ((scan_renderSteps_iff ss).2 h)
  rw [toList_renderSteps] at hscan
  rw [parse, toList_renderSteps, parseChars, if_neg (by decide), if_pos hscan]
  rfl

/-! ## Canonical paths -/

/-- **The canonical text of a path reads back exactly if no name holds two dots side by side**, and
then it selects the same node of every document. Otherwise it passes for a scan and selects nothing,
which the path only does if it leads nowhere in documents within the bound. -/
theorem canonical_keeps_iff {text : String} {p : Path} (hp : parse text = .ok p) :
    (parse p.canonical = .ok ⟨p.canonical, p.steps⟩ ↔ ∀ s ∈ p.steps, ¬ s.HasScan) ∧
      (∀ bound, (∀ document : Json, document.IsWithin bound →
          selectText document p.canonical = selectText document text) ↔
        (∀ s ∈ p.steps, ¬ s.HasScan) ∨ ¬ p.IsWithin bound) ∧
      ((∃ s ∈ p.steps, s.HasScan) → parse p.canonical = .error .scan) := by
  have hread : parse p.canonical = .ok ⟨p.canonical, p.steps⟩ ↔ ∀ s ∈ p.steps, ¬ s.HasScan := by
    refine ⟨fun h s hs hscan => ?_, parse_renderSteps⟩
    rw [canonical, parse_renderSteps_scan ⟨s, hs, hscan⟩] at h
    cases h
  refine ⟨hread, fun bound => ?_, parse_renderSteps_scan⟩
  have hsays : Says p.canonical.toList p.steps ↔ ∀ s ∈ p.steps, ¬ s.HasScan := by
    rw [← hread, parse_eq_ok]
    exact ⟨fun h => ⟨rfl, h⟩, And.right⟩
  rw [selectText_eq_iff hp, hsays]
  refine or_congr_right' fun hscan => and_iff_left fun q hq => ?_
  -- a path that is refused selects nothing, even where the steps lead somewhere
  rw [canonical, parse_renderSteps_scan (by simpa using hscan)] at hq
  cases hq

/-- A path with quotes, brackets, backslashes and single dots in its names. -/
def quotedPath : Path :=
  ⟨"$['.\\\\'][ +07 ].it\\.\\'s\\]\\.", [.field ".\\", .index 7, .field "it.'s]."]⟩

theorem quotedPath_canonical_keeps :
    quotedPath.canonical = "$['.\\\\'][7]['it.\\'s].']" ∧
      parse quotedPath.canonical = .ok ⟨quotedPath.canonical, quotedPath.steps⟩ := by
  have hp : parse quotedPath.text = .ok quotedPath := by cbv
  exact ⟨by cbv, (canonical_keeps_iff hp).1.2 (by decide +kernel)⟩

/-- A path to a member with two dots in its name is lost when it is written. -/
theorem canonical_lost :
    ∃ p document, parse "$.a\\.\\.b" = .ok p ∧ p.canonical = "$['a..b']" ∧
      parse p.canonical = .error .scan ∧
      selectText document "$.a\\.\\.b" = some (.number (.ofInt 1)) ∧
      selectText document p.canonical = none :=
  ⟨⟨"$.a\\.\\.b", [.field "a..b"]⟩, .object [("a..b", .number (.ofInt 1))],
    by cbv, by cbv, by cbv, by cbv, by cbv⟩

end StatesLang.Path
