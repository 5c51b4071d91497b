import StatesLang.Proofs.RoundTrip.Numeral
import StatesLang.Proofs.RoundTrip.Quoted

/-!
# Documents read back

Both ways of writing a document are read by one argument: blanks between the tokens do not matter.

* `Json.Spacing`, `Json.spacedChars`: a document with blanks at the places where a layout has them.
* `Json.doubles`: the doubles of a document.
* **`Json.readValue_spaced`**: a document whose doubles read back is read as its outline.
* **`Json.read_compact`**, **`Json.read_pretty`**: so the texts of a document are.
-/

namespace StatesLang.Json

/-! ## Blanks -/

/-- A text of blanks only. -/
def IsBlank (cs : List Char) : Prop :=
  ∀ c ∈ cs, c = ' ' ∨ c = '\n' ∨ c = '\t' ∨ c = '\r'

theorem skipBlanks_append {bl : List Char} (hb : IsBlank bl) (cs : List Char) :
    skipBlanks (bl ++ cs) = skipBlanks cs :=
  List.dropWhile_append_of_pos fun c hc => by simpa using hb c hc

theorem skipBlanks_skipBlanks (cs : List Char) : skipBlanks (skipBlanks cs) = skipBlanks cs := by
  induction cs with
  | nil => rfl
  | cons c cs ih =>
    unfold skipBlanks at *
    by_cases hc : c = ' ' ∨ c = '\n' ∨ c = '\t' ∨ c = '\r'
    · rw [List.dropWhile_cons_of_pos (by simpa using hc), ih]
    · rw [List.dropWhile_cons_of_neg (by simpa using hc),
        List.dropWhile_cons_of_neg (by simpa using hc)]

theorem ends_append {bl cs : List Char} (hb : IsBlank bl) (h : Ends cs) : Ends (bl ++ cs) := by
  cases bl with
  | nil => exact h
  | cons c bl =>
    rcases hb c (by simp) with rfl | rfl | rfl | rfl <;> exact ends_cons _ (by decide)

theorem readValue_skipBlanks (fuel : Nat) (cs : List Char) :
    readValue fuel (skipBlanks cs) = readValue fuel cs := by
  cases fuel with
  | zero => rfl
  | succ fuel => rw [readValue, readValue, skipBlanks_skipBlanks]

theorem readItem_skipBlanks (fuel : Nat) (cs : List Char) :
    readItem fuel (skipBlanks cs) = readItem fuel cs := by
  cases fuel with
  | zero => rfl
  | succ fuel => rw [readItem, readItem, readValue_skipBlanks]

/-! ## One step -/

theorem readValue_array (fuel : Nat) (cs : List Char) :
    readValue (fuel + 1) ('[' :: cs) =
      (.array (readItems fuel true cs).1, (readItems fuel true cs).2) := rfl

theorem readValue_object (fuel : Nat) (cs : List Char) :
    readValue (fuel + 1) ('\x7b' :: cs) =
      (.object (readMembers fuel true cs).1, (readMembers fuel true cs).2) := rfl

section Step

variable {fuel : Nat} {cs rest bl : List Char} {v : Syntax}

theorem exists_cons_of_readValue (h : readValue fuel cs = (v, some rest)) :
    ∃ c cs', skipBlanks cs = c :: cs' ∧ c ≠ ']' := by
  cases fuel with
  | zero => cases h
  | succ fuel =>
    rw [readValue] at h
    cases hs : skipBlanks cs with
    | nil =>
      rw [hs] at h
      cases h
    | cons c cs' =>
      refine ⟨c, cs', rfl, ?_⟩
      rintro rfl
      rw [hs] at h
      cases h

theorem readItem_of_readValue (h : readValue fuel cs = (v, some rest)) :
    readItem (fuel + 1) cs =
      (.more v (readItems fuel false rest).1, (readItems fuel false rest).2) := by
  rw [readItem, h]

theorem readItems_first (h : readValue fuel cs = (v, some rest)) :
    readItems (fuel + 2) true cs =
      (.more v (readItems fuel false rest).1, (readItems fuel false rest).2) := by
  obtain ⟨c, cs', hs, hc⟩ := exists_cons_of_readValue h
  rw [← readItem_of_readValue h, ← readItem_skipBlanks, hs, readItems, hs]
  split
  · next he => cases he
  · next he => exact absurd (List.cons.inj he).1 hc
  · next he => rw [if_pos rfl, he]

theorem readItems_next (h : readValue fuel cs = (v, some rest)) :
    readItems (fuel + 2) false (',' :: cs) =
      (.more v (readItems fuel false rest).1, (readItems fuel false rest).2) := by
  obtain ⟨c, cs', hs, hc⟩ := exists_cons_of_readValue h
  have hcomma : skipBlanks (',' :: cs) = ',' :: cs := by rfl
  rw [← readItem_of_readValue h, ← readItem_skipBlanks, hs, readItems, hcomma]
  split
  · next he => cases he
  · next he => cases he
  · next he =>
    obtain ⟨rfl, rfl⟩ := List.cons.inj he
    rw [if_neg (by decide), if_pos rfl, hs]
    split
    · next he => cases he
    · next he => exact absurd (List.cons.inj he).1 hc
    · rfl

theorem readItems_end (hb : IsBlank bl) (first : Bool) :
    readItems (fuel + 1) first (bl ++ ']' :: rest) = (.done, some rest) := by
  rw [readItems, skipBlanks_append hb]
  rfl

theorem readMembers_end (hb : IsBlank bl) (first : Bool) :
    readMembers (fuel + 1) first (bl ++ '\x7d' :: rest) = (.done, some rest) := by
  rw [readMembers, skipBlanks_append hb]
  rfl

theorem readMember_quote (key : String) (h : readValue fuel cs = (v, some rest)) :
    readMember (fuel + 2) (key.toList.flatMap quoteChar ++ '"' :: ':' :: cs) =
      (.more (.name key) v (readMembers fuel false rest).1, (readMembers fuel false rest).2) := by
  rw [readMember, scanString_quote]
  have hcolon : skipBlanks (':' :: cs) = ':' :: cs := by rfl
  dsimp only
  rw [readMemberValue, hcolon]
  simp only [h]

theorem quote_append (key : String) (cs : List Char) :
    quote key ++ cs = '"' :: (key.toList.flatMap quoteChar ++ '"' :: cs) := by
  rw [quote, List.cons_append, List.cons_append, List.append_assoc, List.singleton_append]

theorem readMembers_first (hb : IsBlank bl) (key : String)
    (h : readValue fuel cs = (v, some rest)) :
    readMembers (fuel + 3) true (bl ++ (quote key ++ ':' :: cs)) =
      (.more (.name key) v (readMembers fuel false rest).1, (readMembers fuel false rest).2) := by
  rw [readMembers, skipBlanks_append hb, quote_append, ← readMember_quote key h]
  rfl

theorem readMembers_next (hb : IsBlank bl) (key : String)
    (h : readValue fuel cs = (v, some rest)) :
    readMembers (fuel + 3) false (',' :: (bl ++ (quote key ++ ':' :: cs))) =
      (.more (.name key) v (readMembers fuel false rest).1, (readMembers fuel false rest).2) := by
  have hcomma : ∀ cs, skipBlanks (',' :: cs) = ',' :: cs := fun _ => rfl
  have hquote : ∀ cs, skipBlanks ('"' :: cs) = '"' :: cs := fun _ => rfl
  rw [readMembers, hcomma, quote_append, ← readMember_quote key h]
  split
  · next he => cases he
  · next he => cases he
  · next he =>
    obtain ⟨rfl, rfl⟩ := List.cons.inj he
    rw [if_neg (by decide), if_pos rfl, skipBlanks_append hb, hquote]
    rfl

end Step

/-! ## Layouts -/

/-- Where a layout has blanks: on a new line of a level, and behind a colon. -/
structure Spacing where
  newline : Nat → List Char
  gap : List Char
  newline_blank : ∀ level, IsBlank (newline level)
  gap_blank : IsBlank gap

namespace Spacing

/-- No blanks. -/
def none : Spacing :=
  ⟨fun _ => [], [], fun _ _ h => absurd h List.not_mem_nil, fun _ h => absurd h List.not_mem_nil⟩

/-- One member or item a line. -/
def lines : Spacing where
  newline := Json.newline
  gap := [' ']
  newline_blank level c hc := by
    rcases List.mem_cons.1 hc with rfl | hc
    · exact Or.inr (Or.inl rfl)
    · exact Or.inl (List.mem_replicate.1 hc).2
  gap_blank c hc := Or.inl (List.mem_singleton.1 hc)

end Spacing

mutual

/-- The characters of a document in a layout. -/
def spacedChars (sp : Spacing) (level : Nat) : Json → List Char
  | .null => ['n', 'u', 'l', 'l']
  | .bool true => ['t', 'r', 'u', 'e']
  | .bool false => ['f', 'a', 'l', 's', 'e']
  | .number n => n.render.toList
  | .string s => quote s
  | .array [] => ['[', ']']
  | .array (item :: rest) =>
    '[' :: (sp.newline (level + 1) ++ (spacedChars sp (level + 1) item ++
      spacedItems sp level rest))
  | .object [] => ['\x7b', '\x7d']
  | .object ((key, value) :: rest) =>
    '\x7b' :: (sp.newline (level + 1) ++ (quote key ++ ':' ::
      (sp.gap ++ (spacedChars sp (level + 1) value ++ spacedMembers sp level rest))))

/-- The items of an array after the first, and the end of the array. -/
def spacedItems (sp : Spacing) (level : Nat) : List Json → List Char
  | [] => sp.newline level ++ [']']
  | item :: rest =>
    ',' :: (sp.newline (level + 1) ++ (spacedChars sp (level + 1) item ++
      spacedItems sp level rest))

/-- The members of an object after the first, and the end of the object. -/
def spacedMembers (sp : Spacing) (level : Nat) : List (String × Json) → List Char
  | [] => sp.newline level ++ ['\x7d']
  | (key, value) :: rest =>
    ',' :: (sp.newline (level + 1) ++ (quote key ++ ':' ::
      (sp.gap ++ (spacedChars sp (level + 1) value ++ spacedMembers sp level rest))))

end

mutual

theorem spacedChars_none (level : Nat) : ∀ j, spacedChars .none level j = compactChars j
  | .null => rfl
  | .bool true => rfl
  | .bool false => rfl
  | .number _ => rfl
  | .string _ => rfl
  | .array [] => rfl
  | .array (item :: rest) => by
    rw [spacedChars, compactChars, spacedChars_none (level + 1) item, spacedItems_none level rest]
    rfl
  | .object [] => rfl
  | .object ((key, value) :: rest) => by
    rw [spacedChars, compactChars, spacedChars_none (level + 1) value,
      spacedMembers_none level rest]
    simp [Spacing.none]

theorem spacedItems_none (level : Nat) : ∀ items, spacedItems .none level items = compactItems items
  | [] => rfl
  | item :: rest => by
    rw [spacedItems, compactItems, spacedChars_none (level + 1) item, spacedItems_none level rest]
    rfl

theorem spacedMembers_none (level : Nat) :
    ∀ members, spacedMembers .none level members = compactMembers members
  | [] => rfl
  | (key, value) :: rest => by
    rw [spacedMembers, compactMembers, spacedChars_none (level + 1) value,
      spacedMembers_none level rest]
    simp [Spacing.none]

end

mutual

theorem spacedChars_lines (level : Nat) : ∀ j, spacedChars .lines level j = prettyChars level j
  | .null => rfl
  | .bool true => rfl
  | .bool false => rfl
  | .number _ => rfl
  | .string _ => rfl
  | .array [] => rfl
  | .array (item :: rest) => by
    rw [spacedChars, prettyChars, spacedChars_lines (level + 1) item, spacedItems_lines level rest]
    simp [Spacing.lines]
  | .object [] => rfl
  | .object ((key, value) :: rest) => by
    rw [spacedChars, prettyChars, spacedChars_lines (level + 1) value,
      spacedMembers_lines level rest]
    simp [Spacing.lines]

theorem spacedItems_lines (level : Nat) :
    ∀ items, spacedItems .lines level items = prettyItems level items
  | [] => rfl
  | item :: rest => by
    rw [spacedItems, prettyItems, spacedChars_lines (level + 1) item, spacedItems_lines level rest]
    simp [Spacing.lines]

theorem spacedMembers_lines (level : Nat) :
    ∀ members, spacedMembers .lines level members = prettyMembers level members
  | [] => rfl
  | (key, value) :: rest => by
    rw [spacedMembers, prettyMembers, spacedChars_lines (level + 1) value,
      spacedMembers_lines level rest]
    simp [Spacing.lines]

end

/-! ## Reading a layout -/

mutual

/-- The doubles of a document. -/
def doubles : Json → List Binary64
  | .number (.real x) => [x]
  | .null | .bool _ | .number (.int _) | .string _ => []
  | .array items => doublesOfItems items
  | .object members => doublesOfMembers members

/-- The doubles of the items of an array. -/
def doublesOfItems : List Json → List Binary64
  | [] => []
  | item :: rest => doubles item ++ doublesOfItems rest

/-- The doubles of the members of an object. -/
def doublesOfMembers : List (String × Json) → List Binary64
  | [] => []
  | (_, value) :: rest => doubles value ++ doublesOfMembers rest

end

/-- Doubles each of which reads back by itself. -/
def ReadBack (xs : List Binary64) : Prop :=
  ∀ x ∈ xs, parse? (x.render .document) = .ok (.number (.real x))

theorem readBack_append {xs ys : List Binary64} :
    ReadBack (xs ++ ys) ↔ ReadBack xs ∧ ReadBack ys := by
  simp only [ReadBack, List.mem_append, or_imp, forall_and]

theorem ends_spacedItems (sp : Spacing) (level : Nat) (items : List Json) (rest : List Char) :
    Ends (spacedItems sp level items ++ rest) := by
  cases items with
  | nil =>
    rw [spacedItems, List.append_assoc]
    exact ends_append (sp.newline_blank level) (ends_cons _ (by decide))
  | cons item items => exact ends_cons _ (by decide)

theorem ends_spacedMembers (sp : Spacing) (level : Nat) (members : List (String × Json))
    (rest : List Char) : Ends (spacedMembers sp level members ++ rest) := by
  rcases members with _ | ⟨⟨key, value⟩, members⟩
  · rw [spacedMembers, List.append_assoc]
    exact ends_append (sp.newline_blank level) (ends_cons _ (by decide))
  · exact ends_cons _ (by decide)

theorem readValue_append_blank {bl cs : List Char} (hb : IsBlank bl) (fuel : Nat) :
    readValue fuel (bl ++ cs) = readValue fuel cs := by
  rw [← readValue_skipBlanks, skipBlanks_append hb, readValue_skipBlanks]

mutual

/-- **A document whose doubles read back is read as its outline**, in every layout. -/
theorem readValue_spaced (sp : Spacing) (level : Nat) :
    ∀ (j : Json) (fuel : Nat) (rest : List Char),
    ReadBack j.doubles → 3 * (spacedChars sp level j).length ≤ fuel → Ends rest →
      readValue (fuel + 1) (spacedChars sp level j ++ rest) = (Syntax.ofJson j, some rest)
  | .null, fuel, rest, _, _, _ => rfl
  | .bool true, fuel, rest, _, _, _ => rfl
  | .bool false, fuel, rest, _, _, _ => rfl
  | .number (.int n), fuel, rest, _, _, hr => readValue_int n fuel hr
  | .number (.real x), fuel, rest, hx, _, hr => readValue_real (hx x (by simp [doubles])) fuel hr
  | .string s, fuel, rest, _, _, _ => by
    have hscan := congrArg (Token.outline Syntax.string) (scanString_quote s rest)
    rw [spacedChars, quote_append]
    exact hscan
  | .array [], fuel, rest, _, hf, _ => by
    obtain ⟨fuel, rfl⟩ : ∃ f, fuel = f + 1 := ⟨fuel - 1, by simp [spacedChars] at hf; omega⟩
    rfl
  | .array (item :: items), fuel, rest, hx, hf, hr => by
    rw [doubles, doublesOfItems, readBack_append] at hx
    simp only [spacedChars, List.length_cons, List.length_append] at hf
    obtain ⟨fuel, rfl⟩ : ∃ f, fuel = f + 3 := ⟨fuel - 3, by omega⟩
    have hitem := readValue_spaced sp (level + 1) item fuel
      (spacedItems sp level items ++ rest) hx.1 (by omega) (ends_spacedItems ..)
    have hitems := readItems_spaced sp level items (fuel + 1) rest hx.2 (by omega)
    rw [← readValue_append_blank (sp.newline_blank (level + 1))] at hitem
    have hfirst := readItems_first hitem
    rw [hitems] at hfirst
    simp only [spacedChars, List.cons_append, List.append_assoc]
    rw [readValue_array, hfirst, Syntax.ofJson, Items.ofList]
  | .object [], fuel, rest, _, hf, _ => by
    obtain ⟨fuel, rfl⟩ : ∃ f, fuel = f + 1 := ⟨fuel - 1, by simp [spacedChars] at hf; omega⟩
    rfl
  | .object ((key, value) :: members), fuel, rest, hx, hf, hr => by
    rw [doubles, doublesOfMembers, readBack_append] at hx
    simp only [spacedChars, List.length_cons, List.length_append] at hf
    obtain ⟨fuel, rfl⟩ : ∃ f, fuel = f + 4 := ⟨fuel - 4, by omega⟩
    have hvalue := readValue_spaced sp (level + 1) value fuel
      (spacedMembers sp level members ++ rest) hx.1 (by omega) (ends_spacedMembers ..)
    have hmembers := readMembers_spaced sp level members (fuel + 1) rest hx.2 (by omega)
    rw [← readValue_append_blank sp.gap_blank] at hvalue
    have hfirst := readMembers_first (sp.newline_blank (level + 1)) key hvalue
    rw [hmembers] at hfirst
    simp only [spacedChars, List.cons_append, List.append_assoc]
    rw [readValue_object, hfirst, Syntax.ofJson, Members.ofList]

theorem readItems_spaced (sp : Spacing) (level : Nat) :
    ∀ (items : List Json) (fuel : Nat) (rest : List Char),
      ReadBack (doublesOfItems items) → 3 * (spacedItems sp level items).length ≤ fuel →
        readItems fuel false (spacedItems sp level items ++ rest) =
          (Items.ofList items, some rest)
  | [], fuel, rest, _, hf => by
    simp only [spacedItems, List.length_append, List.length_singleton] at hf
    obtain ⟨fuel, rfl⟩ : ∃ f, fuel = f + 1 := ⟨fuel - 1, by omega⟩
    rw [spacedItems, List.append_assoc, List.singleton_append,
      readItems_end (sp.newline_blank level), Items.ofList]
  | item :: items, fuel, rest, hx, hf => by
    rw [doublesOfItems, readBack_append] at hx
    simp only [spacedItems, List.length_cons, List.length_append] at hf
    obtain ⟨fuel, rfl⟩ : ∃ f, fuel = f + 3 := ⟨fuel - 3, by omega⟩
    have hitem := readValue_spaced sp (level + 1) item fuel
      (spacedItems sp level items ++ rest) hx.1 (by omega) (ends_spacedItems ..)
    have hitems := readItems_spaced sp level items (fuel + 1) rest hx.2 (by omega)
    rw [← readValue_append_blank (sp.newline_blank (level + 1))] at hitem
    have hnext := readItems_next hitem
    rw [hitems] at hnext
    simp only [spacedItems, List.cons_append, List.append_assoc]
    rw [hnext, Items.ofList]

theorem readMembers_spaced (sp : Spacing) (level : Nat) :
    ∀ (members : List (String × Json)) (fuel : Nat) (rest : List Char),
      ReadBack (doublesOfMembers members) → 3 * (spacedMembers sp level members).length ≤ fuel →
        readMembers fuel false (spacedMembers sp level members ++ rest) =
          (Members.ofList members, some rest)
  | [], fuel, rest, _, hf => by
    simp only [spacedMembers, List.length_append, List.length_singleton] at hf
    obtain ⟨fuel, rfl⟩ : ∃ f, fuel = f + 1 := ⟨fuel - 1, by omega⟩
    rw [spacedMembers, List.append_assoc, List.singleton_append,
      readMembers_end (sp.newline_blank level), Members.ofList]
  | (key, value) :: members, fuel, rest, hx, hf => by
    rw [doublesOfMembers, readBack_append] at hx
    simp only [spacedMembers, List.length_cons, List.length_append] at hf
    obtain ⟨fuel, rfl⟩ : ∃ f, fuel = f + 4 := ⟨fuel - 4, by omega⟩
    have hvalue := readValue_spaced sp (level + 1) value fuel
      (spacedMembers sp level members ++ rest) hx.1 (by omega) (ends_spacedMembers ..)
    have hmembers := readMembers_spaced sp level members (fuel + 1) rest hx.2 (by omega)
    rw [← readValue_append_blank sp.gap_blank] at hvalue
    have hnext := readMembers_next (sp.newline_blank (level + 1)) key hvalue
    rw [hmembers] at hnext
    simp only [spacedMembers, List.cons_append, List.append_assoc]
    rw [hnext, Members.ofList]

end

/-! ## Whole texts -/

theorem read_spaced (sp : Spacing) {j : Json} (hx : ReadBack j.doubles) :
    Text.read (String.ofList (spacedChars sp 0 j)) = ⟨Syntax.ofJson j, false⟩ := by
  have h := readValue_spaced sp 0 j (3 * (spacedChars sp 0 j).length + 2) [] hx (by omega) ends_nil
  rw [List.append_nil] at h
  unfold Text.read
  rw [String.toList_ofList]
  simp only [h]
  rfl

/-- **A document reads back from its compact text.** -/
theorem read_compact {j : Json} (hx : ReadBack j.doubles) :
    Text.read j.compact = ⟨Syntax.ofJson j, false⟩ := by
  rw [compact, ← spacedChars_none 0]
  exact read_spaced .none hx

/-- **A document reads back from its text over several lines.** -/
theorem read_pretty {j : Json} (hx : ReadBack j.doubles) :
    Text.read j.pretty = ⟨Syntax.ofJson j, false⟩ := by
  rw [pretty, ← spacedChars_lines 0]
  exact read_spaced .lines hx

end StatesLang.Json
