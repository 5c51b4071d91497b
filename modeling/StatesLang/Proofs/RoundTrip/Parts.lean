import StatesLang.Proofs.RoundTrip.Condition
import StatesLang.Proofs.RoundTrip.Record
import StatesLang.State.Fields

/-!
# Parts of states read back

* `Decode.int64_ofInt64`, `Decode.list_map`, `Decode.optional_map`: values of fields.
* `Decode.readRecord_written`: a record whose written fields are read as they were.
* **`Retrier.decode_toJson`**, **`Catcher.decode_toJson`**, **`ChoiceRule.decode_toJson`**: the
  parts of states.
-/

namespace StatesLang

open Json (Syntax Items Members)

namespace Decode

/-! ## Values -/

theorem int64_ofInt64 (n : Int64) : int64 (Syntax.ofJson (.ofInt64 n)) = .ok n := by
  have hlo := n.le_toInt
  have hhi : n.toInt < 0x8000000000000000 := n.toInt_lt
  have hrange : -0x8000000000000000 ≤ n.toInt ∧ n.toInt < 0x10000000000000000 := by omega
  rw [Json.ofInt64, Json.Number.ofInt, dif_pos hrange, Syntax.ofJson, int64, if_pos hhi,
    Int64.ofInt_toInt]

theorem document_ofJson {j : Json} (hd : j.KeysDistinct) : document (Syntax.ofJson j) = .ok j := by
  have h : document (Syntax.ofJson j) = .ok (Syntax.ofJson j).toJson := by cases j <;> rfl
  rw [h, Json.toJson_ofJson j hd]

theorem optional_ofJson {α : Type} {read : Syntax → Except Error α} {j : Json} {a : α}
    (hnull : j ≠ .null) (h : read (Syntax.ofJson j) = .ok a) :
    optional read (Syntax.ofJson j) = .ok (some a) := by
  have he : optional read (Syntax.ofJson j) = (read (Syntax.ofJson j)).map some := by
    cases j <;> first | exact absurd rfl hnull | rfl
  rw [he, h]
  rfl

theorem optional_map {α : Type} {read : Syntax → Except Error α} {write : α → Json}
    (hnull : ∀ a, write a ≠ .null) (h : ∀ a, read (Syntax.ofJson (write a)) = .ok a)
    {o : Option α} {v : Json} (ho : o.map write = some v) :
    optional read (Syntax.ofJson v) = .ok o := by
  obtain ⟨a, rfl, rfl⟩ := Option.map_eq_some_iff.1 ho
  exact optional_ofJson (hnull a) (h a)

theorem optional_string {o : Option String} {v : Json} (h : o.map Json.string = some v) :
    optional string (Syntax.ofJson v) = .ok o :=
  optional_map (fun _ he => by cases he) (fun _ => rfl) h

theorem optional_int64 {o : Option Int64} {v : Json} (h : o.map Json.ofInt64 = some v) :
    optional int64 (Syntax.ofJson v) = .ok o :=
  optional_map (fun _ he => by cases he) int64_ofInt64 h

theorem optional_double {o : Option Extended} {v : Json} (h : o.map Json.ofExtended = some v)
    (ho : ∀ x ∈ o, ∃ y, x = .finite y) :
    ∃ y, optional double (Syntax.ofJson v) = .ok (some y) ∧ o = some (.finite y) := by
  obtain ⟨x, rfl, rfl⟩ := Option.map_eq_some_iff.1 h
  obtain ⟨y, rfl⟩ := ho x rfl
  exact ⟨y, rfl, rfl⟩

theorem items_map {α : Type} {read : Syntax → Except Error α} {write : α → Json} {as : List α}
    (h : ∀ a ∈ as, read (Syntax.ofJson (write a)) = .ok a) :
    items read (Items.ofList (as.map write)) = .ok as := by
  induction as with
  | nil => rfl
  | cons a as ih =>
    rw [List.map_cons, Items.ofList, items, h a (by simp), ih fun b hb => h b (by simp [hb])]
    rfl

theorem list_map {α : Type} {read : Syntax → Except Error α} {write : α → Json} {as : List α}
    (h : ∀ a ∈ as, read (Syntax.ofJson (write a)) = .ok a) :
    list read (Syntax.ofJson (.array (as.map write))) = .ok as := by
  rw [Syntax.ofJson, list, items_map h]

theorem list_strings (ss : List String) :
    list string (Syntax.ofJson (.ofStrings ss)) = .ok ss :=
  list_map fun _ _ => rfl

/-! ## Records -/

/-- A record whose written fields are read as they were. -/
theorem readRecord_written {φ ρ : Type} [DecidableEq φ] {origin inner : Origin}
    {shape : RecordShape φ} (w : φ → Option Json) (copy : ρ → φ → ρ)
    (hkey : ∀ f ∈ shape.order, shape.ofKey? (shape.key f) = some f) (hnodup : shape.order.Nodup)
    {members : Members} (hmembers : members = Members.ofList (written shape w shape.order))
    {set : Origin → ρ → φ → (v : Syntax) → sizeOf v < sizeOf (Syntax.object members) →
      Except Error ρ}
    (hinner : origin.inner = .ok inner)
    (hset : ∀ r, ∀ f ∈ shape.order, ∀ v h, w f = some v →
      set inner r f (Syntax.ofJson v) h = .ok (copy r f)) (r : ρ) :
    readRecord origin shape r (.object members) set =
      .ok (shape.order.foldl (fun r f => if (w f).isSome then copy r f else r) r) := by
  rw [readRecord_object, hinner]
  exact (readMembers_written shape.order hkey hnodup hset [] (fun _ _ => List.not_mem_nil)
    members hmembers _ r).trans (foldlM_written (fun _ _ _ _ => rfl) r)

theorem ofMembers_map {φ : Type} (shape : RecordShape φ) (w : φ → Option Json) (fs : List φ) :
    Json.ofMembers (fs.map fun f => (shape.key f, w f)) = .object (written shape w fs) := by
  rw [Json.ofMembers, List.filterMap_map]
  rfl

end Decode

theorem OptionalPath.decode_toJson {p : OptionalPath} {v : Json} (h : p.toJson? = some v) :
    OptionalPath.decode (Syntax.ofJson v) = .ok p := by
  cases p with
  | unset => cases h
  | null =>
    cases h
    rfl
  | path text =>
    cases h
    rfl

/-! ## Retriers -/

namespace Retrier

/-- The growth of the interval is a number that documents can hold. -/
def IsReadable (r : Retrier) : Prop :=
  ∀ x ∈ r.backoffRate, ∃ y, x = .finite y

/-- A field as a value, if it is written at all. -/
def write? (r : Retrier) : Field → Option Json
  | .errorEquals => some (.ofStrings r.errorEquals)
  | .intervalSeconds => r.intervalSeconds.map .ofInt64
  | .maxAttempts => r.maxAttempts.map .ofInt64
  | .backoffRate => r.backoffRate.map .ofExtended
  | .comment => r.comment.map .string

/-- Takes a field over from another retrier. -/
def copy (t r : Retrier) : Field → Retrier
  | .errorEquals => { r with errorEquals := t.errorEquals }
  | .intervalSeconds => { r with intervalSeconds := t.intervalSeconds }
  | .maxAttempts => { r with maxAttempts := t.maxAttempts }
  | .backoffRate => { r with backoffRate := t.backoffRate }
  | .comment => { r with comment := t.comment }

theorem toJson_eq (r : Retrier) : r.toJson = .object (Decode.written shape r.write? fields) :=
  Decode.ofMembers_map shape r.write? fields

theorem read_write {t : Retrier} (ht : t.IsReadable) {f : Field} {v : Json}
    (h : t.write? f = some v) (r : Retrier) :
    r.read f (Syntax.ofJson v) = .ok (copy t r f) := by
  cases f with
  | errorEquals => cases h; rw [read, Decode.list_strings]; rfl
  | intervalSeconds => rw [read, Decode.optional_int64 h]; rfl
  | maxAttempts => rw [read, Decode.optional_int64 h]; rfl
  | backoffRate =>
    obtain ⟨y, hread, hrate⟩ := Decode.optional_double h ht
    rw [read, hread, copy, hrate]
    rfl
  | comment => rw [read, Decode.optional_string h]; rfl

/-- **A retrier reads back** if the growth of its interval does. -/
theorem decode_toJson {t : Retrier} (ht : t.IsReadable) :
    decode (Syntax.ofJson t.toJson) = .ok t := by
  rw [toJson_eq, decode]
  refine (Decode.readRecord_written t.write? t.copy (by decide) (by decide) rfl rfl
    (fun r f _ v _ h => read_write ht h r) {}).trans ?_
  obtain ⟨errorEquals, intervalSeconds, maxAttempts, backoffRate, comment⟩ := t
  cases intervalSeconds <;> cases maxAttempts <;> cases backoffRate <;> cases comment <;> rfl

end Retrier

/-! ## Catchers -/

namespace Catcher

/-- A field as a value, if it is written at all. -/
def write? (c : Catcher) : Field → Option Json
  | .errorEquals => some (.ofStrings c.errorEquals)
  | .next => some (.string c.next)
  | .resultPath => c.resultPath.toJson?
  | .comment => c.comment.map .string

/-- Takes a field over from another catcher. -/
def copy (t c : Catcher) : Field → Catcher
  | .errorEquals => { c with errorEquals := t.errorEquals }
  | .next => { c with next := t.next }
  | .resultPath => { c with resultPath := t.resultPath }
  | .comment => { c with comment := t.comment }

theorem toJson_eq (c : Catcher) : c.toJson = .object (Decode.written shape c.write? fields) :=
  Decode.ofMembers_map shape c.write? fields

theorem read_write {t : Catcher} {f : Field} {v : Json} (h : t.write? f = some v) (c : Catcher) :
    c.read f (Syntax.ofJson v) = .ok (copy t c f) := by
  cases f with
  | errorEquals => cases h; rw [read, Decode.list_strings]; rfl
  | next => cases h; rfl
  | resultPath => rw [read, OptionalPath.decode_toJson h]; rfl
  | comment => rw [read, Decode.optional_string h]; rfl

/-- **A catcher reads back.** -/
theorem decode_toJson (t : Catcher) : decode (Syntax.ofJson t.toJson) = .ok t := by
  rw [toJson_eq, decode]
  refine (Decode.readRecord_written t.write? t.copy (by decide) (by decide) rfl rfl
    (fun c f _ v _ h => read_write h c) {}).trans ?_
  obtain ⟨errorEquals, next, resultPath, comment⟩ := t
  cases resultPath <;> cases comment <;> rfl

end Catcher

/-! ## Rules -/

namespace Condition

theorem keysDistinct_leaf (path key : String) (hkey : key ≠ "Variable") {operand : Json}
    (h : operand.KeysDistinct) : (withVariable path key operand).KeysDistinct := by
  by_cases hp : path = ""
  · simp [withVariable, hp, Json.KeysDistinct, Json.KeysDistinctMembers, h]
  · simp [withVariable, hp, Json.KeysDistinct, Json.KeysDistinctMembers, h, Ne.symm hkey]

theorem IsLeafKey.ne_variable {key : String} (h : IsLeafKey key) : key ≠ "Variable" := by
  rintro rfl
  exact absurd h.1 (by decide)

theorem Literal.keysDistinct_toJson (l : Literal) : l.toJson.KeysDistinct := by
  cases l <;> exact trivial

mutual

theorem keysDistinct_toJson : ∀ c : Condition, c.toJson.KeysDistinct
  | .compare path _ expected =>
    keysDistinct_leaf path _ (Comparison.isLeafKey _).ne_variable expected.keysDistinct_toJson
  | .comparePath path _ _ _ =>
    keysDistinct_leaf path _ (Comparison.isLeafKey _).ne_variable trivial
  | .test path t _ => keysDistinct_leaf path _ t.isLeafKey.ne_variable trivial
  | .and children => ⟨List.nodup_singleton _, keysDistinct_toJsonList children, trivial⟩
  | .or children => ⟨List.nodup_singleton _, keysDistinct_toJsonList children, trivial⟩
  | .not child => ⟨List.nodup_singleton _, keysDistinct_toJson child, trivial⟩

theorem keysDistinct_toJsonList :
    ∀ cs : List Condition, Json.KeysDistinctItems (toJsonList cs)
  | [] => trivial
  | c :: cs => ⟨keysDistinct_toJson c, keysDistinct_toJsonList cs⟩

end

end Condition

namespace ChoiceRule

theorem keysDistinct_toJson (r : ChoiceRule) : r.toJson.KeysDistinct := by
  have hc := r.condition.keysDistinct_toJson
  rw [Condition.toJson_eq, Json.KeysDistinct, Json.keysDistinctMembers_iff] at hc
  rw [toJson_eq, Json.KeysDistinct, Json.keysDistinctMembers_iff, List.map_append,
    List.nodup_append]
  refine ⟨⟨hc.1, ?_, fun a ha b hb => ?_⟩, fun m hm => ?_⟩
  · obtain ⟨condition, next, comment⟩ := r
    cases comment <;> simp [extra]
  · -- the members of the condition have no key of the rule
    obtain ⟨m, hm, rfl⟩ := List.mem_map.1 hb
    rintro rfl
    refine Json.lookup_eq_none.1 (Condition.lookup_members ?_ ?_ r.condition) ha
    · rcases r.isExtra m hm with he | he <;> rw [he] <;> decide
    · rcases r.isExtra m hm with he | he <;> rw [he] <;> decide
  · rcases List.mem_append.1 hm with hm | hm
    · exact hc.2 m hm
    · rcases List.mem_cons.1 hm with rfl | hm
      · exact trivial
      · obtain ⟨_, _, rfl⟩ := List.mem_map.1 hm
        exact trivial

/-- **A rule reads back** if its comparisons are legal. -/
theorem decode_toJson {r : ChoiceRule} (h : ∀ k ∈ r.condition.comparisons, k.isLegal = true) :
    decode (Syntax.ofJson r.toJson) = .ok r := by
  have hd : decode (Syntax.ofJson r.toJson) =
      (ofJson (Syntax.ofJson r.toJson).toJson).mapError .rule := by
    rw [toJson_eq]
    rfl
  rw [hd, Json.toJson_ofJson _ r.keysDistinct_toJson, ofJson_toJson h]
  rfl

end ChoiceRule

end StatesLang
