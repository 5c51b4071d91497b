import StatesLang.Proofs.RoundTrip.Parts
import StatesLang.State.Codec

/-!
# Fields of states read back

* `State.Record.IsReadable`: what the values of fields must be like so that they read back.
* `State.Record.copy`: takes one field over from another record.
* **`State.Record.read_write`**: a written field that holds no graph is read as it was.
* **`State.Record.toState_foldl`**: the fields that are written make up the whole state.
-/

namespace StatesLang

open Json (Syntax Items Members)

/-- A document that a field can hold: it is not null, and no key comes twice in it. -/
def Json.IsContent (j : Json) : Prop :=
  j ≠ .null ∧ j.KeysDistinct

theorem OptionalPath.toJson_eq_none {p : OptionalPath} : p.toJson? = none ↔ p = .unset := by
  cases p <;> simp [OptionalPath.toJson?]

namespace State

theorem listToJson_eq_some {items : List Json} {v : Json} (h : listToJson? items = some v) :
    v = .array items := by
  unfold listToJson? at h
  split at h
  · cases h
  · exact (Option.some.inj h).symm

namespace Record

variable {γ : Type}

/-- Values of fields that read back: documents that fields can hold, rules with comparisons that
documents can hold, and retriers that read back. -/
structure IsReadable (r : Record γ) : Prop where
  parameters : ∀ j ∈ r.work.parameters, j.IsContent
  resultSelector : ∀ j ∈ r.work.resultSelector, j.IsContent
  result : ∀ j ∈ r.result, j.IsContent
  rules : ∀ rule ∈ r.choices, ∀ k ∈ rule.condition.comparisons, k.isLegal = true
  retriers : ∀ t ∈ r.recovery.retriers, t.IsReadable

/-- Takes a field over from another record. -/
def copy (t r : Record γ) : Field → Record γ
  | .comment => { r with comment := t.comment }
  | .resource => { r with resource := t.resource }
  | .inputPath => { r with scope.inputPath := t.scope.inputPath }
  | .outputPath => { r with scope.outputPath := t.scope.outputPath }
  | .resultPath => { r with work.resultPath := t.work.resultPath }
  | .parameters => { r with work.parameters := t.work.parameters }
  | .resultSelector => { r with work.resultSelector := t.work.resultSelector }
  | .result => { r with result := t.result }
  | .timeoutSeconds => { r with timeout.seconds := t.timeout.seconds }
  | .timeoutSecondsPath => { r with timeout.path := t.timeout.path }
  | .heartbeatSeconds => { r with heartbeat.seconds := t.heartbeat.seconds }
  | .heartbeatSecondsPath => { r with heartbeat.path := t.heartbeat.path }
  | .choices => { r with choices := t.choices }
  | .default => { r with default := t.default }
  | .seconds => { r with seconds := t.seconds }
  | .secondsPath => { r with secondsPath := t.secondsPath }
  | .timestamp => { r with timestamp := t.timestamp }
  | .timestampPath => { r with timestampPath := t.timestampPath }
  | .error => { r with error := t.error }
  | .errorPath => { r with errorPath := t.errorPath }
  | .cause => { r with cause := t.cause }
  | .causePath => { r with causePath := t.causePath }
  | .branches => { r with branches := t.branches }
  | .iterator => { r with iterator := t.iterator }
  | .itemsPath => { r with itemsPath := t.itemsPath }
  | .maxConcurrency => { r with maxConcurrency := t.maxConcurrency }
  | .retry => { r with recovery.retriers := t.recovery.retriers }
  | .catchers => { r with recovery.catchers := t.recovery.catchers }
  | .next => { r with exit.next := t.exit.next }
  | .isEnd => { r with exit.isEnd := t.exit.isEnd }

/-- The record with other graphs in it. -/
def withGraphs {δ : Type} (r : Record γ) (branches : List δ) (iterator : Option δ) : Record δ :=
  { r with branches := branches, iterator := iterator }

/-! ## Fields that are not written -/

theorem copy_of_unwritten {t : Record γ} {branches : List Json} {iterator : Option Json}
    (hb : branches = [] → t.branches = []) (hi : iterator = none → t.iterator = none) {f : Field}
    (h : (t.withGraphs branches iterator).write? f = none) (r : Record γ) :
    t.copy r f = ({} : Record γ).copy r f := by
  cases f with
  | isEnd =>
    cases hend : t.exit.isEnd with
    | false => simp only [copy, hend]
    | true =>
      rw [write?, withGraphs, if_pos hend] at h
      cases h
  | _ => simp_all [write?, withGraphs, copy, listToJson?, OptionalPath.toJson_eq_none]

/-- Fields whose values are still the initial ones when they are taken over in turn. -/
def Fresh (t : Record γ) : List Field → Record γ → Prop
  | [], _ => True
  | f :: fs, r => ({} : Record γ).copy r f = r ∧ Fresh t fs (t.copy r f)

theorem foldl_of_fresh {t : Record γ} {branches : List Json} {iterator : Option Json}
    (hb : branches = [] → t.branches = []) (hi : iterator = none → t.iterator = none)
    {fs : List Field} {r : Record γ} (h : t.Fresh fs r) :
    fs.foldl (fun r f =>
      if ((t.withGraphs branches iterator).write? f).isSome then t.copy r f else r) r =
      fs.foldl t.copy r := by
  induction fs generalizing r with
  | nil => rfl
  | cons f fs ih =>
    obtain ⟨hf, hfs⟩ := h
    rw [List.foldl_cons, List.foldl_cons]
    cases hw : (t.withGraphs branches iterator).write? f with
    | some v => exact ih hfs
    | none =>
      have hcopy := copy_of_unwritten hb hi hw r
      rw [hf] at hcopy
      rw [hcopy] at hfs ⊢
      exact ih hfs

theorem fresh_fieldsOf (t : Record γ) (type : StateType) : t.Fresh (fieldsOf type) {} := by
  cases type <;> simp only [fieldsOf, Fresh, copy, and_self]

/-- **The fields of a type make up the state.** -/
theorem toState_foldl (t : Record Graph) (type : StateType) :
    ((fieldsOf type).foldl t.copy {}).toState type = t.toState type := by
  cases type <;> simp only [fieldsOf, List.foldl, copy, toState]

/-! ## Fields that are written -/

theorem optional_content {o : Option Json} {v : Json} (h : o = some v)
    (ho : ∀ j ∈ o, j.IsContent) :
    Decode.optional Decode.document (Syntax.ofJson v) = .ok o := by
  obtain ⟨hnull, hd⟩ := ho v h
  rw [Decode.optional_ofJson hnull (Decode.document_ofJson hd), h]

/-- **A written field that holds no graph is read as it was.** -/
theorem read_write {t : Record γ} (ht : t.IsReadable) {branches : List Json}
    {iterator : Option Json} {f : Field} (hf : f ≠ .branches ∧ f ≠ .iterator) {v : Json}
    (h : (t.withGraphs branches iterator).write? f = some v) (r : Record γ) :
    r.read f (Syntax.ofJson v) = .ok (t.copy r f) := by
  cases f with
  | branches => exact absurd rfl hf.1
  | iterator => exact absurd rfl hf.2
  | resource => cases h; rfl
  | inputPath | outputPath | resultPath => rw [read, OptionalPath.decode_toJson h]; rfl
  | parameters => rw [read, optional_content h ht.parameters]; rfl
  | resultSelector => rw [read, optional_content h ht.resultSelector]; rfl
  | result => rw [read, optional_content h ht.result]; rfl
  | timeoutSeconds | heartbeatSeconds | seconds | maxConcurrency =>
    rw [read, Decode.optional_int64 h]; rfl
  | choices =>
    rw [listToJson_eq_some h, read, withGraphs,
      Decode.list_map fun rule hrule => ChoiceRule.decode_toJson (ht.rules rule hrule)]
    rfl
  | retry =>
    rw [listToJson_eq_some h, read, withGraphs,
      Decode.list_map fun r hr => Retrier.decode_toJson (ht.retriers r hr)]
    rfl
  | catchers =>
    rw [listToJson_eq_some h, read, withGraphs, Decode.list_map fun c _ => c.decode_toJson]
    rfl
  | isEnd =>
    cases hend : t.exit.isEnd with
    | false =>
      rw [write?, withGraphs, if_neg (by simp [hend])] at h
      cases h
    | true =>
      rw [write?, withGraphs, if_pos hend] at h
      cases h
      rw [copy, hend]
      rfl
  | _ => rw [read, Decode.optional_string h]; rfl

end Record

end State

end StatesLang
