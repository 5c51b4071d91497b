import StatesLang.Proofs.Nesting
import StatesLang.Proofs.RoundTrip.Fields

/-!
# States and graphs read back

* `Decode.Origin.Admits`: the depth of documents that an origin has room for.
* `State.values`: the values of the fields of a state, with the graphs inside it.
* `Graph.Everywhere`: what holds of a graph and of all graphs inside it; `Graph.IsReadable`: graphs
  that read back, with all graphs inside them.
* `State.decode_withGraphs`, `Graph.decode_withStates`: a state and a graph whose parts may be
  written in other ways.
* **`State.decode_toJson`**, **`Graph.decode_toJson`**: written states and graphs are read as they
  were, as far as there is room for them.
-/

namespace StatesLang

open Json (Syntax Items Members)
open Decode (Origin)

/-! ## Room -/

namespace Decode.Origin

/-- Whether an origin has room for a depth of nesting. -/
def Admits : Origin → Nat → Prop
  | .text room, depth => depth < room
  | .kept, _ | .document, _ => True

instance : (o : Origin) → (depth : Nat) → Decidable (o.Admits depth)
  | .text room, depth => inferInstanceAs (Decidable (depth < room))
  | .kept, _ | .document, _ => inferInstanceAs (Decidable True)

/-- A result, unless it is nested too deep. -/
def limit {α : Type} (o : Origin) (depth : Nat) (a : α) : Except Error α :=
  if o.Admits depth then .ok a else .error (.malformed .recursionLimit)

theorem check_ofJson {o : Origin} (ho : o.Admits 0) (j : Json) :
    o.check (Syntax.ofJson j) = o.limit j.depth () := by
  cases o with
  | text room =>
    rw [check, Json.check_ofJson ho, limit]
    by_cases h : j.depth < room
    · rw [if_pos h, if_pos (show (text room).Admits _ from h)]
      rfl
    · rw [if_neg h, if_neg (show ¬ (text room).Admits _ from h)]
      rfl
  | kept | document => rfl

theorem admits_max {o : Origin} {d d' : Nat} : o.Admits (max d d') ↔ o.Admits d ∧ o.Admits d' := by
  cases o with
  | text room => exact Nat.max_lt
  | kept | document => simp [Admits]

/-- The parts of a value have room for one level less. -/
theorem inner_limit {o : Origin} {α : Type} {d : Nat} {a : α} {f : Origin → Except Error α}
    (ho : o.Admits 0) (h : ∀ i : Origin, i.Admits 0 → f i = i.limit d a) :
    o.inner >>= f = o.limit (d + 1) a := by
  cases o with
  | text room =>
    rw [inner]
    by_cases hr : room ≤ 1
    · rw [if_pos hr, limit, if_neg (show ¬ (text room).Admits _ from Nat.not_lt.2 (by omega))]
      rfl
    · rw [if_neg hr]
      refine (h (.text (room - 1)) (show 0 < room - 1 by omega)).trans ?_
      exact if_congr (show d < room - 1 ↔ d + 1 < room by omega) rfl rfl
  | kept | document => exact h _ trivial

theorem limit_bind {o : Origin} {α β : Type} {d d' : Nat} {a : α} {b : β}
    {f : α → Except Error β} (h : f a = o.limit d' b) :
    o.limit d a >>= f = o.limit (max d d') b := by
  by_cases hd : o.Admits d
  · rw [limit, if_pos hd]
    refine h.trans ?_
    exact if_congr (by simp [admits_max, hd]) rfl rfl
  · rw [limit, if_neg hd, limit, if_neg (by simp [admits_max, hd])]
    rfl

end Decode.Origin

/-! ## Values of states -/

namespace State

/-- The values of the fields of a state, with the graphs inside it. -/
def values : State → Record Graph
  | .parallel p branches => { State.record (.parallel p branches) with branches := branches }
  | .map m iterator => { State.record (.map m iterator) with iterator := iterator }
  | s => s.record

theorem toState_values (s : State) : s.values.toState s.type = s := by
  cases s <;> rfl

theorem toJson_eq (s : State) :
    s.toJson = (s.values.withGraphs (Graph.listToJson s.values.branches)
      (s.values.iterator.map Graph.toJson)).toJson s.type := by
  cases s with
  | map m iterator => cases iterator <;> rw [toJson] <;> rfl
  | _ => rw [toJson]; rfl

/-- The members of the document of a state behind its type. -/
def Record.members (r : Record Json) (type : StateType) : List (String × Json) :=
  Decode.written (shape type) r.write? (fieldsOf type)

theorem Record.toJson_eq (r : Record Json) (type : StateType) :
    r.toJson type = .object (("Type", .string type.name) :: r.members type) := by
  have h := Decode.ofMembers_map (shape type) r.write? (fieldsOf type)
  exact congrArg (fun ms => Json.object (("Type", .string type.name) :: ms)) (Json.object.inj h)

/-! ## Types -/

theorem fieldOf_key {type : StateType} : ∀ f ∈ fieldsOf type, fieldOf? type f.key = some f := by
  cases type <;> decide

theorem nodup_fieldsOf (type : StateType) : (fieldsOf type).Nodup := by
  cases type <;> decide

theorem fieldOf_type (type : StateType) : fieldOf? type "Type" = none := by
  cases type <;> decide

theorem key_ne_type (f : Field) : f.key ≠ "Type" := by
  cases f <;> decide

theorem type_notMem_members (r : Record Json) (type : StateType) :
    "Type" ∉ (r.members type).map Prod.fst := by
  intro h
  obtain ⟨m, hm, hkey⟩ := List.mem_map.1 h
  obtain ⟨f, -, hf⟩ := List.mem_filterMap.1 hm
  obtain ⟨v, -, rfl⟩ := Option.map_eq_some_iff.1 hf
  exact key_ne_type f hkey

end State

theorem StateType.decode_name (o : Origin) (type : StateType) :
    StateType.decode o (.string type.name) = .ok type := by
  have h : StateType.ofName? type.name = some type := by cases type <;> decide
  cases o <;> simp only [StateType.decode, h]

/-- Behind the type, the members of a state are only checked. -/
theorem StateType.scan_ofMembers {o : Origin} (ho : o.Admits 0) (type : StateType) :
    ∀ ms : List (String × Json), "Type" ∉ ms.map Prod.fst →
      StateType.scan o (some type) (Members.ofList ms) = o.limit (Json.depthOfMembers ms) type
  | [], _ => (if_pos ho).symm
  | (key, value) :: rest, h => by
    rw [List.map_cons, List.mem_cons, not_or] at h
    rw [Members.ofList, StateType.scan, Json.depthOfMembers]
    simp only [Json.Key.name?, Except.mapError, Origin.check_ofJson ho, bind, Except.bind,
      if_neg (Ne.symm h.1)]
    exact Origin.limit_bind (scan_ofMembers ho type rest h.2)

/-! ## Fields of states -/

namespace State

/-- The graphs of a record are read as they were written. -/
structure Record.GraphsRead (t : Record Graph) (branches : List Json) (iterator : Option Json) :
    Prop where
  readBranches : Graph.decodeList (Syntax.ofJson (.array branches)) = .ok t.branches
  readIterator : ∀ j, iterator = some j →
    Graph.decodeOptional (Syntax.ofJson j) = .ok t.iterator
  noIterator : iterator = none → t.iterator = none

theorem decodeList_nil : Graph.decodeList (Syntax.ofJson (.array [])) = .ok [] := by
  rw [Syntax.ofJson, Items.ofList, Graph.decodeList, Graph.decodeItems]

theorem Record.GraphsRead.noBranches {t : Record Graph} {branches : List Json}
    {iterator : Option Json} (hg : t.GraphsRead branches iterator) (h : branches = []) :
    t.branches = [] := by
  have hread := hg.readBranches
  rw [h, decodeList_nil] at hread
  exact (Except.ok.inj hread).symm

theorem decodeFields_members {t : Record Graph} (ht : t.IsReadable) {branches : List Json}
    {iterator : Option Json} (hg : t.GraphsRead branches iterator) (type : StateType) :
    ∃ r, State.decodeFields type (Syntax.ofJson ((t.withGraphs branches iterator).toJson type)) =
      .ok r ∧ r.toState type = t.toState type := by
  refine ⟨_, ?_, t.toState_foldl type⟩
  rw [Record.toJson_eq, Syntax.ofJson, Members.ofList, State.decodeFields,
    Decode.readRecord_object]
  change Decode.readMembers _ _ _ _ _ _ _ = _
  rw [Decode.readMembers_unknown (fieldOf_type type) rfl]
  refine (Decode.readMembers_written (fieldsOf type) fieldOf_key (nodup_fieldsOf type) ?_ []
    (fun _ _ => List.not_mem_nil) _ rfl _ _).trans ((Decode.foldlM_written
      (fun _ _ _ _ => rfl) _).trans (congrArg _
        (Record.foldl_of_fresh hg.noBranches hg.noIterator (t.fresh_fieldsOf type))))
  intro r f _ v _ hw
  by_cases hb : f = .branches
  · subst hb
    rw [listToJson_eq_some hw]
    dsimp only [Record.withGraphs]
    rw [hg.readBranches]
    rfl
  by_cases hi : f = .iterator
  · subst hi
    dsimp only
    rw [hg.readIterator v hw]
    rfl
  · have hread := Record.read_write ht ⟨hb, hi⟩ hw r
    cases f <;> first | exact hread | exact absurd rfl hb | exact absurd rfl hi

/-- A state is read from its values, as far as there is room for it, whichever documents its graphs
are read from. -/
theorem decode_withGraphs {t : Record Graph} (ht : t.IsReadable) {branches : List Json}
    {iterator : Option Json} (hg : t.GraphsRead branches iterator) (type : StateType) {o : Origin}
    (ho : o.Admits 0) :
    State.decode o (Syntax.ofJson ((t.withGraphs branches iterator).toJson type)) =
      o.limit ((t.withGraphs branches iterator).toJson type).depth (t.toState type) := by
  obtain ⟨r, hr, hstate⟩ := decodeFields_members ht hg type
  have htype := type_notMem_members (t.withGraphs branches iterator) type
  rw [Record.toJson_eq] at hr ⊢
  generalize (t.withGraphs branches iterator).members type = ms at hr htype ⊢
  rw [Syntax.ofJson, Members.ofList] at hr ⊢
  rw [State.decode, Json.depth]
  refine Origin.inner_limit ho fun i hi => ?_
  have hscan : StateType.scan i none (.more (.name "Type") (Syntax.ofJson (.string type.name))
      (Members.ofList ms)) = i.limit (Json.depthOfMembers ms) type := by
    rw [StateType.scan, Syntax.ofJson, StateType.decode_name]
    exact StateType.scan_ofMembers hi type ms htype
  rw [hscan, Json.depthOfMembers, Json.depth, Nat.zero_max]
  unfold Origin.limit
  split
  · change State.decodeFields type _ >>= _ = _
    rw [hr]
    exact congrArg Except.ok hstate
  · rfl

/-- **A written state is read as it was**, as far as there is room for it, if the graphs inside it
are. -/
theorem decode_of_graphsRead {s : State} (hs : s.values.IsReadable)
    (hg : s.values.GraphsRead (Graph.listToJson s.values.branches)
      (s.values.iterator.map Graph.toJson)) {o : Origin} (ho : o.Admits 0) :
    State.decode o (Syntax.ofJson s.toJson) = o.limit s.toJson.depth s := by
  rw [toJson_eq, decode_withGraphs hs hg s.type ho, toState_values]

end State

/-! ## Graphs -/

namespace Graph

/-- What holds of a graph and of all graphs inside it. -/
def Everywhere (P : Graph → Prop) (g : Graph) : Prop :=
  ∀ path h, g.Inside path h → P h

theorem everywhere_iff {P : Graph → Prop} {g : Graph} : g.Everywhere P ↔ P g ∧ ∀ p ∈ g.states,
    (∀ b ∈ p.2.values.branches, b.Everywhere P) ∧ ∀ b ∈ p.2.values.iterator, b.Everywhere P := by
  constructor
  · intro hg
    refine ⟨hg [] g (.here g), fun ⟨name, s⟩ hs => ⟨fun b hb path h hin => ?_,
      fun b hb path h hin => ?_⟩⟩
    · cases s with
      | parallel p branches =>
        obtain ⟨i, hi⟩ := List.mem_iff_getElem?.1 hb
        exact hg _ h (.branch hs hi hin)
      | _ => cases hb
    · cases s with
      | map m iterator =>
        cases hb
        exact hg _ h (.iterator hs hin)
      | _ => cases hb
  · rintro ⟨hg, hstates⟩ path h hin
    cases hin with
    | here => exact hg
    | branch hs hb hh => exact (hstates _ hs).1 _ (List.mem_of_getElem? hb) _ _ hh
    | iterator hs hh => exact (hstates _ hs).2 _ rfl _ _ hh

/-- Graphs that read back: the states are ordered by name, as every graph keeps them, and their
values read back; so it is for all graphs inside. -/
def IsReadable : Graph → Prop :=
  Everywhere fun g =>
    (g.states.map Prod.fst).Pairwise (· < ·) ∧ ∀ p ∈ g.states, p.2.values.IsReadable

theorem insertState_of_lt {name : String} {s : State} {before : List (String × State)}
    (h : ∀ p ∈ before, p.1 < name) : insertState name s before = before ++ [(name, s)] := by
  induction before with
  | nil => rfl
  | cons p rest ih =>
    obtain ⟨n, t⟩ := p
    have hn : n < name := h (n, t) (by simp)
    have hne : name ≠ n := by
      rintro rfl
      exact absurd hn (String.lt_irrefl _)
    have hlt : ¬ name < n := String.lt_asymm hn
    rw [insertState, if_neg hne, if_neg hlt, ih fun q hq => h q (by simp [hq]), List.cons_append]

end Graph

/-! ## Whole states and graphs -/

/-- States that read back, with all graphs inside them. -/
structure State.IsReadable (s : State) : Prop where
  values : s.values.IsReadable
  branches : ∀ g ∈ s.values.branches, g.IsReadable
  iterator : ∀ g ∈ s.values.iterator, g.IsReadable

/-- Lists of states whose names come in order, and that read back. -/
structure Graph.StatesReadable (states : List (String × State)) : Prop where
  sorted : (states.map Prod.fst).Pairwise (· < ·)
  readable : ∀ p ∈ states, p.2.IsReadable

theorem Graph.isReadable_iff {g : Graph} : g.IsReadable ↔ Graph.StatesReadable g.states := by
  rw [IsReadable, everywhere_iff]
  constructor
  · rintro ⟨⟨hsorted, hvalues⟩, hinside⟩
    exact ⟨hsorted, fun p hp => ⟨hvalues p hp, (hinside p hp).1, (hinside p hp).2⟩⟩
  · rintro ⟨hsorted, hstates⟩
    exact ⟨⟨hsorted, fun p hp => (hstates p hp).values⟩,
      fun p hp => ⟨(hstates p hp).branches, (hstates p hp).iterator⟩⟩

/-- A field of a graph as a value, if it is written at all, where the states are written already. -/
def Graph.write? (g : Graph) (states : Json) : Graph.Field → Option Json
  | .comment => g.comment.map .string
  | .startAt => some (.string g.startAt)
  | .states => some states

/-- Takes a field over from another graph. -/
def Graph.copy (t g : Graph) : Graph.Field → Graph
  | .comment => ⟨t.comment, g.startAt, g.states⟩
  | .startAt => ⟨g.comment, t.startAt, g.states⟩
  | .states => ⟨g.comment, g.startAt, t.states⟩

/-- The document of a graph whose states are written already. -/
def Graph.withStates (g : Graph) (states : Json) : Json :=
  .object (Decode.written Graph.shape (g.write? states) Graph.fields)

theorem Graph.toJson_eq (g : Graph) :
    g.toJson = g.withStates (.object (Graph.statesToJson g.states)) := by
  obtain ⟨comment, startAt, states⟩ := g
  rw [Graph.toJson]
  exact Decode.ofMembers_map Graph.shape (Graph.write? ⟨comment, startAt, states⟩ _) Graph.fields

theorem Graph.decode_withStates {g : Graph} {states : Json}
    (h : Graph.decodeStates .kept (Syntax.ofJson states) = .ok g.states) :
    Graph.decode (Syntax.ofJson (g.withStates states)) = .ok g := by
  rw [Graph.withStates, Graph.decode]
  refine (Decode.readRecord_written (g.write? states) g.copy (by decide) (by decide) rfl rfl
    (fun r f _ v _ hw => ?_) ⟨none, "", []⟩).trans ?_
  · cases f with
    | comment =>
      dsimp only
      rw [Decode.optional_string hw]
      rfl
    | startAt =>
      cases hw
      rfl
    | states =>
      cases hw
      dsimp only
      rw [h]
      rfl
  · obtain ⟨comment, startAt, _⟩ := g
    cases comment <;> rfl

theorem Graph.decodeStates_of_members {o : Origin} (ho : o.Admits 0)
    {states : List (String × State)}
    (h : ∀ i : Origin, i.Admits 0 →
      Graph.decodeMembers i [] (Members.ofList (Graph.statesToJson states)) =
        i.limit (Json.depthOfMembers (Graph.statesToJson states)) states) :
    Graph.decodeStates o (Syntax.ofJson (.object (Graph.statesToJson states))) =
      o.limit (Json.depth (.object (Graph.statesToJson states))) states := by
  rw [Syntax.ofJson, Graph.decodeStates, Json.depth]
  exact Origin.inner_limit ho h

theorem Graph.decodeOptional_of_decode {g : Graph} {s : Syntax} (h : Graph.decode s = .ok g) :
    Graph.decodeOptional s = .ok (some g) := by
  rw [Graph.decodeOptional, h]
  · rfl
  · rintro rfl
    rw [Graph.decode] at h
    cases h

mutual

/-- **A written state is read as it was**, as far as there is room for it. -/
theorem State.decode_toJson {o : Origin} (ho : o.Admits 0) : ∀ s : State, s.IsReadable →
    State.decode o (Syntax.ofJson s.toJson) = o.limit s.toJson.depth s
  | .parallel p branches, hs => by
    refine State.decode_of_graphsRead hs.values ⟨?_, fun _ h => (by cases h), fun _ => rfl⟩ ho
    have h := Graph.decodeItems_listToJson branches hs.branches
    rw [Syntax.ofJson, Graph.decodeList]
    exact h
  | .map m none, hs =>
    State.decode_of_graphsRead hs.values
      ⟨State.decodeList_nil, fun _ h => (by cases h), fun _ => rfl⟩ ho
  | .map m (some g), hs => by
    have h := Graph.decode_toJson g (hs.iterator g rfl)
    refine State.decode_of_graphsRead hs.values
      ⟨State.decodeList_nil, fun j hj => ?_, fun h => by cases h⟩ ho
    cases hj
    exact Graph.decodeOptional_of_decode h
  | .task _, hs | .pass _, hs | .choice _, hs | .wait _, hs | .succeed _, hs | .fail _, hs =>
    State.decode_of_graphsRead hs.values
      ⟨State.decodeList_nil, fun _ h => (by cases h), fun _ => rfl⟩ ho

/-- **A written graph is read as it was.** -/
theorem Graph.decode_toJson : ∀ g : Graph, g.IsReadable →
    Graph.decode (Syntax.ofJson g.toJson) = .ok g
  | ⟨comment, startAt, states⟩, hg => by
    rw [Graph.toJson_eq]
    refine Graph.decode_withStates
      (Graph.decodeStates_of_members (show Origin.kept.Admits 0 from trivial) fun i hi => ?_)
    have hstates := Graph.isReadable_iff.1 hg
    exact Graph.decodeMembers_statesToJson hi states [] hstates.sorted hstates.readable

theorem Graph.decodeItems_listToJson : ∀ gs : List Graph, (∀ g ∈ gs, g.IsReadable) →
    Graph.decodeItems (Items.ofList (Graph.listToJson gs)) = .ok gs
  | [], _ => by rw [Graph.listToJson, Items.ofList, Graph.decodeItems]
  | g :: gs, hgs => by
    rw [Graph.listToJson, Items.ofList, Graph.decodeItems, Graph.decode_toJson g (hgs g (by simp)),
      Graph.decodeItems_listToJson gs fun h hh => hgs h (by simp [hh])]
    rfl

theorem Graph.decodeMembers_statesToJson {o : Origin} (ho : o.Admits 0) :
    ∀ states before : List (String × State),
      ((before ++ states).map Prod.fst).Pairwise (· < ·) → (∀ p ∈ states, p.2.IsReadable) →
        Graph.decodeMembers o before (Members.ofList (Graph.statesToJson states)) =
          o.limit (Json.depthOfMembers (Graph.statesToJson states)) (before ++ states)
  | [], before, _, _ => by
    rw [Graph.statesToJson, Members.ofList, Graph.decodeMembers, List.append_nil,
      Json.depthOfMembers, Origin.limit, if_pos ho]
  | (name, s) :: rest, before, hsorted, hs => by
    have hlt : ∀ p ∈ before, p.1 < name := by
      intro p hp
      rw [List.map_append, List.pairwise_append] at hsorted
      exact hsorted.2.2 p.1 (List.mem_map_of_mem hp) name (by simp)
    have hsplit : before ++ (name, s) :: rest = (before ++ [(name, s)]) ++ rest := by simp
    have hrest := Graph.decodeMembers_statesToJson ho rest (before ++ [(name, s)])
      (hsplit ▸ hsorted) fun p hp => hs p (by simp [hp])
    rw [Graph.statesToJson, Members.ofList, Graph.decodeMembers, Json.depthOfMembers,
      State.decode_toJson ho s (hs (name, s) (by simp)), hsplit]
    rw [← Graph.insertState_of_lt hlt] at hrest ⊢
    exact Origin.limit_bind hrest

end

theorem Graph.decodeStates_toJson {g : Graph} (hg : g.IsReadable) {o : Origin}
    (ho : o.Admits 0) :
    Graph.decodeStates o (Syntax.ofJson (.object (Graph.statesToJson g.states))) =
      o.limit (Json.depth (.object (Graph.statesToJson g.states))) g.states :=
  have hstates := Graph.isReadable_iff.1 hg
  Graph.decodeStates_of_members ho fun _ hi =>
    Graph.decodeMembers_statesToJson hi g.states [] hstates.sorted hstates.readable

end StatesLang
