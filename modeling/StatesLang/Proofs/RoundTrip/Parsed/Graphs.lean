import StatesLang.Proofs.RoundTrip.Parsed.Parts
import StatesLang.Proofs.RoundTrip.State

/-!
# What reading yields: states and graphs

States and graphs that are read read back. They are written nested no deeper than they were read,
where nothing stands for a member that was left out.

* `Graph.IsFull`: no graph inside lacks states, no retrier or catcher lacks the names of errors.
* `State.Record.Fits`: values that read back and are nested less deep than a bound.
* **`State.decode_fits`**, **`Graph.decode_fits`**: so are all that are read.
* **`Graph.admits_of_decodeStates`**: the bound is set by the room that there was.
-/

namespace StatesLang

open Json (Syntax Items Members)
open Decode (Origin)

/-! ## Nothing left out -/

/-- Retriers and catchers that name errors. -/
structure State.Recovery.IsFull (r : State.Recovery) : Prop where
  retriers : ∀ t ∈ r.retriers, t.errorEquals ≠ []
  catchers : ∀ c ∈ r.catchers, c.errorEquals ≠ []

/-- Graphs in which nothing is left out that is always written. -/
def Graph.IsFull : Graph → Prop :=
  Graph.Everywhere fun g => g.states ≠ [] ∧ ∀ p ∈ g.states, p.2.recovery.IsFull

/-- The same for a state. -/
structure State.IsFull (s : State) : Prop where
  recovery : s.recovery.IsFull
  branches : ∀ g ∈ s.values.branches, g.IsFull
  iterator : ∀ g ∈ s.values.iterator, g.IsFull

theorem Graph.isFull_iff {g : Graph} :
    g.IsFull ↔ g.states ≠ [] ∧ ∀ p ∈ g.states, p.2.IsFull := by
  rw [IsFull, everywhere_iff]
  constructor
  · rintro ⟨⟨hne, hrecovery⟩, hinside⟩
    exact ⟨hne, fun p hp => ⟨hrecovery p hp, (hinside p hp).1, (hinside p hp).2⟩⟩
  · rintro ⟨hne, hstates⟩
    exact ⟨⟨hne, fun p hp => (hstates p hp).recovery⟩,
      fun p hp => ⟨(hstates p hp).branches, (hstates p hp).iterator⟩⟩

/-! ## Bounds -/

/-- A graph that reads back and, if nothing is left out, is nested less deep than a bound. -/
structure Graph.Fits (n : Nat) (g : Graph) : Prop where
  readable : g.IsReadable
  depth : g.IsFull → g.toJson.depth < n

/-- The same for a state. -/
structure State.Fits (n : Nat) (s : State) : Prop where
  readable : s.IsReadable
  depth : s.IsFull → s.toJson.depth < n

/-- The same for states that come in order. -/
structure Graph.StatesFit (n : Nat) (states : List (String × State)) : Prop where
  sorted : (states.map Prod.fst).Pairwise (· < ·)
  fits : ∀ p ∈ states, p.2.Fits n

theorem Graph.Fits.mono {n m : Nat} {g : Graph} (hg : g.Fits n) (h : n ≤ m) : g.Fits m :=
  ⟨hg.readable, fun hfull => Nat.lt_of_lt_of_le (hg.depth hfull) h⟩

theorem State.Fits.mono {n m : Nat} {s : State} (hs : s.Fits n) (h : n ≤ m) : s.Fits m :=
  ⟨hs.readable, fun hfull => Nat.lt_of_lt_of_le (hs.depth hfull) h⟩

theorem Graph.StatesFit.mono {n m : Nat} {states : List (String × State)}
    (hs : Graph.StatesFit n states) (h : n ≤ m) : Graph.StatesFit m states :=
  ⟨hs.sorted, fun p hp => (hs.fits p hp).mono h⟩

theorem Graph.statesFit_nil (n : Nat) : Graph.StatesFit n [] :=
  ⟨List.Pairwise.nil, fun _ hp => absurd hp List.not_mem_nil⟩

theorem Graph.StatesFit.readable {n : Nat} {states : List (String × State)}
    (hs : Graph.StatesFit n states) : Graph.StatesReadable states :=
  ⟨hs.sorted, fun p hp => (hs.fits p hp).readable⟩

theorem Graph.StatesFit.depth_lt {n : Nat} {states : List (String × State)}
    (hs : Graph.StatesFit n states) (hn : 0 < n) (hfull : ∀ p ∈ states, p.2.IsFull) :
    Json.depthOfMembers (Graph.statesToJson states) < n := by
  obtain ⟨-, hfits⟩ := hs
  induction states with
  | nil => exact hn
  | cons p rest ih =>
    obtain ⟨name, s⟩ := p
    rw [Graph.statesToJson, Json.depthOfMembers, Nat.max_lt]
    exact ⟨(hfits (name, s) (by simp)).depth (hfull (name, s) (by simp)),
      ih (fun p hp => hfull p (by simp [hp])) fun p hp => hfits p (by simp [hp])⟩

/-! ## States in order -/

namespace Graph

theorem mem_insertState {name : String} {s : State} {states : List (String × State)}
    {p : String × State} (h : p ∈ insertState name s states) : p = (name, s) ∨ p ∈ states := by
  induction states with
  | nil => exact Or.inl (List.mem_singleton.1 h)
  | cons q rest ih =>
    obtain ⟨n, t⟩ := q
    rw [insertState] at h
    split at h
    · rcases List.mem_cons.1 h with rfl | h
      · exact Or.inl rfl
      · exact Or.inr (List.mem_cons_of_mem _ h)
    · split at h
      · exact (List.mem_cons.1 h).imp_right id
      · rcases List.mem_cons.1 h with rfl | h
        · exact Or.inr (by simp)
        · exact (ih h).imp_right (List.mem_cons_of_mem _)

theorem sorted_insertState {name : String} {s : State} {states : List (String × State)}
    (h : (states.map Prod.fst).Pairwise (· < ·)) :
    ((insertState name s states).map Prod.fst).Pairwise (· < ·) := by
  induction states with
  | nil => exact List.pairwise_singleton _ _
  | cons q rest ih =>
    obtain ⟨n, t⟩ := q
    rw [List.map_cons, List.pairwise_cons] at h
    rw [insertState]
    split
    · next he =>
      subst he
      exact List.pairwise_cons.2 h
    · next hne =>
      split
      · next hlt =>
        refine List.pairwise_cons.2 ⟨fun m hm => ?_, List.pairwise_cons.2 h⟩
        rcases List.mem_cons.1 hm with rfl | hm
        · exact hlt
        · exact String.lt_trans hlt (h.1 m hm)
      · next hnlt =>
        refine List.pairwise_cons.2 ⟨fun m hm => ?_, ih h.2⟩
        obtain ⟨p, hp, rfl⟩ := List.mem_map.1 hm
        rcases mem_insertState hp with rfl | hp
        · exact Std.lt_of_le_of_ne (Std.not_lt.1 hnlt) (Ne.symm hne)
        · exact h.1 p.1 (List.mem_map_of_mem hp)

theorem StatesFit.insertState {n : Nat} {states : List (String × State)}
    (h : StatesFit n states) {s : State} (hs : s.Fits n) (name : String) :
    StatesFit n (Graph.insertState name s states) := by
  refine ⟨sorted_insertState h.sorted, fun p hp => ?_⟩
  rcases mem_insertState hp with rfl | hp
  · exact hs
  · exact h.fits p hp

end Graph

/-! ## Values of states -/

namespace State

namespace Record

/-- Values of fields that read back and are nested less deep than a bound. What stands in a list has
one level less. -/
structure Fits (n : Nat) (r : Record Graph) : Prop where
  parameters : ∀ j ∈ r.work.parameters, j.IsContent ∧ j.depth < n
  resultSelector : ∀ j ∈ r.work.resultSelector, j.IsContent ∧ j.depth < n
  result : ∀ j ∈ r.result, j.IsContent ∧ j.depth < n
  rules : ∀ rule ∈ r.choices,
    (∀ k ∈ rule.condition.comparisons, k.isLegal = true) ∧ rule.toJson.depth + 1 < n
  retriers : ∀ t ∈ r.recovery.retriers,
    t.IsReadable ∧ (t.errorEquals ≠ [] → t.toJson.depth + 1 < n)
  catchers : ∀ c ∈ r.recovery.catchers, c.errorEquals ≠ [] → c.toJson.depth + 1 < n
  branches : ∀ g ∈ r.branches, g.Fits (n - 1)
  iterator : ∀ g ∈ r.iterator, g.Fits n

theorem fits_initial (n : Nat) : ({} : Record Graph).Fits n := by
  constructor <;> simp

theorem Fits.isReadable {n : Nat} {r : Record Graph} (h : r.Fits n) : r.IsReadable :=
  ⟨fun j hj => (h.parameters j hj).1, fun j hj => (h.resultSelector j hj).1,
    fun j hj => (h.result j hj).1, fun rule hrule => (h.rules rule hrule).1,
    fun t ht => (h.retriers t ht).1⟩

/-- Values that the type does not have are initial ones. -/
theorem Fits.values_toState {n : Nat} {r : Record Graph} (h : r.Fits n) (type : StateType) :
    (r.toState type).values.Fits n := by
  refine ⟨?_, ?_, ?_, ?_, ?_, ?_, ?_, ?_⟩
  · cases type <;> first | exact h.parameters | exact fun _ hj => (by cases hj)
  · cases type <;> first | exact h.resultSelector | exact fun _ hj => (by cases hj)
  · cases type <;> first | exact h.result | exact fun _ hj => (by cases hj)
  · cases type <;> first | exact h.rules | exact fun _ hj => (by cases hj)
  · cases type <;> first | exact h.retriers | exact fun _ hj => (by cases hj)
  · cases type <;> first | exact h.catchers | exact fun _ hj => (by cases hj)
  · cases type <;> first | exact h.branches | exact fun _ hj => (by cases hj)
  · cases type <;> first | exact h.iterator | exact fun _ hj => (by cases hj)

/-! ### Fields that are read -/

variable {n : Nat} {v : Syntax}

/-- **A field that is read keeps the bound**, unless it holds graphs. -/
theorem Fits.read {r r' : Record Graph} (hr : r.Fits n) {f : Field}
    (hv : v.depth < n) (h : r.read f v = .ok r') : r'.Fits n := by
  cases f with
  | branches | iterator =>
    cases h
    exact hr
  | parameters =>
    obtain ⟨o, ho, h⟩ := Decode.bind_eq_ok.1 h
    cases h
    exact { hr with parameters := Decode.optional_document_fits hv ho }
  | resultSelector =>
    obtain ⟨o, ho, h⟩ := Decode.bind_eq_ok.1 h
    cases h
    exact { hr with resultSelector := Decode.optional_document_fits hv ho }
  | result =>
    obtain ⟨o, ho, h⟩ := Decode.bind_eq_ok.1 h
    cases h
    exact { hr with result := Decode.optional_document_fits hv ho }
  | choices =>
    obtain ⟨rules, hrules, h⟩ := Decode.bind_eq_ok.1 h
    cases h
    refine { hr with rules := fun rule hrule => ?_ }
    obtain ⟨item, hd, hread⟩ := Decode.list_fits hrules rule hrule
    have hfits := ChoiceRule.decode_fits hread
    exact ⟨hfits.1, by omega⟩
  | retry =>
    obtain ⟨retriers, hretriers, h⟩ := Decode.bind_eq_ok.1 h
    cases h
    refine { hr with retriers := fun t ht => ?_ }
    obtain ⟨item, hd, hread⟩ := Decode.list_fits hretriers t ht
    have hfits := Retrier.decode_fits hread
    exact ⟨hfits.1, fun hne => by have := hfits.2 hne; omega⟩
  | catchers =>
    obtain ⟨catchers, hcatchers, h⟩ := Decode.bind_eq_ok.1 h
    cases h
    refine { hr with catchers := fun c hc hne => ?_ }
    obtain ⟨item, hd, hread⟩ := Decode.list_fits hcatchers c hc
    have hfits := Catcher.decode_fits hread hne
    omega
  | _ =>
    obtain ⟨_, -, h⟩ := Decode.bind_eq_ok.1 h
    cases h
    exact { hr with }

/-! ### Fields that are written -/

theorem depth_lt_of_list {items : List Json} {v : Json} (h : listToJson? items = some v)
    (hitems : ∀ item ∈ items, item.depth + 1 < n) : v.depth < n := by
  have hv := listToJson_eq_some h
  subst hv
  cases items with
  | nil => cases h
  | cons item rest =>
    have hpos := hitems item (by simp)
    have hle : Json.depthOfItems (item :: rest) ≤ n - 2 := by
      refine Json.depthOfItems_le.2 fun i hi => ?_
      have hi := hitems i hi
      omega
    rw [Json.depth]
    omega

theorem mem_listToJson {gs : List Graph} {j : Json} (h : j ∈ Graph.listToJson gs) :
    ∃ g ∈ gs, j = g.toJson := by
  induction gs with
  | nil => cases h
  | cons g gs ih =>
    rw [Graph.listToJson] at h
    rcases List.mem_cons.1 h with rfl | h
    · exact ⟨g, by simp, rfl⟩
    · obtain ⟨g', hg', he⟩ := ih h
      exact ⟨g', by simp [hg'], he⟩

theorem recovery_values (s : State) : s.values.recovery = s.recovery := by
  cases s <;> rfl

/-- **A field that is written keeps the bound**, where nothing is left out. -/
theorem Fits.write {s : State} (hs : s.values.Fits n) (hn : 0 < n) (hfull : s.IsFull) {f : Field}
    {v : Json} (h : (s.values.withGraphs (Graph.listToJson s.values.branches)
      (s.values.iterator.map Graph.toJson)).write? f = some v) : v.depth < n := by
  have hrecovery := hfull.recovery
  rw [← recovery_values] at hrecovery
  cases f with
  | resource =>
    cases h
    exact hn
  | inputPath | outputPath | resultPath =>
    rw [OptionalPath.depth_toJson h]
    exact hn
  | parameters => exact (hs.parameters v h).2
  | resultSelector => exact (hs.resultSelector v h).2
  | result => exact (hs.result v h).2
  | choices =>
    refine depth_lt_of_list h fun item hitem => ?_
    obtain ⟨rule, hrule, rfl⟩ := List.mem_map.1 hitem
    exact (hs.rules rule hrule).2
  | retry =>
    refine depth_lt_of_list h fun item hitem => ?_
    obtain ⟨t, ht, rfl⟩ := List.mem_map.1 hitem
    exact (hs.retriers t ht).2 (hrecovery.retriers t ht)
  | catchers =>
    refine depth_lt_of_list h fun item hitem => ?_
    obtain ⟨c, hc, rfl⟩ := List.mem_map.1 hitem
    exact hs.catchers c hc (hrecovery.catchers c hc)
  | branches =>
    refine depth_lt_of_list h fun item hitem => ?_
    obtain ⟨g, hg, rfl⟩ := mem_listToJson hitem
    have hdepth := (hs.branches g hg).depth (hfull.branches g hg)
    omega
  | iterator =>
    obtain ⟨g, hg, rfl⟩ := Option.map_eq_some_iff.1 h
    exact (hs.iterator g hg).depth (hfull.iterator g hg)
  | isEnd =>
    rw [Record.write?, Option.ite_none_right_eq_some] at h
    cases h.2
    exact hn
  | _ =>
    obtain ⟨_, -, rfl⟩ := Option.map_eq_some_iff.1 h
    exact hn

end Record

theorem fits_of_values {n : Nat} {s : State} (hs : s.values.Fits n) (hn : 0 < n) :
    s.Fits (n + 1) := by
  refine ⟨⟨hs.isReadable, fun g hg => (hs.branches g hg).readable,
    fun g hg => (hs.iterator g hg).readable⟩, fun hfull => ?_⟩
  have hmembers : Json.depthOfMembers ((s.values.withGraphs (Graph.listToJson s.values.branches)
      (s.values.iterator.map Graph.toJson)).members s.type) ≤ n - 1 :=
    Decode.depthOfMembers_written.2 fun f _ v hv =>
      Nat.le_sub_one_of_lt (hs.write hn hfull hv)
  rw [State.toJson_eq, Record.toJson_eq, Json.depth, Json.depthOfMembers, Json.depth, Nat.zero_max]
  omega

end State

/-! ## States and graphs that are read -/

theorem Graph.depth_withStates_le (g : Graph) (states : Json) :
    (g.withStates states).depth ≤ states.depth + 1 := by
  rw [withStates, Json.depth]
  refine Nat.succ_le_succ (Decode.depthOfMembers_written.2 fun f _ v hv => ?_)
  cases f with
  | comment =>
    obtain ⟨_, -, rfl⟩ := Option.map_eq_some_iff.1 hv
    exact Nat.zero_le _
  | startAt =>
    cases hv
    exact Nat.zero_le _
  | states =>
    cases hv
    exact Nat.le_refl _

theorem Graph.fits_of_states {n : Nat} {g : Graph} (hg : Graph.StatesFit (n - 1) g.states) :
    g.Fits (n + 1) := by
  refine ⟨Graph.isReadable_iff.2 hg.readable, fun hfull => ?_⟩
  obtain ⟨hne, hstates⟩ := Graph.isFull_iff.1 hfull
  obtain ⟨p, hp⟩ := List.exists_mem_of_ne_nil _ hne
  have hpos := (hg.fits p hp).depth (hstates p hp)
  have hdepth := hg.depth_lt (by omega) hstates
  have hle := g.depth_withStates_le (.object (Graph.statesToJson g.states))
  rw [← Graph.toJson_eq, Json.depth] at hle
  omega

mutual

/-- **A state that is read** reads back and is written nested no deeper than it was read. -/
theorem State.decode_fits (o : Origin) : ∀ (s : Syntax) (t : State), State.decode o s = .ok t →
    t.Fits (s.depth + 1)
  | .object members, t, h => by
    rw [State.decode, Decode.bind_eq_ok] at h
    obtain ⟨inner, -, h⟩ := h
    obtain ⟨type, -, h⟩ := Decode.bind_eq_ok.1 h
    obtain ⟨r, hr, h⟩ := Decode.bind_eq_ok.1 h
    cases h
    obtain ⟨hpos, hfits⟩ := State.decodeFields_fits type (.object members) r hr
    exact State.fits_of_values (hfits.values_toState type) hpos
  | .array (.more tag rest), t, h => by
    rw [State.decode, Decode.bind_eq_ok] at h
    obtain ⟨inner, -, h⟩ := h
    obtain ⟨type, -, h⟩ := Decode.bind_eq_ok.1 h
    obtain ⟨-, -, h⟩ := Decode.bind_eq_ok.1 h
    obtain ⟨r, hr, h⟩ := Decode.bind_eq_ok.1 h
    cases h
    obtain ⟨hpos, hfits⟩ := State.decodeFields_fits type (.array rest) r hr
    refine (State.fits_of_values (hfits.values_toState type) hpos).mono ?_
    simp only [Syntax.depth, Items.depth]
    omega
  | .array .done, _, h | .array (.fault _), _, h => by
    rw [State.decode, Decode.bind_eq_ok] at h
    obtain ⟨_, -, h⟩ := h
    cases h
  | .null, _, h | .bool _, _, h | .number _, _, h | .string _, _, h | .fault _, _, h => by
    rw [State.decode] at h
    · cases h
    all_goals
      intros
      contradiction
termination_by s => (sizeOf s, 1)

theorem State.decodeFields_fits (type : StateType) (s : Syntax) (r : State.Record Graph)
    (h : State.decodeFields type s = .ok r) : 0 < s.depth ∧ r.Fits s.depth := by
  rw [State.decodeFields] at h
  refine Decode.readRecord_preserves (P := State.Record.Fits s.depth) ?_
    (State.Record.fits_initial s.depth) h
  intro inner r f v hsize r' _ hr hv hf
  by_cases hbranches : f = .branches
  · subst hbranches
    obtain ⟨gs, hgs, hf⟩ := Decode.bind_eq_ok.1 hf
    cases hf
    have hfits := Graph.decodeList_fits v gs hgs
    exact { hr with branches := fun g hg => (hfits g hg).mono (by omega) }
  by_cases hiterator : f = .iterator
  · subst hiterator
    obtain ⟨o, ho, hf⟩ := Decode.bind_eq_ok.1 hf
    cases hf
    have hfits := Graph.decodeOptional_fits v o ho
    exact { hr with iterator := fun g hg => (hfits g hg).mono (by omega) }
  · refine hr.read (f := f) hv ?_
    cases f <;> first | exact hf | exact absurd rfl hbranches | exact absurd rfl hiterator
termination_by (sizeOf s, 0)

/-- **A graph that is read** reads back and is written nested no deeper than it was read. -/
theorem Graph.decode_fits (s : Syntax) (g : Graph) (h : Graph.decode s = .ok g) :
    g.Fits (s.depth + 1) := by
  rw [Graph.decode] at h
  refine Graph.fits_of_states (Decode.readRecord_preserves
    (P := fun g : Graph => Graph.StatesFit (s.depth - 1) g.states) ?_
    (Graph.statesFit_nil _) h).2
  intro inner g f v hsize g' _ hg hv hf
  cases f with
  | comment | startAt =>
    obtain ⟨_, -, hf⟩ := Decode.bind_eq_ok.1 hf
    cases hf
    exact hg
  | states =>
    obtain ⟨states, hstates, hf⟩ := Decode.bind_eq_ok.1 hf
    cases hf
    exact (Graph.decodeStates_fits inner v states hstates).mono (by omega)
termination_by (sizeOf s, 0)

theorem Graph.decodeOptional_fits : ∀ (s : Syntax) (o : Option Graph),
    Graph.decodeOptional s = .ok o → ∀ g ∈ o, g.Fits (s.depth + 1) := by
  intro s o h g hg
  by_cases hs : s = .null
  · subst hs
    rw [Graph.decodeOptional] at h
    cases h
    cases hg
  · rw [Graph.decodeOptional, Decode.map_eq_ok] at h
    · obtain ⟨g', hg', rfl⟩ := h
      cases hg
      exact Graph.decode_fits s g hg'
    · exact hs
termination_by s => (sizeOf s, 1)

theorem Graph.decodeList_fits : ∀ (s : Syntax) (gs : List Graph),
    Graph.decodeList s = .ok gs → ∀ g ∈ gs, g.Fits s.depth
  | .array items, gs, h => by
    rw [Graph.decodeList] at h
    exact Graph.decodeItems_fits items gs h
  | .null, _, h | .bool _, _, h | .number _, _, h | .string _, _, h | .object _, _, h
  | .fault _, _, h => by
    rw [Graph.decodeList] at h
    · cases h
    · intros
      contradiction
termination_by s => (sizeOf s, 0)

theorem Graph.decodeItems_fits : ∀ (items : Items) (gs : List Graph),
    Graph.decodeItems items = .ok gs → ∀ g ∈ gs, g.Fits (items.depth + 1)
  | .done, gs, h => by
    rw [Graph.decodeItems] at h
    cases h
    exact fun g hg => absurd hg List.not_mem_nil
  | .fault _, gs, h => by
    rw [Graph.decodeItems] at h
    cases h
  | .more item rest, gs, h => by
    rw [Graph.decodeItems, Decode.bind_eq_ok] at h
    obtain ⟨g, hg, h⟩ := h
    obtain ⟨gs', hgs, h⟩ := Decode.bind_eq_ok.1 h
    cases h
    intro g' hg'
    rcases List.mem_cons.1 hg' with rfl | hg'
    · exact (Graph.decode_fits item g' hg).mono (by rw [Items.depth]; omega)
    · exact (Graph.decodeItems_fits rest gs' hgs g' hg').mono (by rw [Items.depth]; omega)
termination_by items => (sizeOf items, 0)

/-- Named states that are read are nested less deep than their object. -/
theorem Graph.decodeStates_fits (o : Origin) : ∀ (s : Syntax) (states : List (String × State)),
    Graph.decodeStates o s = .ok states → Graph.StatesFit s.depth states
  | .object members, states, h => by
    rw [Graph.decodeStates, Decode.bind_eq_ok] at h
    obtain ⟨inner, -, h⟩ := h
    exact Graph.decodeMembers_fits inner members [] states (Graph.statesFit_nil _)
      (Nat.lt_succ_self _) h
  | .null, _, h | .bool _, _, h | .number _, _, h | .string _, _, h | .array _, _, h
  | .fault _, _, h => by
    rw [Graph.decodeStates] at h
    · cases h
    · intros
      contradiction
termination_by s => (sizeOf s, 0)

theorem Graph.decodeMembers_fits {n : Nat} (o : Origin) : ∀ (members : Members)
    (before states : List (String × State)), Graph.StatesFit n before → members.depth < n →
      Graph.decodeMembers o before members = .ok states → Graph.StatesFit n states
  | .done, before, states, hbefore, _, h => by
    rw [Graph.decodeMembers] at h
    cases h
    exact hbefore
  | .fault _, before, states, _, _, h => by
    rw [Graph.decodeMembers] at h
    cases h
  | .more key value rest, before, states, hbefore, hn, h => by
    rw [Members.depth, Nat.max_lt] at hn
    rw [Graph.decodeMembers, Decode.bind_eq_ok] at h
    obtain ⟨name, -, h⟩ := h
    obtain ⟨s, hs, h⟩ := Decode.bind_eq_ok.1 h
    have hfits := (State.decode_fits o value s hs).mono hn.1
    exact Graph.decodeMembers_fits o rest _ states (hbefore.insertState hfits name) hn.2 h
termination_by members => (sizeOf members, 0)

end

end StatesLang
