import StatesLang.Builtin.Standard
import StatesLang.Proofs.Comparison.Equality
import StatesLang.Proofs.Evaluation.Values

/-!
# The first items of each value

Equality by value is not transitive, so that it matters which items the others are compared with.
An item is kept if it has not the value of one that was kept before.

* `Json.FirstOfEach`: what the kept items of an array are, and where they stand in it.
* `Json.firstOfEach_distinct`: the distinct items of an array are such items.
* `Json.distinct_eq_self`: of items that differ from each other all are kept.
* **`Builtin.unique_keeps_first`**: the function that keeps them, once and again.
-/

namespace StatesLang

namespace Json

variable {items : List Json} {x : Json}

theorem distinct_append_singleton (items : List Json) (x : Json) :
    distinct (items ++ [x]) =
      if (distinct items).any (sameValue · x) then distinct items else distinct items ++ [x] := by
  rw [distinct, List.foldl_append]
  rfl

theorem distinct_sublist (items : List Json) : (distinct items).Sublist items := by
  induction items using List.reverseRecOn with
  | nil => exact .slnil
  | append_singleton items x ih =>
    rw [distinct_append_singleton]
    split
    · exact ih.trans (List.sublist_append_left items [x])
    · exact ih.append_right [x]

/-- **Of items that differ from each other all are kept.** -/
theorem distinct_eq_self (h : items.Pairwise fun a b => ¬ Same a b) : distinct items = items := by
  induction items using List.reverseRecOn with
  | nil => rfl
  | append_singleton items x ih =>
    obtain ⟨hitems, -, hx⟩ := List.pairwise_append.1 h
    rw [distinct_append_singleton, ih hitems, if_neg]
    rw [List.any_eq_true]
    rintro ⟨a, ha, hax⟩
    exact hx a ha x (List.mem_singleton_self x) hax

/-- The items kept of an array, which stand at some positions in it. -/
structure FirstOfEach (items kept : List Json) (positions : List Nat) : Prop where
  /-- They are kept in the order of the array. -/
  increasing : positions.Pairwise (· < ·)
  standing : positions.map (items[·]?) = kept.map some
  /-- No two of them have the same value, whichever of them is compared with the other. -/
  apart : kept.Pairwise fun a b => ¬ Same a b ∧ ¬ Same b a
  /-- Every item has the value of one of them that does not stand behind it. -/
  covering : ∀ i x, items[i]? = some x →
    ∃ p ∈ positions, p ≤ i ∧ ∃ y, items[p]? = some y ∧ Same x y ∧ Same y x

namespace FirstOfEach

variable {kept : List Json} {positions : List Nat}

theorem mem_kept (h : FirstOfEach items kept positions) {y : Json} :
    y ∈ kept ↔ ∃ p ∈ positions, items[p]? = some y := by
  have hmem : y ∈ kept ↔ some y ∈ kept.map some := by simp
  rw [hmem, ← h.standing, List.mem_map]

theorem lt_length (h : FirstOfEach items kept positions) {p : Nat} (hp : p ∈ positions) :
    p < items.length := by
  have hmem : items[p]? ∈ kept.map some := h.standing ▸ List.mem_map_of_mem hp
  obtain ⟨y, -, hy⟩ := List.mem_map.1 hmem
  exact (List.getElem?_eq_some_iff.1 hy.symm).1

theorem keysDistinct (h : FirstOfEach items kept positions)
    (hitems : ∀ item ∈ items, item.KeysDistinct) {y : Json} (hy : y ∈ kept) : y.KeysDistinct := by
  obtain ⟨p, -, hp⟩ := h.mem_kept.1 hy
  exact hitems y (List.mem_of_getElem? hp)

theorem standing_append (h : FirstOfEach items kept positions) (x : Json) :
    positions.map ((items ++ [x])[·]?) = kept.map some := by
  rw [← h.standing]
  exact List.map_congr_left fun p hp => List.getElem?_append_left (h.lt_length hp)

theorem covering_append (h : FirstOfEach items kept positions) {positions' : List Nat}
    (hsub : positions ⊆ positions')
    (hx : ∃ p ∈ positions', p ≤ items.length ∧
      ∃ y, (items ++ [x])[p]? = some y ∧ Same x y ∧ Same y x) :
    ∀ i a, (items ++ [x])[i]? = some a →
      ∃ p ∈ positions', p ≤ i ∧ ∃ y, (items ++ [x])[p]? = some y ∧ Same a y ∧ Same y a := by
  intro i a ha
  rcases Nat.lt_or_ge i items.length with hi | hi
  · rw [List.getElem?_append_left hi] at ha
    obtain ⟨p, hp, hle, y, hy, hsame⟩ := h.covering i a ha
    refine ⟨p, hsub hp, hle, y, ?_, hsame⟩
    rw [List.getElem?_append_left (h.lt_length hp), hy]
  · obtain ⟨hlt, hget⟩ := List.getElem?_eq_some_iff.1 ha
    rw [List.length_append, List.length_singleton] at hlt
    obtain rfl : i = items.length := by omega
    rw [List.getElem?_concat_length] at ha
    cases ha
    exact hx

theorem leave (h : FirstOfEach items kept positions) {y : Json} (hy : y ∈ kept) (hsame : Same x y)
    (hsame' : Same y x) : FirstOfEach (items ++ [x]) kept positions where
  increasing := h.increasing
  standing := h.standing_append x
  apart := h.apart
  covering := by
    obtain ⟨p, hp, hitem⟩ := h.mem_kept.1 hy
    have hlt := h.lt_length hp
    refine h.covering_append (List.Subset.refl _) ⟨p, hp, Nat.le_of_lt hlt, y, ?_, hsame, hsame'⟩
    rw [List.getElem?_append_left hlt, hitem]

theorem keep (h : FirstOfEach items kept positions)
    (hnew : ∀ y ∈ kept, ¬ Same y x ∧ ¬ Same x y) (hx : Same x x) :
    FirstOfEach (items ++ [x]) (kept ++ [x]) (positions ++ [items.length]) where
  increasing := by
    refine List.pairwise_append.2 ⟨h.increasing, List.pairwise_singleton _ _, fun p hp q hq => ?_⟩
    rw [List.mem_singleton.1 hq]
    exact h.lt_length hp
  standing := by
    rw [List.map_append, List.map_append, h.standing_append x, List.map_singleton,
      List.getElem?_concat_length, List.map_singleton]
  apart := by
    refine List.pairwise_append.2 ⟨h.apart, List.pairwise_singleton _ _, fun y hy z hz => ?_⟩
    rw [List.mem_singleton.1 hz]
    exact hnew y hy
  covering := by
    refine h.covering_append (List.subset_append_left _ _) ⟨items.length, ?_, Nat.le_refl _, x, ?_,
      hx, hx⟩
    · exact List.mem_append_right _ (List.mem_singleton_self _)
    · exact List.getElem?_concat_length

end FirstOfEach

/-- **The distinct items of an array are the first of each value.** -/
theorem firstOfEach_distinct (h : ∀ item ∈ items, item.KeysDistinct) :
    ∃ positions, FirstOfEach items (distinct items) positions := by
  induction items using List.reverseRecOn with
  | nil => exact ⟨[], .nil, rfl, .nil, nofun⟩
  | append_singleton items x ih =>
    obtain ⟨hitems, hx⟩ := List.forall_mem_append.1 h
    replace hx := hx x (List.mem_singleton_self x)
    obtain ⟨positions, hkept⟩ := ih hitems
    rw [distinct_append_singleton]
    split
    · next hany =>
      obtain ⟨y, hy, hyx⟩ := List.any_eq_true.1 hany
      have hxy : Same x y := Same.symm (hkept.keysDistinct hitems hy) hx hyx
      exact ⟨positions, hkept.leave hy hxy hyx⟩
    · next hany =>
      have hnew : ∀ y ∈ distinct items, ¬ Same y x := fun y hy hyx =>
        hany (List.any_eq_true.2 ⟨y, hy, hyx⟩)
      -- the code compares in one direction, and symmetry gives the other
      refine ⟨_, hkept.keep (fun y hy => ⟨hnew y hy, fun hxy => hnew y hy ?_⟩) (same_refl x hx)⟩
      exact Same.symm hx (hkept.keysDistinct hitems hy) hxy

end Json

namespace Builtin

open Json (FirstOfEach)

theorem unique_of_values {c : Call} {s : Handler.Scope} {items : List Json}
    (h : s.resolveAll c = .ok [.array items]) :
    unique c s = .ok (.array (Json.distinct items)) := by
  rw [unique, unary_of_values h]
  rfl

theorem call_unique {limits : Settings.Calls} {entropy : UInt64} {c : Call} {sources : Path.Sources}
    {items : List Json} (hname : c.name = "States.ArrayUnique")
    (hvalues : ((Registry.standard limits).scope sources entropy c).resolveAll c =
      .ok [.array items]) :
    (Registry.standard limits).call entropy c sources = .ok (.array (Json.distinct items)) := by
  have hfind : (Registry.standard limits).find? c.name = some unique := by
    rw [hname]
    rfl
  exact (Registry.call_of_find hfind).trans (unique_of_values hvalues)

/-- **The first item of each value is kept**, in the order of the array: no two that are kept have
the same value, in either direction, and every item has the value of one that is kept and does not
stand behind it. Applied to the items that it kept, the function keeps them all. -/
theorem unique_keeps_first {limits : Settings.Calls} {entropy : UInt64} {c : Call}
    {sources : Path.Sources} {items : List Json} (hname : c.name = "States.ArrayUnique")
    (hvalues : ((Registry.standard limits).scope sources entropy c).resolveAll c =
      .ok [.array items])
    (hkeys : (Json.array items).KeysDistinct) :
    ∃ kept positions,
      (Registry.standard limits).call entropy c sources = .ok (.array kept) ∧
      kept.Sublist items ∧ FirstOfEach items kept positions ∧
      ∀ (limits : Settings.Calls) entropy (c : Call) sources, c.name = "States.ArrayUnique" →
        ((Registry.standard limits).scope sources entropy c).resolveAll c = .ok [.array kept] →
        (Registry.standard limits).call entropy c sources = .ok (.array kept) := by
  obtain ⟨positions, hfirst⟩ := Json.firstOfEach_distinct (Json.keysDistinctItems_iff.1 hkeys)
  have hagain : Json.distinct (Json.distinct items) = Json.distinct items :=
    Json.distinct_eq_self (hfirst.apart.imp And.left)
  refine ⟨Json.distinct items, positions, call_unique hname hvalues,
    Json.distinct_sublist items, hfirst, ?_⟩
  intro limits entropy c sources hname hvalues
  rw [call_unique hname hvalues, hagain]

/-- An integer, a double next to it, and the integer that the double is. -/
def neighbours : List Json :=
  [.number (.ofInt 9007199254740993), .number (.real (.ofInt 9007199254740992)),
    .number (.ofInt 9007199254740992)]

/-- The items of the input without those whose value came before. -/
def uniqueInput : Call :=
  ⟨"States.ArrayUnique", [.path "$"]⟩

/-- The double goes with the first integer, from which the other one differs. -/
theorem neighbours_keep_first :
    ((Registry.standard {}).scope ⟨.array neighbours, .null⟩ 0 uniqueInput).resolveAll uniqueInput =
      .ok [.array neighbours] ∧
    (Json.array neighbours).KeysDistinct ∧
    ∃ positions, FirstOfEach neighbours
        [.number (.ofInt 9007199254740993), .number (.ofInt 9007199254740992)] positions ∧
      (Registry.standard {}).call 0 uniqueInput ⟨.array neighbours, .null⟩ =
        .ok (.array [.number (.ofInt 9007199254740993), .number (.ofInt 9007199254740992)]) := by
  have hvalues : ((Registry.standard {}).scope ⟨.array neighbours, .null⟩ 0
      uniqueInput).resolveAll uniqueInput = .ok [.array neighbours] := by decide +kernel
  have hkeys : (Json.array neighbours).KeysDistinct := ⟨trivial, trivial, trivial, trivial⟩
  obtain ⟨kept, positions, hcall, -, hfirst, -⟩ := unique_keeps_first rfl hvalues hkeys
  have hresult : (Registry.standard {}).call 0 uniqueInput ⟨.array neighbours, .null⟩ =
      .ok (.array [.number (.ofInt 9007199254740993), .number (.ofInt 9007199254740992)]) := by
    decide +kernel
  cases hcall.symm.trans hresult
  exact ⟨hvalues, hkeys, positions, hfirst, hresult⟩

end Builtin

end StatesLang
