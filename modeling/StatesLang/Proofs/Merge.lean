import StatesLang.Proofs.Comparison.Equality
import StatesLang.Proofs.Evaluation.Values

/-!
# Merging objects

An object in which no key comes twice is known by the order of its keys and by the values under
them. So merging is described by both, and its laws follow from this.

* `Json.eq_of_lookup`: objects with the same keys in the same order and the same values.
* `Json.map_fst_merge`, `Json.lookup_merge_of_none`, `Json.lookup_merge_of_some`: the keys of what
  two objects are merged into, and the values under them.
* `Json.Merged`, `Json.merged_iff`: the law that objects are merged by, at every level.
* `Json.merge_merge_self`, `Json.merge_assoc`: merging once more, and merging three objects.
* **`Builtin.jsonMerge_lawful`**: calls that merge objects keep to all of this.
-/

namespace StatesLang

namespace Json

variable {deep : Bool} {l r t m ms ms' : List (String × Json)} {key : String} {value : Json}

/-! ## Members -/

theorem lookup_insert (key key' : String) (value : Json) (ms : List (String × Json)) :
    lookup key (insert key' value ms) = if key' = key then some value else lookup key ms := by
  induction ms with
  | nil => rfl
  | cons m rest ih =>
    obtain ⟨k, v⟩ := m
    by_cases hk : k = key'
    · subst hk
      rw [insert, if_pos rfl, lookup, lookup]
      split <;> rfl
    · rw [insert, if_neg hk, lookup, lookup, ih]
      by_cases hkey : k = key
      · rw [if_pos hkey, if_pos hkey, if_neg fun h => hk (hkey.trans h.symm)]
      · rw [if_neg hkey, if_neg hkey]

theorem insert_of_lookup_eq_some (h : lookup key ms = some value) : insert key value ms = ms := by
  induction ms with
  | nil => cases h
  | cons m rest ih =>
    obtain ⟨k, v⟩ := m
    rw [lookup] at h
    by_cases hk : k = key
    · rw [if_pos hk] at h
      cases h
      rw [insert, if_pos hk]
    · rw [if_neg hk] at h
      rw [insert, if_neg hk, ih h]

theorem eq_of_lookup (hd : (ms.map Prod.fst).Nodup) (hkeys : ms.map Prod.fst = ms'.map Prod.fst)
    (hvalues : ∀ key, lookup key ms = lookup key ms') : ms = ms' := by
  induction ms generalizing ms' with
  | nil => exact (List.map_eq_nil_iff.1 hkeys.symm).symm
  | cons m rest ih =>
    obtain ⟨⟨k, v'⟩, rest', rfl, rfl, hrest⟩ := List.map_eq_cons_iff.1 hkeys.symm
    obtain ⟨k, v⟩ := m
    obtain ⟨hnew, hdrest⟩ := List.nodup_cons.1 hd
    have hvalue := hvalues k
    rw [lookup, lookup, if_pos rfl, if_pos rfl] at hvalue
    cases hvalue
    refine congrArg _ (ih hdrest hrest.symm fun key => ?_)
    by_cases hkey : k = key
    · have hnew' : key ∉ rest'.map Prod.fst := by
        rw [hrest, ← hkey]
        exact hnew
      rw [lookup_eq_none.2 hnew', lookup_eq_none.2 (hkey ▸ hnew)]
    · have h := hvalues key
      rwa [lookup, lookup, if_neg hkey, if_neg hkey] at h

/-! ## Values -/

/-- There is a value already, and both it and the one that comes in are objects. -/
def BothObjects (old : Option Json) (new : Json) : Prop :=
  (∃ a, old = some (.object a)) ∧ ∃ b, new = .object b

theorem mergeValue_of_not {old : Option Json} (h : ¬ (deep = true ∧ BothObjects old value)) :
    mergeValue deep old value = value := by
  cases value with
  | object b =>
    unfold mergeValue
    split
    · next a => exact absurd ⟨rfl, ⟨a, rfl⟩, b, rfl⟩ h
    · rfl
  | null | bool | number | string | array => rw [mergeValue]; nofun

theorem mergeValue_none (deep : Bool) (value : Json) : mergeValue deep none value = value :=
  mergeValue_of_not fun h => by
    obtain ⟨-, ⟨a, ha⟩, -⟩ := h
    cases ha

theorem mergeValue_false (old : Option Json) (value : Json) : mergeValue false old value = value :=
  mergeValue_of_not fun h => by cases h.1

theorem mergeValue_objects (a b : List (String × Json)) :
    mergeValue true (some (.object a)) (.object b) = .object (merge true a b) := by
  rw [mergeValue]

/-! ## Keys and values of what is merged -/

theorem lookup_merge_of_none (h : lookup key r = none) :
    lookup key (merge deep l r) = lookup key l := by
  induction r generalizing l with
  | nil => rw [merge]
  | cons m rest ih =>
    obtain ⟨k, v⟩ := m
    rw [lookup_eq_none, List.map_cons, List.mem_cons, not_or] at h
    rw [merge, ih (lookup_eq_none.2 h.2), lookup_insert, if_neg fun he => h.1 he.symm]

theorem lookup_merge_of_some (hd : (r.map Prod.fst).Nodup) (h : lookup key r = some value) :
    lookup key (merge deep l r) = some (mergeValue deep (lookup key l) value) := by
  induction r generalizing l with
  | nil => cases h
  | cons m rest ih =>
    obtain ⟨k, v⟩ := m
    obtain ⟨hnew, hd⟩ := List.nodup_cons.1 hd
    rw [lookup] at h
    by_cases hk : k = key
    · rw [if_pos hk] at h
      cases h
      subst hk
      rw [merge, lookup_merge_of_none (lookup_eq_none.2 hnew), lookup_insert, if_pos rfl]
    · rw [if_neg hk] at h
      rw [merge, ih hd h, lookup_insert, if_neg hk]

theorem lookup_merge_false (hd : (r.map Prod.fst).Nodup) :
    lookup key (merge false l r) = (lookup key r).or (lookup key l) := by
  cases hv : lookup key r with
  | none => rw [lookup_merge_of_none hv, Option.none_or]
  | some v => rw [lookup_merge_of_some hd hv, mergeValue_false, Option.some_or]

/-- The keys of the left object come first, in their order, and then the new ones of the right. -/
theorem map_fst_merge (hd : (r.map Prod.fst).Nodup) :
    (merge deep l r).map Prod.fst =
      l.map Prod.fst ++ (r.map Prod.fst).filter (· ∉ l.map Prod.fst) := by
  induction r generalizing l with
  | nil => rw [merge, List.map_nil, List.filter_nil, List.append_nil]
  | cons m rest ih =>
    obtain ⟨k, v⟩ := m
    obtain ⟨hnew, hd⟩ := List.nodup_cons.1 hd
    rw [merge, ih hd, map_fst_insert, List.map_cons, List.filter_cons]
    by_cases hk : k ∈ l.map Prod.fst
    · rw [if_pos hk, if_neg (by simpa using hk)]
    · rw [if_neg hk, if_pos (by simpa using hk), List.append_assoc, List.singleton_append]
      -- the key just added is none of those that are still to come
      have hrest : (rest.map Prod.fst).filter (· ∉ l.map Prod.fst ++ [k]) =
          (rest.map Prod.fst).filter (· ∉ l.map Prod.fst) := by
        refine List.filter_congr fun key hkey => ?_
        have hne : key ≠ k := fun he => hnew (he ▸ hkey)
        simp [hne]
      rw [hrest]

theorem nodup_merge (hl : (l.map Prod.fst).Nodup) (hr : (r.map Prod.fst).Nodup) :
    ((merge deep l r).map Prod.fst).Nodup := by
  rw [map_fst_merge hr]
  refine hl.append (hr.filter _) fun key hkey hkey' => ?_
  simpa [hkey] using (List.mem_filter.1 hkey').2

/-! ## The law of merging -/

/-- What two objects are merged into, member by member. The keys are those of the left object, and
then the new ones of the right. A member that the right object has is its, and any other is the left
one's, except that in deep mode two objects under one key are merged in turn; by this same law,
and `inner` tells into what. -/
inductive Merged (deep : Bool) :
    List (String × Json) → List (String × Json) → List (String × Json) → Prop
  | mk {l r m : List (String × Json)} (inner : String → List (String × Json))
    (keys : m.map Prod.fst = l.map Prod.fst ++ (r.map Prod.fst).filter (· ∉ l.map Prod.fst))
    (kept : ∀ key, lookup key r = none → lookup key m = lookup key l)
    (taken : ∀ key v, lookup key r = some v → ¬ (deep = true ∧ BothObjects (lookup key l) v) →
      lookup key m = some v)
    (joined : ∀ key a b, deep = true → lookup key l = some (.object a) →
      lookup key r = some (.object b) → lookup key m = some (.object (inner key)))
    (law : ∀ key a b, deep = true → lookup key l = some (.object a) →
      lookup key r = some (.object b) → Merged deep a b (inner key)) :
    Merged deep l r m

/-- What is merged in deep mode under a key. -/
def innerMerge (l r : List (String × Json)) (key : String) : List (String × Json) :=
  match lookup key l, lookup key r with
  | some (.object a), some (.object b) => merge true a b
  | _, _ => []

theorem innerMerge_objects {a b : List (String × Json)} (ha : lookup key l = some (.object a))
    (hb : lookup key r = some (.object b)) : innerMerge l r key = merge true a b := by
  rw [innerMerge, ha, hb]

theorem merged_merge (hr : (object r).KeysDistinct) : Merged deep l r (merge deep l r) := by
  induction h : object r using child_induction generalizing l r with
  | step a ih =>
    subst h
    refine .mk (innerMerge l r) (map_fst_merge hr.nodup) (fun key h => lookup_merge_of_none h)
      (fun key v hv hnot => ?_) (fun key a b hdeep ha hb => ?_) fun key a b hdeep ha hb => ?_
    · rw [lookup_merge_of_some hr.nodup hv, mergeValue_of_not hnot]
    · rw [lookup_merge_of_some hr.nodup hb, ha, hdeep, mergeValue_objects,
        innerMerge_objects ha hb]
    · subst hdeep
      rw [innerMerge_objects ha hb]
      exact ih (.member key) _ hb (hr.member hb) rfl

theorem Merged.eq (h : Merged deep l r m) (hl : (object l).KeysDistinct)
    (hr : (object r).KeysDistinct) : m = merge deep l r := by
  induction h with
  | @mk l r m inner keys kept taken joined law ih =>
    have hkeys : m.map Prod.fst = (merge deep l r).map Prod.fst :=
      keys.trans (map_fst_merge hr.nodup).symm
    refine eq_of_lookup (hkeys ▸ nodup_merge hl.nodup hr.nodup) hkeys fun key => ?_
    cases hv : lookup key r with
    | none => rw [kept key hv, lookup_merge_of_none hv]
    | some v =>
      rw [lookup_merge_of_some hr.nodup hv]
      by_cases hboth : deep = true ∧ BothObjects (lookup key l) v
      · obtain ⟨rfl, ⟨a, ha⟩, b, rfl⟩ := hboth
        rw [joined key a b rfl ha hv, ih key a b rfl ha hv (hl.member ha) (hr.member hv), ha,
          mergeValue_objects]
      · rw [taken key v hv hboth, mergeValue_of_not hboth]

/-- Merging keeps to the law, and the law leaves nothing open. -/
theorem merged_iff (hl : (object l).KeysDistinct) (hr : (object r).KeysDistinct) :
    Merged deep l r m ↔ m = merge deep l r :=
  ⟨fun h => h.eq hl hr, fun h => h ▸ merged_merge hr⟩

/-! ## Laws -/

theorem merge_nil_right : merge deep l [] = l := by
  rw [merge]

theorem merge_nil_left (hr : (r.map Prod.fst).Nodup) : merge deep [] r = r := by
  refine eq_of_lookup (nodup_merge List.nodup_nil hr) ?_ fun key => ?_
  · rw [map_fst_merge hr]
    simp
  · cases hv : lookup key r with
    | none => rw [lookup_merge_of_none hv, lookup]
    | some v => rw [lookup_merge_of_some hr hv, lookup, mergeValue_none]

theorem merge_eq_self
    (h : ∀ key v, (key, v) ∈ r → lookup key m = some (mergeValue deep (lookup key m) v)) :
    merge deep m r = m := by
  induction r with
  | nil => exact merge_nil_right
  | cons p rest ih =>
    obtain ⟨k, v⟩ := p
    rw [merge, insert_of_lookup_eq_some (h k v List.mem_cons_self)]
    exact ih fun key v hmem => h key v (List.mem_cons_of_mem _ hmem)

theorem merge_merge_of_values (hr : (r.map Prod.fst).Nodup)
    (h : ∀ key v, lookup key r = some v → ∀ old,
      mergeValue deep (some (mergeValue deep old v)) v = mergeValue deep old v) :
    merge deep (merge deep l r) r = merge deep l r := by
  refine merge_eq_self fun key v hmem => ?_
  have hv := lookup_of_mem hr hmem
  rw [lookup_merge_of_some hr hv, h key v hv]

/-- A value that has come in already makes no difference when it comes in again. An object that
found none to be merged into is then merged into itself. -/
theorem mergeValue_mergeValue {old : Option Json} {value : Json} (h : value.KeysDistinct) :
    mergeValue deep (some (mergeValue deep old value)) value = mergeValue deep old value := by
  induction value using child_induction generalizing old with
  | step value ih =>
    by_cases hobject : deep = true ∧ ∃ r, value = .object r
    · obtain ⟨rfl, r, rfl⟩ := hobject
      -- with no object there before, the members come to an empty one
      have hold : ∃ l, mergeValue true old (.object r) = .object (merge true l r) := by
        by_cases hboth : true = true ∧ BothObjects old (.object r)
        · obtain ⟨-, ⟨l, rfl⟩, -⟩ := hboth
          exact ⟨l, mergeValue_objects l r⟩
        · exact ⟨[], by rw [mergeValue_of_not hboth, merge_nil_left h.nodup]⟩
      obtain ⟨l, hl⟩ := hold
      rw [hl, mergeValue_objects,
        merge_merge_of_values h.nodup fun key v hv _ => ih (.member key) v hv (h.member hv)]
    · rw [mergeValue_of_not fun h => hobject ⟨h.1, h.2.2⟩,
        mergeValue_of_not fun h => hobject ⟨h.1, h.2.2⟩]

theorem merge_merge_self (hr : (object r).KeysDistinct) :
    merge deep (merge deep l r) r = merge deep l r :=
  merge_merge_of_values hr.nodup fun _ _ hv _ => mergeValue_mergeValue (hr.member hv)

theorem merge_assoc (hl : (l.map Prod.fst).Nodup) (hr : (r.map Prod.fst).Nodup)
    (ht : (t.map Prod.fst).Nodup) :
    merge false (merge false l r) t = merge false l (merge false r t) := by
  refine eq_of_lookup (nodup_merge (nodup_merge hl hr) ht) ?_ fun key => ?_
  · rw [map_fst_merge ht, map_fst_merge hr, map_fst_merge (nodup_merge hr ht), map_fst_merge ht,
      List.filter_append, List.filter_filter, List.append_assoc]
    congr 2
    refine List.filter_congr fun key _ => ?_
    by_cases hkey : key ∈ l.map Prod.fst <;> simp [hkey]
  · rw [lookup_merge_false ht, lookup_merge_false hr, lookup_merge_false (nodup_merge hr ht),
      lookup_merge_false ht, Option.or_assoc]

end Json

namespace Builtin

open Json (Merged merge)

variable {l r : List (String × Json)} {deep : Bool} {c : Call}

theorem jsonMerge_of_values {s : Handler.Scope}
    (h : s.resolveAll c = .ok [.object l, .object r, .bool deep]) :
    jsonMerge c s = .ok (.object (merge deep l r)) := by
  rw [jsonMerge, ternary_of_values h]
  rfl

/-- **Merging is lawful.** A call that merges two objects gives what the law of merging says, and
nothing else keeps to that law. So an empty object on either side changes nothing, merging in the
right object once more changes nothing, and shallow merging is associative. -/
theorem jsonMerge_lawful {limits : Settings.Calls} {entropy : UInt64} {sources : Path.Sources}
    (hname : c.name = "States.JsonMerge")
    (hvalues : ((Registry.standard limits).scope sources entropy c).resolveAll c =
      .ok [.object l, .object r, .bool deep])
    (hl : (Json.object l).KeysDistinct) (hr : (Json.object r).KeysDistinct) :
    (Registry.standard limits).call entropy c sources = .ok (.object (merge deep l r)) ∧
    (∀ m, Merged deep l r m ↔ m = merge deep l r) ∧
    merge deep l [] = l ∧ merge deep [] r = r ∧
    merge deep (merge deep l r) r = merge deep l r ∧
    ∀ t, (Json.object t).KeysDistinct →
      merge false (merge false l r) t = merge false l (merge false r t) := by
  have hfind : (Registry.standard limits).find? c.name = some jsonMerge := by
    rw [hname]
    rfl
  exact ⟨(Registry.call_of_find hfind).trans (jsonMerge_of_values hvalues),
    fun m => Json.merged_iff hl hr, Json.merge_nil_right, Json.merge_nil_left hr.nodup,
    Json.merge_merge_self hr, fun t ht => Json.merge_assoc hl.nodup hr.nodup ht.nodup⟩

/-- Changed settings put over the ones there are, at every level. -/
def overlay : Call :=
  ⟨"States.JsonMerge", [.path "$.set", .path "$$.changed", .boolean true]⟩

/-- The settings there are. -/
def settings : List (String × Json) :=
  [("retry", .object [("most", .string "3"), ("pause", .string "1s")]), ("name", .string "a")]

/-- The settings that have changed. -/
def changed : List (String × Json) :=
  [("name", .object []), ("queue", .null), ("retry", .object [("jitter", .null), ("most", .null)])]

/-- The settings and their changes as documents. -/
def configuration : Path.Sources :=
  ⟨.object [("set", .object settings)], .object [("changed", .object changed)]⟩

theorem overlay_lawful :
    ((Registry.standard {}).scope configuration 0 overlay).resolveAll overlay =
      .ok [.object settings, .object changed, .bool true] ∧
    (Registry.standard {}).call 0 overlay configuration =
      .ok (.object [
        ("retry", .object [("most", .null), ("pause", .string "1s"), ("jitter", .null)]),
        ("name", .object []), ("queue", .null)]) := by
  have hvalues : ((Registry.standard {}).scope configuration 0 overlay).resolveAll overlay =
      .ok [.object settings, .object changed, .bool true] := by decide +kernel
  obtain ⟨hcall, -⟩ := jsonMerge_lawful rfl hvalues
    (by simp [settings, Json.KeysDistinct, Json.KeysDistinctMembers])
    (by simp [changed, Json.KeysDistinct, Json.KeysDistinctMembers])
  exact ⟨hvalues, hcall.trans (by decide +kernel)⟩

end Builtin

end StatesLang
