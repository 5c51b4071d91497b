import Mathlib.Data.List.Nodup
import StatesLang.Json.Syntax

/-!
# Documents and their outlines

* `Json.depth`, `Json.Syntax.depth`: how deep arrays and objects are nested.
* `Json.KeysDistinct`: in no object of a document a key comes twice.
* **`Json.toJson_ofJson`**: such a document is that of its outline.
* `Json.keysDistinct_toJson`, `Json.depth_toJson_le`: the document of an outline.
* **`Json.check_ofJson`**: the limit of nesting is the only fault of an outline of a document.
-/

namespace StatesLang.Json

/-! ## Members -/

theorem lookup_append {key : String} {ms ms' : List (String × Json)} :
    lookup key (ms ++ ms') = (lookup key ms).or (lookup key ms') := by
  induction ms with
  | nil => rfl
  | cons m rest ih =>
    obtain ⟨k, v⟩ := m
    by_cases hk : k = key
    · simp [lookup, hk]
    · simp [lookup, hk, ih]

theorem lookup_eq_none {key : String} {ms : List (String × Json)} :
    lookup key ms = none ↔ key ∉ ms.map Prod.fst := by
  induction ms with
  | nil => simp [lookup]
  | cons m rest ih =>
    obtain ⟨k, v⟩ := m
    by_cases hk : k = key
    · simp [lookup, hk]
    · rw [lookup, if_neg hk, ih, List.map_cons, List.mem_cons, not_or]
      exact ⟨fun h => ⟨fun he => hk he.symm, h⟩, fun h => h.2⟩

theorem insert_of_lookup {key : String} {value : Json} {ms : List (String × Json)}
    (h : lookup key ms = none) : insert key value ms = ms ++ [(key, value)] := by
  induction ms with
  | nil => rfl
  | cons m rest ih =>
    obtain ⟨k, v⟩ := m
    by_cases hk : k = key
    · simp [lookup, hk] at h
    · rw [lookup, if_neg hk] at h
      rw [insert, if_neg hk, ih h, List.cons_append]

theorem map_fst_insert (key : String) (value : Json) (ms : List (String × Json)) :
    (insert key value ms).map Prod.fst =
      if key ∈ ms.map Prod.fst then ms.map Prod.fst else ms.map Prod.fst ++ [key] := by
  induction ms with
  | nil => rfl
  | cons m rest ih =>
    obtain ⟨k, v⟩ := m
    by_cases hk : k = key
    · simp [insert, hk]
    · have hk' : key ≠ k := fun h => hk h.symm
      rw [insert, if_neg hk, List.map_cons, ih]
      by_cases hmem : key ∈ rest.map Prod.fst
      · simp [hmem]
      · simp [hmem, hk']

theorem mem_insert {key : String} {value : Json} {ms : List (String × Json)}
    {m : String × Json} (h : m ∈ insert key value ms) : m = (key, value) ∨ m ∈ ms := by
  induction ms with
  | nil => exact Or.inl (List.mem_singleton.1 h)
  | cons m' rest ih =>
    obtain ⟨k, v⟩ := m'
    by_cases hk : k = key
    · rw [insert, if_pos hk] at h
      rcases List.mem_cons.1 h with h | h
      · exact Or.inl (by rw [h, hk])
      · exact Or.inr (List.mem_cons_of_mem _ h)
    · rw [insert, if_neg hk] at h
      rcases List.mem_cons.1 h with h | h
      · exact Or.inr (by simp [h])
      · exact (ih h).imp_right (List.mem_cons_of_mem _)

/-! ## Depth -/

mutual

/-- How deep the arrays and objects of a document are nested. -/
def depth : Json → Nat
  | .null | .bool _ | .number _ | .string _ => 0
  | .array items => depthOfItems items + 1
  | .object members => depthOfMembers members + 1

/-- The depth of the deepest item. -/
def depthOfItems : List Json → Nat
  | [] => 0
  | item :: rest => max (depth item) (depthOfItems rest)

/-- The depth of the deepest member. -/
def depthOfMembers : List (String × Json) → Nat
  | [] => 0
  | (_, value) :: rest => max (depth value) (depthOfMembers rest)

end

mutual

/-- How deep the arrays and objects of an outline are nested. -/
def Syntax.depth : Syntax → Nat
  | .null | .bool _ | .number _ | .string _ | .fault _ => 0
  | .array items => items.depth + 1
  | .object members => members.depth + 1

/-- The depth of the deepest item. -/
def Items.depth : Items → Nat
  | .done | .fault _ => 0
  | .more item rest => max item.depth rest.depth

/-- The depth of the deepest member. -/
def Members.depth : Members → Nat
  | .done | .fault _ => 0
  | .more _ value rest => max value.depth rest.depth

end

theorem depthOfItems_le {items : List Json} {n : Nat} :
    depthOfItems items ≤ n ↔ ∀ item ∈ items, item.depth ≤ n := by
  induction items with
  | nil => simp [depthOfItems]
  | cons item rest ih => rw [depthOfItems, Nat.max_le, ih, List.forall_mem_cons]

theorem depthOfMembers_le {members : List (String × Json)} {n : Nat} :
    depthOfMembers members ≤ n ↔ ∀ m ∈ members, m.2.depth ≤ n := by
  induction members with
  | nil => simp [depthOfMembers]
  | cons m rest ih => rw [depthOfMembers, Nat.max_le, ih, List.forall_mem_cons]

mutual

theorem depth_ofJson : ∀ j : Json, (Syntax.ofJson j).depth = j.depth
  | .null | .bool _ | .number _ | .string _ => rfl
  | .array items => by rw [Syntax.ofJson, Syntax.depth, depth, depth_ofList items]
  | .object members => by rw [Syntax.ofJson, Syntax.depth, depth, depth_ofMembers members]

theorem depth_ofList : ∀ items : List Json, (Items.ofList items).depth = depthOfItems items
  | [] => rfl
  | item :: rest => by
    rw [Items.ofList, Items.depth, depthOfItems, depth_ofJson item, depth_ofList rest]

theorem depth_ofMembers :
    ∀ members : List (String × Json), (Members.ofList members).depth = depthOfMembers members
  | [] => rfl
  | (_, value) :: rest => by
    rw [Members.ofList, Members.depth, depthOfMembers, depth_ofJson value, depth_ofMembers rest]

end

/-! ## The limit of nesting -/

mutual

/-- **The limit of nesting is the only fault** of the outline of a document. -/
theorem check_ofJson {room : Nat} (hr : 0 < room) : ∀ j : Json,
    (Syntax.ofJson j).check room = if j.depth < room then .ok () else .error .recursionLimit
  | .null | .bool _ | .number _ | .string _ => (if_pos hr).symm
  | .array items => by
    rw [Syntax.ofJson, Syntax.check, depth]
    by_cases h : room ≤ 1
    · rw [if_pos h, if_neg (by omega)]
    · rw [if_neg h, check_ofList (by omega) items]
      exact if_congr (by omega) rfl rfl
  | .object members => by
    rw [Syntax.ofJson, Syntax.check, depth]
    by_cases h : room ≤ 1
    · rw [if_pos h, if_neg (by omega)]
    · rw [if_neg h, check_ofMembers (by omega) members]
      exact if_congr (by omega) rfl rfl

theorem check_ofList {room : Nat} (hr : 0 < room) : ∀ items : List Json,
    (Items.ofList items).check room =
      if depthOfItems items < room then .ok () else .error .recursionLimit
  | [] => (if_pos hr).symm
  | item :: rest => by
    rw [Items.ofList, Items.check, depthOfItems, check_ofJson hr item, check_ofList hr rest]
    by_cases h : item.depth < room
    · rw [if_pos h]
      exact if_congr (by omega) rfl rfl
    · have hmax : ¬ max item.depth (depthOfItems rest) < room := by omega
      rw [if_neg h, if_neg hmax]
      rfl

theorem check_ofMembers {room : Nat} (hr : 0 < room) : ∀ members : List (String × Json),
    (Members.ofList members).check room =
      if depthOfMembers members < room then .ok () else .error .recursionLimit
  | [] => (if_pos hr).symm
  | (_, value) :: rest => by
    rw [Members.ofList, Members.check, depthOfMembers, check_ofJson hr value,
      check_ofMembers hr rest]
    by_cases h : value.depth < room
    · rw [if_pos h]
      exact if_congr (by omega) rfl rfl
    · have hmax : ¬ max value.depth (depthOfMembers rest) < room := by omega
      rw [if_neg h, if_neg hmax]
      rfl

end

mutual

theorem depth_lt_of_check {room : Nat} (hr : 0 < room) : ∀ s : Syntax,
    s.check room = .ok () → s.depth < room
  | .null, _ | .bool _, _ | .number _, _ | .string _, _ | .fault _, _ => hr
  | .array items, h => by
    rw [Syntax.check] at h
    split at h
    · cases h
    · have hitems := depth_lt_of_checkItems (by omega) items h
      rw [Syntax.depth]
      omega
  | .object members, h => by
    rw [Syntax.check] at h
    split at h
    · cases h
    · have hmembers := depth_lt_of_checkMembers (by omega) members h
      rw [Syntax.depth]
      omega

theorem depth_lt_of_checkItems {room : Nat} (hr : 0 < room) : ∀ items : Items,
    items.check room = .ok () → items.depth < room
  | .done, _ | .fault _, _ => hr
  | .more item rest, h => by
    rw [Items.check] at h
    cases hi : item.check room with
    | error e =>
      rw [hi] at h
      cases h
    | ok u =>
      rw [hi] at h
      have hitem := depth_lt_of_check hr item hi
      have hrest := depth_lt_of_checkItems hr rest h
      rw [Items.depth]
      omega

theorem depth_lt_of_checkMembers {room : Nat} (hr : 0 < room) : ∀ members : Members,
    members.check room = .ok () → members.depth < room
  | .done, _ | .fault _, _ => hr
  | .more key value rest, h => by
    rw [Members.check] at h
    cases hk : key.name? with
    | error e =>
      rw [hk] at h
      cases h
    | ok name =>
      rw [hk] at h
      cases hv : value.check room with
      | error e =>
        simp only [hv, bind, Except.bind] at h
        cases h
      | ok u =>
        simp only [hv, bind, Except.bind] at h
        have hvalue := depth_lt_of_check hr value hv
        have hrest := depth_lt_of_checkMembers hr rest h
        rw [Members.depth]
        omega

end

/-! ## Distinct keys -/

mutual

/-- In no object of the document a key comes twice. -/
def KeysDistinct : Json → Prop
  | .null | .bool _ | .number _ | .string _ => True
  | .array items => KeysDistinctItems items
  | .object members => (members.map Prod.fst).Nodup ∧ KeysDistinctMembers members

/-- The same for the items of an array. -/
def KeysDistinctItems : List Json → Prop
  | [] => True
  | item :: rest => KeysDistinct item ∧ KeysDistinctItems rest

/-- The same for the values of the members of an object. -/
def KeysDistinctMembers : List (String × Json) → Prop
  | [] => True
  | (_, value) :: rest => KeysDistinct value ∧ KeysDistinctMembers rest

end

theorem keysDistinctMembers_iff {members : List (String × Json)} :
    KeysDistinctMembers members ↔ ∀ m ∈ members, KeysDistinct m.2 := by
  induction members with
  | nil => simp [KeysDistinctMembers]
  | cons m rest ih => simp [KeysDistinctMembers, ih]

mutual

/-- **A document with distinct keys is that of its outline.** -/
theorem toJson_ofJson : ∀ j : Json, j.KeysDistinct → (Syntax.ofJson j).toJson = j
  | .null, _ | .bool _, _ | .number _, _ | .string _, _ => rfl
  | .array items, h => by
    rw [KeysDistinct] at h
    rw [Syntax.ofJson, Syntax.toJson, toList_ofList items h]
  | .object members, h => by
    rw [KeysDistinct] at h
    rw [Syntax.ofJson, Syntax.toJson, toList_ofMembers members [] h.2 (by simpa using h.1),
      List.nil_append]

theorem toList_ofList : ∀ items : List Json, KeysDistinctItems items →
    (Items.ofList items).toList = items
  | [], _ => rfl
  | item :: rest, h => by
    rw [KeysDistinctItems] at h
    rw [Items.ofList, Items.toList, toJson_ofJson item h.1, toList_ofList rest h.2]

theorem toList_ofMembers : ∀ (members before : List (String × Json)),
    KeysDistinctMembers members → ((before ++ members).map Prod.fst).Nodup →
      (Members.ofList members).toList before = before ++ members
  | [], before, _, _ => by rw [Members.ofList, Members.toList, List.append_nil]
  | (key, value) :: rest, before, h, hn => by
    rw [KeysDistinctMembers] at h
    have hkey : lookup key before = none := by
      rw [lookup_eq_none]
      intro hmem
      rw [List.map_append, List.nodup_append] at hn
      exact hn.2.2 key hmem key (by simp) rfl
    have hsplit : before ++ (key, value) :: rest = (before ++ [(key, value)]) ++ rest := by simp
    rw [Members.ofList, Members.toList, toJson_ofJson value h.1, insert_of_lookup hkey, hsplit]
    exact toList_ofMembers rest _ h.2 (hsplit ▸ hn)

end

mutual

theorem keysDistinct_toJson : ∀ s : Syntax, s.toJson.KeysDistinct
  | .null | .bool _ | .number _ | .string _ | .fault _ => trivial
  | .array items => by
    rw [Syntax.toJson, KeysDistinct]
    exact keysDistinct_toList items
  | .object members => by
    rw [Syntax.toJson, KeysDistinct]
    exact keysDistinct_members members [] List.nodup_nil trivial

theorem keysDistinct_toList : ∀ items : Items, KeysDistinctItems items.toList
  | .done | .fault _ => trivial
  | .more item rest => ⟨keysDistinct_toJson item, keysDistinct_toList rest⟩

theorem keysDistinct_members : ∀ (members : Members) (before : List (String × Json)),
    (before.map Prod.fst).Nodup → KeysDistinctMembers before →
      ((members.toList before).map Prod.fst).Nodup ∧ KeysDistinctMembers (members.toList before)
  | .done, before, hn, hd | .fault _, before, hn, hd => ⟨hn, hd⟩
  | .more (.fault _) value rest, before, hn, hd => keysDistinct_members rest before hn hd
  | .more (.name key) value rest, before, hn, hd => by
    rw [Members.toList]
    refine keysDistinct_members rest _ ?_ ?_
    · rw [map_fst_insert]
      split
      · exact hn
      · next hmem =>
        rw [List.nodup_append]
        refine ⟨hn, List.nodup_singleton _, fun a ha b hb he => hmem ?_⟩
        rw [List.mem_singleton] at hb
        rwa [← hb, ← he]
    · rw [keysDistinctMembers_iff] at hd ⊢
      intro m hm
      rcases mem_insert hm with rfl | hm
      · exact keysDistinct_toJson value
      · exact hd m hm

end

mutual

theorem depth_toJson_le : ∀ s : Syntax, s.toJson.depth ≤ s.depth
  | .null | .bool _ | .number _ | .string _ | .fault _ => Nat.le_refl 0
  | .array items => by
    rw [Syntax.toJson, depth, Syntax.depth]
    exact Nat.succ_le_succ (depth_toList_le items)
  | .object members => by
    rw [Syntax.toJson, depth, Syntax.depth]
    refine Nat.succ_le_succ (Nat.le_trans (depth_members_le members []) ?_)
    simp [depthOfMembers]

theorem depth_toList_le : ∀ items : Items, depthOfItems items.toList ≤ items.depth
  | .done | .fault _ => Nat.le_refl 0
  | .more item rest => by
    have hitem := depth_toJson_le item
    have hrest := depth_toList_le rest
    rw [Items.toList, depthOfItems, Items.depth]
    omega

theorem depth_members_le : ∀ (members : Members) (before : List (String × Json)),
    depthOfMembers (members.toList before) ≤ max (depthOfMembers before) members.depth
  | .done, before | .fault _, before => by
    rw [Members.toList]
    exact Nat.le_max_left ..
  | .more (.fault _) value rest, before => by
    have hrest := depth_members_le rest before
    rw [Members.toList, Members.depth]
    omega
  | .more (.name key) value rest, before => by
    have hvalue := depth_toJson_le value
    have hrest := depth_members_le rest (insert key value.toJson before)
    have hinsert : depthOfMembers (insert key value.toJson before) ≤
        max (depthOfMembers before) value.depth := by
      rw [depthOfMembers_le]
      intro m hm
      rcases mem_insert hm with rfl | hm
      · exact Nat.le_trans hvalue (Nat.le_max_right ..)
      · exact Nat.le_trans (depthOfMembers_le.1 (Nat.le_refl _) m hm) (Nat.le_max_left ..)
    rw [Members.toList, Members.depth]
    omega

end

end StatesLang.Json
