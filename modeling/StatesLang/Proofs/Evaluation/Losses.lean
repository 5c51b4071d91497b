import StatesLang.Proofs.Comparison.Equality
import StatesLang.Proofs.Evaluation.Shape

/-!
# Members that get lost

Dynamic members come out under shorter keys. Where another member of the object has such a key
already, one of the two takes the place of the other. The check of a template does not see this.

* `Template.Keeps`: in a document every member of every object of a template has its own.
* `Template.ObjectIn`, `Template.Clash`: the objects of a template, and keys that come out as one.
* **`Template.keeps_iff_no_clash`**: nothing is lost exactly when no object has such keys.
* `Template.checked_member_lost`: a template that passes the check and loses a member.
-/

namespace StatesLang.Template

/-! ## Nothing lost -/

mutual

/-- Nothing of a template is lost in a document: every object in it has an object in its place, with
as many members, and among these one for each of its own. -/
inductive Keeps (r : Registry) (sources : Path.Sources) : UInt64 → Json → Json → Prop
  | null {entropy : UInt64} : Keeps r sources entropy .null .null
  | bool {entropy : UInt64} (b : Bool) : Keeps r sources entropy (.bool b) (.bool b)
  | number {entropy : UInt64} (n : Json.Number) : Keeps r sources entropy (.number n) (.number n)
  | string {entropy : UInt64} (s : String) : Keeps r sources entropy (.string s) (.string s)
  | array {entropy : UInt64} {items vs : List Json} (h : ItemsKept r sources entropy 0 items vs) :
    Keeps r sources entropy (.array items) (.array vs)
  | object {entropy : UInt64} {members ms : List (String × Json)}
    (hsize : ms.length = members.length) (h : MembersKept r sources entropy members ms) :
    Keeps r sources entropy (.object members) (.object ms)

/-- The same for the items of an array, from a position on. -/
inductive ItemsKept (r : Registry) (sources : Path.Sources) :
    UInt64 → Nat → List Json → List Json → Prop
  | nil {entropy : UInt64} {position : Nat} : ItemsKept r sources entropy position [] []
  | cons {entropy : UInt64} {position : Nat} {item v : Json} {rest vs : List Json}
    (h : Keeps r sources (Handler.inner entropy position) item v)
    (hrest : ItemsKept r sources entropy (position + 1) rest vs) :
    ItemsKept r sources entropy position (item :: rest) (v :: vs)

/-- Among the members of an object there is one for each member of an object of a template. A
dynamic member has what it yields under the key without its ending, another one what it renders to
under its own key, in which again nothing is lost. -/
inductive MembersKept (r : Registry) (sources : Path.Sources) :
    UInt64 → List (String × Json) → List (String × Json) → Prop
  | nil {entropy : UInt64} {ms : List (String × Json)} : MembersKept r sources entropy [] ms
  | dynamic {entropy : UInt64} {key name : String} {value v : Json}
    {rest ms : List (String × Json)} (hname : dynamicName? key = some name)
    (hyields : Entry.Yields r sources ⟨Handler.inner entropy rest.length, key, value⟩ v)
    (hv : Json.lookup name ms = some v) (hrest : MembersKept r sources entropy rest ms) :
    MembersKept r sources entropy ((key, value) :: rest) ms
  | static {entropy : UInt64} {key : String} {value v : Json} {rest ms : List (String × Json)}
    (hname : dynamicName? key = none)
    (hrender : render r (Handler.inner entropy rest.length) sources value = .ok v)
    (hkeeps : Keeps r sources (Handler.inner entropy rest.length) value v)
    (hv : Json.lookup key ms = some v) (hrest : MembersKept r sources entropy rest ms) :
    MembersKept r sources entropy ((key, value) :: rest) ms

end

/-! ## Templates that keep apart -/

section Filling

variable {r : Registry} {sources : Path.Sources} {entropy : UInt64}

theorem MembersFill.keys_eq : {members ms : List (String × Json)} →
    MembersFill r sources entropy members ms →
      ms.map Prod.fst = members.map fun m => renderedKey m.1
  | [], _, .nil => rfl
  | _ :: _, _, .cons h hrest => by
    rw [List.map_cons, List.map_cons, h.key_eq, hrest.keys_eq]

theorem MemberFills.inversion {key : String} {value : Json} {m : String × Json}
    (h : MemberFills r sources entropy (key, value) m) :
    (dynamicName? key = some m.1 ∧ Entry.Yields r sources ⟨entropy, key, value⟩ m.2) ∨
      (dynamicName? key = none ∧ m.1 = key ∧ Fills r sources entropy value m.2) := by
  cases h with
  | dynamic hname h => exact .inl ⟨hname, h⟩
  | static hname h => exact .inr ⟨hname, rfl, h⟩

mutual

theorem keeps_of_fills : (t : Json) → KeepsApart t → {entropy : UInt64} → {v : Json} →
    Fills r sources entropy t v → Keeps r sources entropy t v
  | .object members, h, _, _, .object hfills => by
    have hkeys := hfills.keys_eq
    refine .object (by simpa using congrArg List.length hkeys) ?_
    refine membersKept_of_fill members h.2 hfills fun m hm => ?_
    exact Json.lookup_of_mem (hkeys ▸ h.1) hm
  | .array items, h, _, _, .array hfills => .array (itemsKept_of_fill items h hfills)
  | .null, _, _, _, .null => .null
  | .bool _, _, _, _, .bool b => .bool b
  | .number _, _, _, _, .number n => .number n
  | .string _, _, _, _, .string s => .string s

theorem itemsKept_of_fill : (items : List Json) → ItemsKeepApart items → {entropy : UInt64} →
    {position : Nat} → {vs : List Json} → ItemsFill r sources entropy position items vs →
      ItemsKept r sources entropy position items vs
  | [], _, _, _, _, .nil => .nil
  | item :: rest, h, _, _, _, .cons hitem hrest =>
    .cons (keeps_of_fills item h.1 hitem) (itemsKept_of_fill rest h.2 hrest)

theorem membersKept_of_fill : (members : List (String × Json)) → MembersKeepApart members →
    {entropy : UInt64} → {ms all : List (String × Json)} →
    MembersFill r sources entropy members ms → (∀ m ∈ ms, Json.lookup m.1 all = some m.2) →
      MembersKept r sources entropy members all
  | [], _, _, _, _, _, _ => .nil
  | (key, value) :: rest, h, _, _, _, .cons hm hrest, hall => by
    obtain ⟨hfound, hall⟩ := List.forall_mem_cons.1 hall
    have hkept := membersKept_of_fill rest h.2 hrest hall
    rcases hm.inversion with ⟨hname, hyields⟩ | ⟨hname, hkey, hfills⟩
    · exact .dynamic hname hyields hfound hkept
    · have hvalue := h.1 hname
      exact .static hname ((render_eq_ok_iff value hvalue).2 hfills)
        (keeps_of_fills value hvalue hfills) (hkey ▸ hfound) hkept

end

/-! ## Documents that keep everything -/

theorem length_insert (key : String) (value : Json) (ms : List (String × Json)) :
    (Json.insert key value ms).length =
      if key ∈ ms.map Prod.fst then ms.length else ms.length + 1 := by
  have h := congrArg List.length (Json.map_fst_insert key value ms)
  rw [List.length_map] at h
  rw [h]
  split <;> simp

theorem length_renderMembers_le : (members : List (String × Json)) →
    {entropy : UInt64} → {before after : List (String × Json)} →
    renderMembers r entropy sources before members = .ok after →
      after.length ≤ before.length + members.length
  | [], _, _, _, h => by
    cases h
    exact Nat.le_refl _
  | m :: rest, _, before, _, h => by
    rw [renderMembers_cons, Decode.bind_eq_ok] at h
    obtain ⟨v, -, h⟩ := h
    have hle := length_renderMembers_le rest h
    rw [length_insert] at hle
    rw [List.length_cons]
    split at hle <;> omega

/-- Where as many members come out as went in, all of them have keys of their own. -/
theorem nodup_of_length : (members : List (String × Json)) → {entropy : UInt64} →
    {before after : List (String × Json)} →
    renderMembers r entropy sources before members = .ok after →
    after.length = before.length + members.length → (before.map Prod.fst).Nodup →
      (keysAround before members).Nodup
  | [], _, before, _, _, _, hbefore => by
    rw [keysAround, List.map_nil, List.append_nil]
    exact hbefore
  | m :: rest, _, before, after, h, hlength, hbefore => by
    rw [renderMembers_cons, Decode.bind_eq_ok] at h
    obtain ⟨v, -, h⟩ := h
    rw [List.length_cons] at hlength
    have hnew : renderedKey m.1 ∉ before.map Prod.fst := by
      intro hmem
      have hle := length_renderMembers_le rest h
      rw [length_insert, if_pos hmem] at hle
      omega
    rw [Json.insert_of_lookup (Json.lookup_eq_none.2 hnew)] at h
    rw [← keysAround_append v]
    refine nodup_of_length rest h ?_ ?_
    · rw [hlength, List.length_append, List.length_singleton]
      omega
    · rw [List.map_append, List.nodup_append]
      refine ⟨hbefore, List.nodup_singleton _, ?_⟩
      rintro key hkey _ hkey' rfl
      rw [List.mem_singleton.1 hkey'] at hkey
      exact hnew hkey

mutual

theorem keepsApart_of_keeps : (t : Json) → {entropy : UInt64} → {v : Json} →
    render r entropy sources t = .ok v → Keeps r sources entropy t v → KeepsApart t
  | .object members, _, _, h, .object hsize hkept => by
    rw [render, Decode.map_eq_ok] at h
    obtain ⟨ms, h, hms⟩ := h
    cases hms
    refine ⟨?_, membersKeepApart_of_kept members hkept⟩
    exact nodup_of_length members h (by rw [hsize, List.length_nil, Nat.zero_add]) List.nodup_nil
  | .array items, _, _, h, .array hkept => by
    rw [render, Decode.map_eq_ok] at h
    obtain ⟨vs, h, hvs⟩ := h
    cases hvs
    exact itemsKeepApart_of_kept items h hkept
  | .null, _, _, _, _ | .bool _, _, _, _, _ => trivial
  | .number _, _, _, _, _ | .string _, _, _, _, _ => trivial

theorem itemsKeepApart_of_kept : (items : List Json) → {entropy : UInt64} → {position : Nat} →
    {vs : List Json} → renderItems r entropy sources position items = .ok vs →
    ItemsKept r sources entropy position items vs → ItemsKeepApart items
  | [], _, _, _, _, _ => trivial
  | item :: rest, _, _, _, h, .cons hitem hrest => by
    rw [renderItems, Decode.bind_eq_ok] at h
    obtain ⟨v, hv, h⟩ := h
    obtain ⟨vs, hvs, h⟩ := Decode.bind_eq_ok.1 h
    cases h
    exact ⟨keepsApart_of_keeps item hv hitem, itemsKeepApart_of_kept rest hvs hrest⟩

theorem membersKeepApart_of_kept : (members : List (String × Json)) → {entropy : UInt64} →
    {ms : List (String × Json)} → MembersKept r sources entropy members ms →
      MembersKeepApart members
  | [], _, _, _ => trivial
  | (_, _) :: rest, _, _, .dynamic hname _ _ hrest =>
    ⟨fun hnone => (nomatch hname.symm.trans hnone), membersKeepApart_of_kept rest hrest⟩
  | (_, value) :: rest, _, _, .static _ hrender hkeeps _ hrest =>
    ⟨fun _ => keepsApart_of_keeps value hrender hkeeps, membersKeepApart_of_kept rest hrest⟩

end

theorem keeps_iff_keepsApart {t v : Json} (h : render r entropy sources t = .ok v) :
    Keeps r sources entropy t v ↔ KeepsApart t :=
  ⟨keepsApart_of_keeps t h, fun ht => keeps_of_fills t ht ((render_eq_ok_iff t ht).1 h)⟩

end Filling

/-! ## Keys that come out as one -/

theorem dynamicName_eq_some {key name : String} :
    dynamicName? key = some name ↔ key = name ++ ".$" := by
  have hending : key = name ++ ".$" ↔ key.toList.reverse = '$' :: '.' :: name.toList.reverse := by
    rw [← String.toList_inj, String.toList_append, ← List.reverse_inj, List.reverse_append]
    rfl
  rw [hending, dynamicName?]
  split
  · next rest hkey =>
    rw [hkey, Option.some.injEq, ← String.toList_inj, String.toList_ofList, ← List.reverse_inj,
      List.reverse_reverse]
    simp
  · next hkey => exact iff_of_false (Option.some_ne_none name).symm fun h => hkey _ h

/-- An object has a member and a dynamic member that comes out under the same key. -/
def Clash (members : List (String × Json)) : Prop :=
  ∃ key ∈ members.map Prod.fst, dynamicName? key = none ∧ key ++ ".$" ∈ members.map Prod.fst

/-- Of two keys that come out as one, one is dynamic and the other one is not. -/
theorem nodup_renderedKey_iff {members : List (String × Json)}
    (hkeys : (members.map Prod.fst).Nodup) :
    (members.map fun m => renderedKey m.1).Nodup ↔ ¬ Clash members := by
  have hmap : (members.map fun m => renderedKey m.1) = (members.map Prod.fst).map renderedKey := by
    rw [List.map_map]
    rfl
  rw [hmap, List.nodup_map_iff_inj_on hkeys]
  constructor
  · rintro hinj ⟨key, hkey, hstatic, hdynamic⟩
    have hsame : renderedKey key = renderedKey (key ++ ".$") := by
      rw [renderedKey, renderedKey, hstatic, dynamicName_eq_some.2 rfl]
      rfl
    have hself := dynamicName_eq_some.2 (hinj key hkey _ hdynamic hsame)
    rw [hstatic] at hself
    cases hself
  · intro hclash key hkey key' hkey' hsame
    rw [renderedKey, renderedKey] at hsame
    cases hname : dynamicName? key with
    | none =>
      cases hname' : dynamicName? key' with
      | none => rwa [hname, hname'] at hsame
      | some name =>
        rw [hname, hname', Option.getD_none, Option.getD_some] at hsame
        refine absurd ⟨key, hkey, hname, ?_⟩ hclash
        rwa [hsame, ← dynamicName_eq_some.1 hname']
    | some name =>
      cases hname' : dynamicName? key' with
      | none =>
        rw [hname, hname', Option.getD_none, Option.getD_some] at hsame
        refine absurd ⟨key', hkey', hname', ?_⟩ hclash
        rwa [← hsame, ← dynamicName_eq_some.1 hname]
      | some name' =>
        rw [hname, hname', Option.getD_some, Option.getD_some] at hsame
        rw [dynamicName_eq_some.1 hname, dynamicName_eq_some.1 hname', hsame]

/-- An object in a template that is not inside a dynamic member. -/
inductive ObjectIn : Json → List (String × Json) → Prop
  | self (members : List (String × Json)) : ObjectIn (.object members) members
  | item {items : List Json} {item : Json} {members : List (String × Json)} (hitem : item ∈ items)
    (hin : ObjectIn item members) : ObjectIn (.array items) members
  | member {ms members : List (String × Json)} {key : String} {value : Json}
    (hmem : (key, value) ∈ ms) (hname : dynamicName? key = none) (hin : ObjectIn value members) :
    ObjectIn (.object ms) members

theorem objectIn_array {items : List Json} {p : List (String × Json) → Prop} :
    (∀ members, ObjectIn (.array items) members → p members) ↔
      ∀ item ∈ items, ∀ members, ObjectIn item members → p members := by
  constructor
  · exact fun h item hitem members hin => h members (.item hitem hin)
  · intro h members hin
    cases hin with
    | item hitem hin => exact h _ hitem members hin

theorem objectIn_object {ms : List (String × Json)} {p : List (String × Json) → Prop} :
    (∀ members, ObjectIn (.object ms) members → p members) ↔
      p ms ∧ ∀ m ∈ ms, dynamicName? m.1 = none → ∀ members, ObjectIn m.2 members → p members := by
  constructor
  · exact fun h => ⟨h ms (.self ms), fun m hm hname members hin => h members (.member hm hname hin)⟩
  · rintro ⟨hself, h⟩ members hin
    cases hin with
    | self => exact hself
    | member hmem hname hin => exact h _ hmem hname members hin

mutual

theorem keepsApart_iff_no_clash : (t : Json) → t.KeysDistinct →
    (KeepsApart t ↔ ∀ members, ObjectIn t members → ¬ Clash members)
  | .object members, h => by
    rw [objectIn_object, ← nodup_renderedKey_iff h.1, ← membersKeepApart_iff_no_clash members h.2]
    rfl
  | .array items, h => by
    rw [objectIn_array, ← itemsKeepApart_iff_no_clash items h]
    rfl
  | .null, _ | .bool _, _ | .number _, _ | .string _, _ => iff_of_true trivial nofun

theorem itemsKeepApart_iff_no_clash : (items : List Json) → Json.KeysDistinctItems items →
    (ItemsKeepApart items ↔
      ∀ item ∈ items, ∀ members, ObjectIn item members → ¬ Clash members)
  | [], _ => iff_of_true trivial nofun
  | item :: rest, h => by
    rw [List.forall_mem_cons, ← keepsApart_iff_no_clash item h.1,
      ← itemsKeepApart_iff_no_clash rest h.2]
    rfl

theorem membersKeepApart_iff_no_clash : (members : List (String × Json)) →
    Json.KeysDistinctMembers members →
    (MembersKeepApart members ↔ ∀ m ∈ members, dynamicName? m.1 = none →
      ∀ members, ObjectIn m.2 members → ¬ Clash members)
  | [], _ => iff_of_true trivial nofun
  | (key, value) :: rest, h => by
    rw [List.forall_mem_cons, ← keepsApart_iff_no_clash value h.1,
      ← membersKeepApart_iff_no_clash rest h.2]
    rfl

end

/-! ## What is lost -/

/-- **A template loses nothing exactly where no two members of an object come out under one key**,
that is, if none of its objects has both a member and a dynamic member of the same name. Only then
every object in it has an object in its place with as many members, and each member has its own
value there. -/
theorem keeps_iff_no_clash {r : Registry} {sources : Path.Sources} {entropy : UInt64} {t v : Json}
    (hkeys : t.KeysDistinct) (h : render r entropy sources t = .ok v) :
    Keeps r sources entropy t v ↔ ∀ members, ObjectIn t members → ¬ Clash members :=
  (keeps_iff_keepsApart h).trans (keepsApart_iff_no_clash t hkeys)

/-- A parcel with a label, on which its number is put beside a sender of that name. -/
def parcel : Json :=
  .object [("number.$", .string "$.number"), ("label", .array [.object
    [("sender", .string "number"), ("text.$", .string "States.Format('No {}', $.number)")]])]

/-- What is known of a parcel. -/
def shipment : Path.Sources :=
  ⟨.object [("number", .number (.ofInt 8))], .null⟩

/-- The parcel with its number filled in. -/
def labelled : Json :=
  .object [("number", .number (.ofInt 8)), ("label", .array [.object
    [("sender", .string "number"), ("text", .string "No 8")]])]

theorem parcel_keeps :
    parcel.KeysDistinct ∧ render (.standard {}) 0 shipment parcel = .ok labelled ∧
    Keeps (.standard {}) shipment 0 parcel labelled := by
  have hkeys : parcel.KeysDistinct := by
    simp [parcel, Json.KeysDistinct, Json.KeysDistinctMembers, Json.KeysDistinctItems]
  have hrender : render (.standard {}) 0 shipment parcel = .ok labelled := by decide +kernel
  refine ⟨hkeys, hrender, (keeps_iff_no_clash hkeys hrender).2 ?_⟩
  refine (keepsApart_iff_no_clash parcel hkeys).1 ?_
  have hnumber : dynamicName? "number.$" = some "number" := dynamicName_eq_some.2 rfl
  have hlabel : dynamicName? "label" = none := by decide +kernel
  have hsender : dynamicName? "sender" = none := by decide +kernel
  have htext : dynamicName? "text.$" = some "text" := dynamicName_eq_some.2 rfl
  simp [parcel, KeepsApart, MembersKeepApart, ItemsKeepApart, renderedKey, hnumber, hlabel, hsender,
    htext]

/-- An amount with a default in front of it. -/
def defaulted : Json :=
  .object [("amount", .number (.ofInt 1)), ("amount.$", .string "$.amount")]

/-- The default and the amount meet, and one of the two members is lost. -/
theorem checked_member_lost :
    defaulted.KeysDistinct ∧ problems 32 defaulted = [] ∧
    render (.standard {}) 0 ⟨.object [("amount", .number (.ofInt 2))], .object []⟩ defaulted =
      .ok (.object [("amount", .number (.ofInt 2))]) ∧
    ¬ Keeps (.standard {}) ⟨.object [("amount", .number (.ofInt 2))], .object []⟩ 0 defaulted
      (.object [("amount", .number (.ofInt 2))]) := by
  refine ⟨?_, by decide +kernel, by decide +kernel, ?_⟩
  · simp [defaulted, Json.KeysDistinct, Json.KeysDistinctMembers]
  · intro h
    cases h with
    | object hsize => cases hsize

end StatesLang.Template
