import StatesLang.Proofs.RoundTrip.Fields

/-!
# What reading yields: parts of states

Whatever is read reads back, and is nested no deeper than what it was read from.

* `Condition.ofJson_fits`, `ChoiceRule.decode_fits`: conditions and rules.
* `Retrier.decode_fits`, `Catcher.decode_fits`: retriers and catchers that name errors.
* `Decode.list_fits`, `Decode.optional_document_fits`: lists, and documents as they are.
-/

namespace StatesLang

open Json (Syntax Items Members)

theorem Json.depth_le_of_lookup {key : String} {ms : List (String × Json)} {v : Json}
    (h : lookup key ms = some v) : v.depth ≤ depthOfMembers ms := by
  induction ms with
  | nil => cases h
  | cons m rest ih =>
    obtain ⟨k, u⟩ := m
    rw [depthOfMembers]
    by_cases hk : k = key
    · rw [lookup, if_pos hk] at h
      cases h
      exact Nat.le_max_left ..
    · rw [lookup, if_neg hk] at h
      exact Nat.le_trans (ih h) (Nat.le_max_right ..)

/-! ## Conditions -/

namespace Condition

theorem Comparison.isLegal_of_ofKey {key : String} {k : Comparison} (h : ofKey? key = some k) :
    k.isLegal = true :=
  (ofKey_eq_some_iff.1 h).1

theorem kind_literalOf {key : String} {kind : Kind} {operand : Json} {l : Literal}
    (h : literalOf key kind operand = .ok l) : l.kind = kind := by
  unfold literalOf at h
  split at h
  · next hl =>
    cases h
    exact Literal.kind_ofJson hl
  · split at h <;> cases h

theorem depth_withVariable (path key : String) {operand : Json} (h : operand.depth = 0) :
    (withVariable path key operand).depth = 1 := by
  by_cases hp : path = ""
  · simp [withVariable, hp, Json.depth, Json.depthOfMembers, h]
  · simp [withVariable, hp, Json.depth, Json.depthOfMembers, h]

theorem Literal.depth_toJson (l : Literal) : l.toJson.depth = 0 := by
  cases l <;> rfl

theorem leafOf_fits {ms : List (String × Json)} {c : Condition} (h : leafOf ms = .ok c) :
    (∀ k ∈ c.comparisons, k.isLegal = true) ∧ c.toJson.depth = 1 := by
  rw [leafOf, Decode.bind_eq_ok] at h
  obtain ⟨path, -, h⟩ := h
  obtain ⟨⟨key, operand⟩, -, h⟩ := Decode.bind_eq_ok.1 h
  dsimp only at h
  split at h
  · -- a test compares nothing
    split at h
    · cases h
      exact ⟨fun k hk => absurd hk List.not_mem_nil, depth_withVariable _ _ rfl⟩
    · cases h
  · split at h
    · cases h
    · next hk =>
      split at h
      · cases h
        refine ⟨fun k hmem => ?_, depth_withVariable _ _ rfl⟩
        rw [List.mem_singleton.1 hmem]
        exact Comparison.isLegal_of_ofKey hk
      · cases h
    · next hk =>
      obtain ⟨l, hl, h⟩ := Decode.bind_eq_ok.1 h
      cases h
      refine ⟨fun k hmem => ?_, depth_withVariable _ _ l.depth_toJson⟩
      rw [List.mem_singleton.1 hmem, kind_literalOf hl]
      exact Comparison.isLegal_of_ofKey hk

mutual

/-- **A condition that is read** has legal comparisons and is nested no deeper than its document. -/
theorem ofJson_fits : ∀ (j : Json) (c : Condition), ofJson j = .ok c →
    (∀ k ∈ c.comparisons, k.isLegal = true) ∧ c.toJson.depth ≤ j.depth
  | .object ms, c, h => by
    rw [ofJson] at h
    split at h
    · next items ha =>
      have hsize := Json.sizeOf_of_lookup ha
      have hdepth := Json.depth_le_of_lookup ha
      obtain ⟨cs, hcs, rfl⟩ := Decode.map_eq_ok.1 h
      have hfits := ofJsonList_fits items cs hcs
      refine ⟨hfits.1, ?_⟩
      simp only [toJson, Json.depth, Json.depthOfMembers] at hdepth ⊢
      omega
    · cases h
    · split at h
      · next items ho =>
        have hsize := Json.sizeOf_of_lookup ho
        have hdepth := Json.depth_le_of_lookup ho
        obtain ⟨cs, hcs, rfl⟩ := Decode.map_eq_ok.1 h
        have hfits := ofJsonList_fits items cs hcs
        refine ⟨hfits.1, ?_⟩
        simp only [toJson, Json.depth, Json.depthOfMembers] at hdepth ⊢
        omega
      · cases h
      · split at h
        · next child hn =>
          have hsize := Json.sizeOf_of_lookup hn
          have hdepth := Json.depth_le_of_lookup hn
          obtain ⟨c', hc, rfl⟩ := Decode.map_eq_ok.1 h
          have hfits := ofJson_fits child c' hc
          refine ⟨hfits.1, ?_⟩
          simp only [toJson, Json.depth, Json.depthOfMembers]
          omega
        · have hfits := leafOf_fits h
          refine ⟨hfits.1, ?_⟩
          rw [hfits.2, Json.depth]
          omega
  | .null, _, h | .bool _, _, h | .number _, _, h | .string _, _, h | .array _, _, h => by
    rw [ofJson] at h
    · cases h
    · intro _ he
      cases he
termination_by j => sizeOf j
decreasing_by all_goals simp_all; omega

theorem ofJsonList_fits : ∀ (items : List Json) (cs : List Condition), ofJsonList items = .ok cs →
    (∀ k ∈ comparisonsList cs, k.isLegal = true) ∧
      Json.depthOfItems (toJsonList cs) ≤ Json.depthOfItems items
  | [], cs, h => by
    rw [ofJsonList] at h
    cases h
    exact ⟨fun k hk => absurd hk List.not_mem_nil, Nat.le_refl _⟩
  | item :: rest, cs, h => by
    rw [ofJsonList, Decode.bind_eq_ok] at h
    obtain ⟨c, hc, h⟩ := h
    obtain ⟨cs', hcs, h⟩ := Decode.bind_eq_ok.1 h
    cases h
    have hhead := ofJson_fits item c hc
    have htail := ofJsonList_fits rest cs' hcs
    refine ⟨fun k hk => ?_, ?_⟩
    · rcases List.mem_append.1 hk with hk | hk
      · exact hhead.1 k hk
      · exact htail.1 k hk
    · rw [toJsonList, Json.depthOfItems, Json.depthOfItems]
      omega
termination_by items => sizeOf items

end

end Condition

/-! ## Values -/

namespace Decode

/-- A document that is read is a document that a field can hold, unless it is null. -/
theorem optional_document_fits {s : Syntax} {o : Option Json} {n : Nat} (hn : s.depth < n)
    (h : optional document s = .ok o) : ∀ j ∈ o, j.IsContent ∧ j.depth < n := by
  have hfits : s.toJson ≠ .null → (document s).map some = .ok o →
      ∀ j ∈ o, j.IsContent ∧ j.depth < n := by
    intro hnull h j hj
    obtain ⟨a, ha, rfl⟩ := map_eq_ok.1 h
    cases hj
    obtain rfl : j = s.toJson := by cases s <;> cases ha <;> rfl
    exact ⟨⟨hnull, Json.keysDistinct_toJson s⟩, Nat.lt_of_le_of_lt (Json.depth_toJson_le s) hn⟩
  cases s with
  | null =>
    cases h
    exact fun j hj => absurd hj (by simp)
  | fault f => cases h
  | _ => exact hfits (fun he => by cases he) h

theorem items_fits {α : Type} {read : Syntax → Except Error α} :
    ∀ (is : Items) (as : List α), items read is = .ok as →
      ∀ a ∈ as, ∃ item : Syntax, item.depth ≤ is.depth ∧ read item = .ok a
  | .done, as, h, a, ha => by
    cases h
    exact absurd ha List.not_mem_nil
  | .fault f, as, h, a, ha => by cases h
  | .more item rest, as, h, a, ha => by
    rw [items, bind_eq_ok] at h
    obtain ⟨b, hb, h⟩ := h
    obtain ⟨bs, hbs, h⟩ := bind_eq_ok.1 h
    cases h
    rcases List.mem_cons.1 ha with rfl | ha
    · exact ⟨item, Nat.le_max_left .., hb⟩
    · obtain ⟨item', hd, hr⟩ := items_fits rest bs hbs a ha
      exact ⟨item', Nat.le_trans hd (Nat.le_max_right ..), hr⟩

/-- The values of a list are read from items one level further down. -/
theorem list_fits {α : Type} {read : Syntax → Except Error α} {s : Syntax} {as : List α}
    (h : list read s = .ok as) :
    ∀ a ∈ as, ∃ item : Syntax, item.depth < s.depth ∧ read item = .ok a := by
  cases s with
  | array is =>
    intro a ha
    obtain ⟨item, hd, hr⟩ := items_fits is as h a ha
    exact ⟨item, Nat.lt_succ_of_le hd, hr⟩
  | _ => cases h

theorem depth_pos_of_list {α : Type} {read : Syntax → Except Error α} {s : Syntax} {as : List α}
    (h : list read s = .ok as) : 0 < s.depth := by
  cases s with
  | array is => exact Nat.succ_pos _
  | _ => cases h

end Decode

/-! ## Rules, retriers and catchers -/

theorem ChoiceRule.depth_toJson_le (r : ChoiceRule) :
    r.toJson.depth ≤ r.condition.toJson.depth := by
  rw [toJson_eq, Condition.toJson_eq, Json.depth, Json.depth]
  refine Nat.succ_le_succ (Json.depthOfMembers_le.2 fun m hm => ?_)
  rcases List.mem_append.1 hm with hm | hm
  · exact Json.depthOfMembers_le.1 (Nat.le_refl _) m hm
  · rcases List.mem_cons.1 hm with rfl | hm
    · exact Nat.zero_le _
    · obtain ⟨_, _, rfl⟩ := List.mem_map.1 hm
      exact Nat.zero_le _

/-- **A rule that is read** has legal comparisons and is nested no deeper than its document. -/
theorem ChoiceRule.decode_fits {s : Syntax} {r : ChoiceRule} (h : ChoiceRule.decode s = .ok r) :
    (∀ k ∈ r.condition.comparisons, k.isLegal = true) ∧ r.toJson.depth ≤ s.depth := by
  have hread : ChoiceRule.ofJson s.toJson = .ok r := by
    cases s <;> first | exact Decode.mapError_eq_ok.1 h | cases h
  unfold ofJson at hread
  split at hread
  · cases hread
  · split at hread
    · next hc =>
      cases hread
      have hfits := Condition.ofJson_fits _ _ hc
      exact ⟨hfits.1, Nat.le_trans (ChoiceRule.depth_toJson_le _)
        (Nat.le_trans hfits.2 (Json.depth_toJson_le s))⟩
    · cases hread
  · cases hread

theorem OptionalPath.depth_toJson {p : OptionalPath} {v : Json} (h : p.toJson? = some v) :
    v.depth = 0 := by
  cases p <;> cases h <;> rfl

theorem Json.depth_ofStrings_le (ss : List String) : (ofStrings ss).depth ≤ 1 := by
  rw [ofStrings, depth]
  refine Nat.succ_le_succ (depthOfItems_le.2 fun item hitem => ?_)
  obtain ⟨_, -, rfl⟩ := List.mem_map.1 hitem
  exact Nat.le_refl _

theorem Retrier.depth_toJson_le (r : Retrier) : r.toJson.depth ≤ 2 := by
  rw [toJson_eq, Json.depth]
  refine Nat.succ_le_succ (Decode.depthOfMembers_written.2 fun f _ v hv => ?_)
  cases f with
  | errorEquals =>
    cases hv
    exact Json.depth_ofStrings_le _
  | backoffRate =>
    obtain ⟨x, -, rfl⟩ := Option.map_eq_some_iff.1 hv
    cases x <;> exact Nat.zero_le _
  | intervalSeconds | maxAttempts | comment =>
    obtain ⟨_, -, rfl⟩ := Option.map_eq_some_iff.1 hv
    exact Nat.zero_le _

theorem Catcher.depth_toJson_le (c : Catcher) : c.toJson.depth ≤ 2 := by
  rw [toJson_eq, Json.depth]
  refine Nat.succ_le_succ (Decode.depthOfMembers_written.2 fun f _ v hv => ?_)
  cases f with
  | errorEquals =>
    cases hv
    exact Json.depth_ofStrings_le _
  | next =>
    cases hv
    exact Nat.zero_le _
  | resultPath =>
    rw [OptionalPath.depth_toJson hv]
    exact Nat.zero_le _
  | comment =>
    obtain ⟨_, -, rfl⟩ := Option.map_eq_some_iff.1 hv
    exact Nat.zero_le _

/-- **A retrier that is read** reads back, and if it names errors it is nested no deeper than its
document. -/
theorem Retrier.decode_fits {s : Syntax} {r : Retrier} (h : Retrier.decode s = .ok r) :
    r.IsReadable ∧ (r.errorEquals ≠ [] → r.toJson.depth ≤ s.depth) := by
  have hpres := Decode.readRecord_preserves
    (P := fun r => r.IsReadable ∧ (r.errorEquals ≠ [] → 1 < s.depth))
    (fun inner r f v _ r' _ hr hd hf => ?_) ⟨fun _ hx => (by cases hx), fun h => absurd rfl h⟩ h
  · exact ⟨hpres.2.1, fun hne => Nat.le_trans r.depth_toJson_le (hpres.2.2 hne)⟩
  · cases f with
    | errorEquals =>
      obtain ⟨ss, hss, hf⟩ := Decode.bind_eq_ok.1 hf
      cases hf
      have hpos := Decode.depth_pos_of_list hss
      exact ⟨hr.1, fun _ => by omega⟩
    | backoffRate =>
      obtain ⟨o, -, hf⟩ := Decode.bind_eq_ok.1 hf
      cases hf
      refine ⟨fun x hx => ?_, hr.2⟩
      obtain ⟨y, -, rfl⟩ := Option.map_eq_some_iff.1 hx
      exact ⟨y, rfl⟩
    | intervalSeconds | maxAttempts | comment =>
      obtain ⟨_, -, hf⟩ := Decode.bind_eq_ok.1 hf
      cases hf
      exact hr

/-- **A catcher that is read** and names errors is nested no deeper than its document. -/
theorem Catcher.decode_fits {s : Syntax} {c : Catcher} (h : Catcher.decode s = .ok c)
    (hc : c.errorEquals ≠ []) : c.toJson.depth ≤ s.depth := by
  have hpres := Decode.readRecord_preserves (P := fun c => c.errorEquals ≠ [] → 1 < s.depth)
    (fun inner c f v _ c' _ hc hd hf => ?_) (fun h => absurd rfl h) h
  · exact Nat.le_trans c.depth_toJson_le (hpres.2 hc)
  · cases f with
    | errorEquals =>
      obtain ⟨ss, hss, hf⟩ := Decode.bind_eq_ok.1 hf
      cases hf
      have hpos := Decode.depth_pos_of_list hss
      exact fun _ => by omega
    | next | resultPath | comment =>
      obtain ⟨_, -, hf⟩ := Decode.bind_eq_ok.1 hf
      cases hf
      exact hc

end StatesLang
