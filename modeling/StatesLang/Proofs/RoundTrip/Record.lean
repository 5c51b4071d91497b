import StatesLang.Decode.Record
import StatesLang.Proofs.RoundTrip.Outline

/-!
# Records read back

* `Decode.written`: the members that are written for the fields of a record.
* **`Decode.readMembers_written`**: they are read as steps over these fields, in their order.
* `Decode.foldlM_written`: fields that are not written keep what they have.
* **`Decode.readRecord_preserves`**: what every field that is read preserves holds of the record.
-/

namespace StatesLang.Decode

open Json (Syntax Items Members)

variable {φ ρ : Type}

theorem bind_eq_ok {ε α β : Type} {x : Except ε α} {f : α → Except ε β} {b : β} :
    (x >>= f) = .ok b ↔ ∃ a, x = .ok a ∧ f a = .ok b := by
  cases x with
  | error e => simp [bind, Except.bind]
  | ok a => simp [bind, Except.bind]

theorem map_eq_ok {ε α β : Type} {x : Except ε α} {f : α → β} {b : β} :
    x.map f = .ok b ↔ ∃ a, x = .ok a ∧ f a = b := by
  cases x <;> simp [Except.map]

theorem mapError_eq_ok {ε ε' α : Type} {f : ε → ε'} {x : Except ε α} {a : α} :
    x.mapError f = .ok a ↔ x = .ok a := by
  cases x <;> simp [Except.mapError]

/-! ## Written members -/

/-- The members that are written for fields: those whose values are there. -/
def written (shape : RecordShape φ) (w : φ → Option Json) (fs : List φ) : List (String × Json) :=
  fs.filterMap fun f => (w f).map (shape.key f, ·)

theorem written_cons_some {shape : RecordShape φ} {w : φ → Option Json} {f : φ} {fs : List φ}
    {v : Json} (h : w f = some v) :
    written shape w (f :: fs) = (shape.key f, v) :: written shape w fs := by
  rw [written, List.filterMap_cons_some (by rw [h]; rfl), written]

theorem written_cons_none {shape : RecordShape φ} {w : φ → Option Json} {f : φ} {fs : List φ}
    (h : w f = none) : written shape w (f :: fs) = written shape w fs := by
  rw [written, List.filterMap_cons_none (by rw [h]; rfl), written]

theorem depthOfMembers_written {shape : RecordShape φ} {w : φ → Option Json} {fs : List φ}
    {n : Nat} : Json.depthOfMembers (written shape w fs) ≤ n ↔
      ∀ f ∈ fs, ∀ v, w f = some v → v.depth ≤ n := by
  rw [Json.depthOfMembers_le]
  constructor
  · intro h f hf v hv
    exact h (shape.key f, v) (List.mem_filterMap.2 ⟨f, hf, by rw [hv]; rfl⟩)
  · intro h m hm
    obtain ⟨f, hf, hmap⟩ := List.mem_filterMap.1 hm
    obtain ⟨v, hv, rfl⟩ := Option.map_eq_some_iff.1 hmap
    exact h f hf v hv

variable [DecidableEq φ] {shape : RecordShape φ} {bound : Nat}
  {set : ρ → φ → (value : Syntax) → sizeOf value < bound → Except Error ρ}

theorem readMembers_known {key : String} {value : Syntax} {rest : Members} {f : φ}
    {seen : List φ} (hkey : shape.ofKey? key = some f) (hseen : f ∉ seen)
    (hbound : sizeOf (Members.more (.name key) value rest) < bound) (r : ρ) :
    readMembers shape bound set (.more (.name key) value rest) hbound seen r =
      set r f value (by simp at hbound; omega) >>= fun r =>
        readMembers shape bound set rest (by simp at hbound; omega) (f :: seen) r := by
  simp only [readMembers, Json.Key.name?, Except.mapError, hkey, if_neg hseen, bind, Except.bind]

theorem readMembers_unknown {key : String} {value : Syntax} {rest : Members} {seen : List φ}
    (hkey : shape.ofKey? key = none) (hskip : value.skip = .ok ())
    (hbound : sizeOf (Members.more (.name key) value rest) < bound) (r : ρ) :
    readMembers shape bound set (.more (.name key) value rest) hbound seen r =
      readMembers shape bound set rest (by simp at hbound; omega) seen r := by
  simp only [readMembers, Json.Key.name?, Except.mapError, hkey, hskip, bind, Except.bind]

/-- **Written members are read field by field**, in the order in which they are written. -/
theorem readMembers_written {w : φ → Option Json} {step : ρ → φ → Except Error ρ} (fs : List φ)
    (hkey : ∀ f ∈ fs, shape.ofKey? (shape.key f) = some f) (hnodup : fs.Nodup)
    (hset : ∀ r, ∀ f ∈ fs, ∀ v h, w f = some v → set r f (Syntax.ofJson v) h = step r f)
    (seen : List φ) (hseen : ∀ f ∈ fs, f ∉ seen) (members : Members)
    (hmembers : members = Members.ofList (written shape w fs)) (hbound : sizeOf members < bound)
    (r : ρ) :
    readMembers shape bound set members hbound seen r =
      fs.foldlM (fun r f => if (w f).isSome then step r f else .ok r) r := by
  induction fs generalizing seen r members with
  | nil =>
    subst hmembers
    rfl
  | cons f fs ih =>
    have hfs : ∀ g ∈ fs, g ∈ f :: fs := fun g => List.mem_cons_of_mem f
    obtain ⟨hf, hnodup'⟩ := List.nodup_cons.1 hnodup
    have ih' := ih (fun g hg => hkey g (hfs g hg)) hnodup' (fun r g hg => hset r g (hfs g hg))
    rw [List.foldlM_cons]
    cases hw : w f with
    | none =>
      rw [written_cons_none hw] at hmembers
      exact ih' seen (fun g hg => hseen g (hfs g hg)) members hmembers hbound r
    | some v =>
      rw [written_cons_some hw, Members.ofList] at hmembers
      subst hmembers
      rw [readMembers_known (hkey f (by simp)) (hseen f (by simp)),
        hset r f (by simp) v _ hw]
      -- a field that was read does not come again
      have hseen' : ∀ g ∈ fs, g ∉ f :: seen := by
        intro g hg hmem
        rcases List.mem_cons.1 hmem with rfl | hmem
        · exact hf hg
        · exact hseen g (hfs g hg) hmem
      exact bind_congr fun r' => ih' (f :: seen) hseen' _ rfl _ r'

theorem sizeOf_lt_object (members : Members) :
    sizeOf members < sizeOf (Syntax.object members) := by
  simp

theorem readRecord_object (origin : Origin) (shape : RecordShape φ) (r : ρ) (members : Members)
    (set : Origin → ρ → φ → (value : Syntax) → sizeOf value < sizeOf (Syntax.object members) →
      Except Error ρ) :
    readRecord origin shape r (.object members) set =
      origin.inner >>= fun inner =>
        readMembers shape _ (set inner) members (sizeOf_lt_object members) [] r := rfl

/-! ## Steps that succeed -/

omit [DecidableEq φ] in
theorem foldlM_written {w : φ → Option Json} {step : ρ → φ → Except Error ρ} {copy : ρ → φ → ρ}
    {fs : List φ} (hstep : ∀ r, ∀ f ∈ fs, w f ≠ none → step r f = .ok (copy r f)) (r : ρ) :
    fs.foldlM (fun r f => if (w f).isSome then step r f else .ok r) r =
      .ok (fs.foldl (fun r f => if (w f).isSome then copy r f else r) r) := by
  induction fs generalizing r with
  | nil => rfl
  | cons f fs ih =>
    have ih' := ih fun r g hg => hstep r g (List.mem_cons_of_mem f hg)
    rw [List.foldlM_cons, List.foldl_cons]
    cases hw : w f with
    | none => exact ih' r
    | some v =>
      rw [hstep r f (by simp) (by simp [hw])]
      exact ih' (copy r f)

/-! ## What reading preserves -/

section Preserves

variable {P : ρ → Prop} {d : Nat}

theorem readMembers_preserves
    (hset : ∀ r f v h r', P r → v.depth ≤ d → set r f v h = .ok r' → P r') :
    ∀ (members : Members) (hbound : sizeOf members < bound) (seen : List φ) (r r' : ρ),
      members.depth ≤ d → P r → readMembers shape bound set members hbound seen r = .ok r' → P r'
  | .done, _, _, r, r', _, hr, h => by
    cases h
    exact hr
  | .fault f, _, _, r, r', _, _, h => by cases h
  | .more key value rest, hbound, seen, r, r', hd, hr, h => by
    have hdepth : value.depth ≤ d ∧ rest.depth ≤ d := by
      rw [Members.depth] at hd
      omega
    rw [readMembers, bind_eq_ok] at h
    obtain ⟨name, -, h⟩ := h
    split at h
    · obtain ⟨-, -, h⟩ := bind_eq_ok.1 h
      exact readMembers_preserves hset rest _ seen r r' hdepth.2 hr h
    · next f _ =>
      split at h
      · cases h
      · obtain ⟨r'', hf, h⟩ := bind_eq_ok.1 h
        exact readMembers_preserves hset rest _ (f :: seen) r'' r' hdepth.2
          (hset r f value _ r'' hr hdepth.1 hf) h

omit [DecidableEq φ] in
theorem readItems_preserves
    (hset : ∀ r f v h r', P r → v.depth ≤ d → set r f v h = .ok r' → P r') :
    ∀ (items : Items) (hbound : sizeOf items < bound) (fs : List φ) (r : ρ) (out : ρ × Items),
      items.depth ≤ d → P r → readItems bound set items hbound fs r = .ok out → P out.1
  | items, _, [], r, out, _, hr, h => by
    rw [readItems] at h
    cases h
    exact hr
  | .done, _, _ :: _, r, out, _, hr, h => by
    cases h
    exact hr
  | .fault f, _, _ :: _, r, out, _, _, h => by cases h
  | .more item rest, hbound, f :: fs, r, out, hd, hr, h => by
    have hdepth : item.depth ≤ d ∧ rest.depth ≤ d := by
      rw [Items.depth] at hd
      omega
    rw [readItems, bind_eq_ok] at h
    obtain ⟨r'', hf, h⟩ := h
    exact readItems_preserves hset rest _ fs r'' out hdepth.2
      (hset r f item _ r'' hr hdepth.1 hf) h

/-- **What every field that is read preserves holds of the record**; and a record is an object or an
array. -/
theorem readRecord_preserves {origin : Origin} {shape : RecordShape φ} {s : Syntax}
    {set : Origin → ρ → φ → (value : Syntax) → sizeOf value < sizeOf s → Except Error ρ}
    (hset : ∀ inner r f v h r', origin.inner = .ok inner → P r → v.depth < s.depth →
      set inner r f v h = .ok r' → P r')
    {r r' : ρ} (hr : P r) (h : readRecord origin shape r s set = .ok r') :
    0 < s.depth ∧ P r' := by
  cases s with
  | object members =>
    rw [readRecord_object, bind_eq_ok] at h
    obtain ⟨inner, hinner, h⟩ := h
    refine ⟨Nat.succ_pos _, readMembers_preserves (fun r f v hv r' hr hd hf => ?_) members _ [] r r'
      (Nat.le_refl _) hr h⟩
    exact hset inner r f v hv r' hinner hr (Nat.lt_succ_of_le hd) hf
  | array items =>
    rw [readRecord, bind_eq_ok] at h
    obtain ⟨inner, hinner, h⟩ := h
    obtain ⟨out, hout, h⟩ := bind_eq_ok.1 h
    obtain ⟨-, -, h⟩ := bind_eq_ok.1 h
    cases h
    refine ⟨Nat.succ_pos _, readItems_preserves (fun r f v hv r' hr hd hf => ?_) items _ _ r out
      (Nat.le_refl _) hr hout⟩
    exact hset inner r f v hv r' hinner hr (Nat.lt_succ_of_le hd) hf
  | _ => cases h

end Preserves

end StatesLang.Decode
