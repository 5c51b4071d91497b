import Mathlib.Tactic.SplitIfs
import StatesLang.Number.Literal

/-!
# The grammar of numbers

* **`Literal.natural?_eq_some`**: digits and their value.
* `Literal.uint64?_plus`, `Literal.uint64?_unsigned`: 64 bits, behind a plus sign or none.
* `Literal.IsDecimalChar`: the characters of decimals.
* `Literal.int64?_chars`, `Literal.decimal?_chars`: numbers hold no other characters.
-/

namespace StatesLang.Literal

/-- **A natural number is digits, and says their value.** -/
theorem natural?_eq_some {cs : List Char} {n : Nat} :
    natural? cs = some n ↔ cs ≠ [] ∧ (∀ c ∈ cs, c.isDigit = true) ∧ n = digitsValue cs := by
  unfold natural?
  constructor
  · intro h
    split_ifs at h with hcs
    exact ⟨hcs.1, List.all_eq_true.1 hcs.2, (Option.some.inj h).symm⟩
  · rintro ⟨hne, hds, rfl⟩
    exact if_pos ⟨hne, List.all_eq_true.2 hds⟩

theorem uint64_eq_some {n : Nat} {i : UInt64} :
    (if n < 0x10000000000000000 then some (UInt64.ofNat n) else none) = some i ↔ n = i.toNat := by
  constructor
  · intro h
    split_ifs at h with hlt
    rw [← Option.some.inj h, UInt64.toNat_ofNat', Nat.mod_eq_of_lt hlt]
  · rintro rfl
    rw [if_pos i.toNat_lt, UInt64.ofNat_toNat]

theorem uint64?_plus {ds : List Char} {i : UInt64} :
    uint64? ('+' :: ds) = some i ↔ natural? ds = some i.toNat := by
  unfold uint64?
  dsimp only
  split
  · next n hn =>
    have hds : natural? ds = some n := hn
    rw [hds, Option.some.injEq, uint64_eq_some]
  · next hn =>
    have hds : natural? ds = none := hn
    simp [hds]

theorem uint64?_unsigned {ds : List Char} (hds : ds.head? ≠ some '+') {i : UInt64} :
    uint64? ds = some i ↔ natural? ds = some i.toNat := by
  unfold uint64?
  dsimp only
  split
  · next n hn =>
    split at hn
    · exact absurd rfl hds
    · rw [hn, Option.some.injEq, uint64_eq_some]
  · next hn =>
    split at hn
    · exact absurd rfl hds
    · simp [hn]

/-- The characters of decimals. -/
def IsDecimalChar (c : Char) : Prop :=
  c.isDigit = true ∨ c ∈ ['+', '-', '.', 'e', 'E']

theorem splitSign_eq (cs : List Char) :
    ∃ sign, cs = sign ++ (splitSign cs).2 ∧ ∀ c ∈ sign, IsDecimalChar c := by
  unfold splitSign
  split
  · exact ⟨['-'], rfl, fun c hc => .inr (by simp [List.mem_singleton.1 hc])⟩
  · exact ⟨['+'], rfl, fun c hc => .inr (by simp [List.mem_singleton.1 hc])⟩
  · exact ⟨[], rfl, nofun⟩

theorem integer?_chars {cs : List Char} {n : Int} (h : integer? cs = some n) :
    (∃ c ∈ cs, c.isDigit = true) ∧ ∀ c ∈ cs, IsDecimalChar c := by
  obtain ⟨sign, hcs, hsign⟩ := splitSign_eq cs
  obtain ⟨m, hm, -⟩ := Option.map_eq_some_iff.1 h
  obtain ⟨k, hk, -⟩ := Option.bind_eq_some_iff.1 hm
  have hdigits : natural? (splitSign cs).2 = some k := hk
  obtain ⟨hne, hds, -⟩ := natural?_eq_some.1 hdigits
  obtain ⟨d, ds, hd⟩ := List.exists_cons_of_ne_nil hne
  rw [hcs]
  refine ⟨⟨d, by simp [hd], hds d (by simp [hd])⟩, fun c hc => ?_⟩
  rcases List.mem_append.1 hc with hc | hc
  · exact hsign c hc
  · exact .inl (hds c hc)

theorem exponent?_chars {cs : List Char} {n : Int} (h : exponent? cs = some n) :
    ∀ c ∈ cs, IsDecimalChar c := by
  cases cs with
  | nil => exact nofun
  | cons e cs =>
    simp only [exponent?] at h
    split_ifs at h with he
    rintro c (_ | ⟨_, hc⟩)
    · exact .inr (by rcases he with rfl | rfl <;> simp)
    · exact (integer?_chars h).2 c hc

theorem mem_takeWhile_digit {cs : List Char} {c : Char} (h : c ∈ cs.takeWhile Char.isDigit) :
    c.isDigit = true :=
  List.all_eq_true.1 List.all_takeWhile c h

theorem fraction?_chars {cs ds : List Char} {n : Int} (h : fraction? cs = some (ds, n)) :
    (∀ c ∈ cs, IsDecimalChar c) ∧ ∀ d ∈ ds, d ∈ cs ∧ d.isDigit = true := by
  unfold fraction? at h
  split at h
  · next cs =>
    obtain ⟨e, he, hp⟩ := Option.map_eq_some_iff.1 h
    cases hp
    refine ⟨?_, fun d hd => ⟨?_, mem_takeWhile_digit hd⟩⟩
    · rintro c (_ | ⟨_, hc⟩)
      · exact .inr (by simp)
      · rw [← List.takeWhile_append_dropWhile (p := Char.isDigit) (l := cs)] at hc
        rcases List.mem_append.1 hc with hc | hc
        · exact .inl (mem_takeWhile_digit hc)
        · exact exponent?_chars he c hc
    · exact .tail _ ((List.takeWhile_sublist _).subset hd)
  · obtain ⟨e, he, hp⟩ := Option.map_eq_some_iff.1 h
    cases hp
    exact ⟨exponent?_chars he, nofun⟩

theorem decimal?_chars {cs : List Char} {x : Extended} (h : decimal? cs = some x) :
    (∃ c ∈ cs, c.isDigit = true) ∧ ∀ c ∈ cs, IsDecimalChar c := by
  obtain ⟨sign, hcs, hsign⟩ := splitSign_eq cs
  have hrest : ∀ {negative rest}, magnitude? negative rest = some x →
      (∃ c ∈ rest, c.isDigit = true) ∧ ∀ c ∈ rest, IsDecimalChar c := by
    intro negative rest h
    unfold magnitude? at h
    dsimp only at h
    have hsplit := List.takeWhile_append_dropWhile (p := Char.isDigit) (l := rest)
    split at h
    · next fraction e hf =>
      obtain ⟨hchars, hdigits⟩ := fraction?_chars hf
      split_ifs at h with hnone
      rw [← hsplit]
      constructor
      · cases hw : rest.takeWhile Char.isDigit with
        | cons d ds => exact ⟨d, by simp, mem_takeWhile_digit (by rw [hw]; simp)⟩
        | nil =>
          cases fraction with
          | nil => exact absurd ⟨hw, rfl⟩ hnone
          | cons d ds =>
            obtain ⟨hd, hdigit⟩ := hdigits d (by simp)
            exact ⟨d, by simpa using hd, hdigit⟩
      · intro c hc
        rcases List.mem_append.1 hc with hc | hc
        · exact .inl (mem_takeWhile_digit hc)
        · exact hchars c hc
    · cases h
  obtain ⟨⟨d, hd, hdigit⟩, hchars⟩ := hrest h
  rw [hcs]
  refine ⟨⟨d, List.mem_append_right _ hd, hdigit⟩, fun c hc => ?_⟩
  rcases List.mem_append.1 hc with hc | hc
  · exact hsign c hc
  · exact hchars c hc

theorem int64?_chars {cs : List Char} {n : Int64} (h : int64? cs = some n) :
    ∀ c ∈ cs, IsDecimalChar c := by
  unfold int64? at h
  split at h
  · next m hm => exact (integer?_chars hm).2
  · cases h

end StatesLang.Literal
