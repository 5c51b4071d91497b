import StatesLang.Json.Reader
import StatesLang.Proofs.RoundTrip.Digits

/-!
# Numbers read back

A number has no closing mark: it ends where the text cannot go on with it.

* `Json.Ends`: texts that no number goes on with.
* `Json.IsLocal`: a scan whose outcome depends on the characters of the number alone.
* **`Json.isLocal_scanNumber`**: the scan of numbers is such a scan.
* `Json.scanNumber_toDigits`: the digits of an integer of 64 bits are scanned as its magnitude.
-/

namespace StatesLang.Json

open Literal (NoDigit digitValue digitsValue)

/-- A text that no number goes on with. -/
def Ends (cs : List Char) : Prop :=
  NoDigit cs ∧ ∀ c ∈ cs.head?, c ≠ '.' ∧ c ≠ 'e' ∧ c ≠ 'E'

theorem ends_nil : Ends [] :=
  ⟨fun _ h => (by cases h), fun _ h => (by cases h)⟩

theorem ends_cons {c : Char} (cs : List Char)
    (h : c.isDigit = false ∧ c ≠ '.' ∧ c ≠ 'e' ∧ c ≠ 'E') : Ends (c :: cs) := by
  refine ⟨Literal.noDigit_cons cs h.1, fun d hd => ?_⟩
  rw [List.head?_cons, Option.mem_some_iff] at hd
  rw [← hd]
  exact h.2

theorem noDigit_replace {used rest rest' : List Char} (h : NoDigit (used ++ rest))
    (hr : NoDigit rest') : NoDigit (used ++ rest') := by
  cases used with
  | nil => exact hr
  | cons c cs => exact h

theorem noDigit_dropWhile (cs : List Char) : NoDigit (cs.dropWhile Char.isDigit) := by
  intro c hc
  have hhead := List.head?_dropWhile_not Char.isDigit cs
  rw [hc] at hhead
  simpa using hhead

theorem startsWithDigit_eq_false {cs : List Char} : startsWithDigit cs = false ↔ NoDigit cs := by
  cases cs <;> simp [startsWithDigit, NoDigit]

/-! ## Significands -/

/-- A text that a significand does not go on with: it has no digit there, or no room for it. -/
def Stops (m : Nat) (cs : List Char) : Prop :=
  ∀ d ∈ cs.head?, ¬ (d.isDigit = true ∧ 10 * m + digitValue d < 0x10000000000000000)

theorem Stops.of_noDigit {m : Nat} {cs : List Char} (h : NoDigit cs) : Stops m cs := by
  rintro d hd ⟨hd', -⟩
  rw [h d hd] at hd'
  cases hd'

theorem Stops.replace {m : Nat} {used rest rest' : List Char} (h : Stops m (used ++ rest))
    (hr : NoDigit rest') : Stops m (used ++ rest') := by
  cases used with
  | nil => exact .of_noDigit hr
  | cons c cs => exact h

theorem digitValue_lt {d : Char} (h : d.isDigit = true) : digitValue d < 10 := by
  have hd : d.toNat ≤ '9'.toNat := by
    simp only [Char.isDigit, Bool.and_eq_true, decide_eq_true_eq] at h
    exact h.2
  have h9 : '9'.toNat = 57 := rfl
  have h0 : '0'.toNat = 48 := rfl
  rw [digitValue]
  omega

/-- A significand has room for its first digit. -/
theorem Stops.noDigit_zero {cs : List Char} (h : Stops 0 cs) : NoDigit cs := by
  intro d hd
  refine Bool.eq_false_iff.2 fun hdigit => h d hd ⟨hdigit, ?_⟩
  have hlt := digitValue_lt hdigit
  omega

theorem takeSignificand_of_stops {m : Nat} {cs : List Char} (h : Stops m cs) :
    takeSignificand m cs = (m, cs) := by
  cases cs with
  | nil => rfl
  | cons d rest =>
    rw [takeSignificand]
    exact if_neg (h d rfl)

theorem takeSignificand_eq {n m : Nat} {cs r : List Char} (h : takeSignificand n cs = (m, r)) :
    ∃ ds, cs = ds ++ r ∧ (ds = [] → m = n) ∧ Stops m r ∧
      ∀ rest, Stops m rest → takeSignificand n (ds ++ rest) = (m, rest) := by
  induction cs generalizing n with
  | nil =>
    obtain ⟨rfl, rfl⟩ := Prod.mk.inj h
    exact ⟨[], rfl, fun _ => rfl, .of_noDigit ends_nil.1,
      fun rest hr => takeSignificand_of_stops hr⟩
  | cons d cs ih =>
    rw [takeSignificand] at h
    split at h
    · next hd =>
      obtain ⟨ds, rfl, -, hm, hall⟩ := ih h
      refine ⟨d :: ds, rfl, fun hnil => (by cases hnil), hm, fun rest hr => ?_⟩
      rw [List.cons_append, takeSignificand, if_pos hd, hall rest hr]
    · next hd =>
      obtain ⟨rfl, rfl⟩ := Prod.mk.inj h
      have hs : Stops n (d :: cs) := by
        intro c hc
        rw [List.head?_cons, Option.mem_some_iff] at hc
        rw [← hc]
        exact hd
      exact ⟨[], rfl, fun _ => rfl, hs, fun rest hr => takeSignificand_of_stops hr⟩

/-! ## Scans that look no further than their number -/

/-- A scan that ends in a value has read some first characters of the text, and reads them alike
before any other end. -/
def IsLocal (scan : List Char → Token Number) : Prop :=
  ∀ cs n r, scan cs = .value n r →
    ∃ used, cs = used ++ r ∧ ∀ rest, Ends rest → scan (used ++ rest) = .value n rest

theorem scaledNumber_eq {negative : Bool} {m : Nat} {e : Int} {cs r : List Char} {n : Number}
    (h : scaledNumber negative m e cs = .value n r) :
    r = cs ∧ ∀ rest, scaledNumber negative m e rest = .value n rest := by
  unfold scaledNumber at h ⊢
  split at h
  · cases h
    exact ⟨rfl, fun rest => rfl⟩
  · cases h

theorem exponentSign_eq {cs ds : List Char} {below : Bool} (h : exponentSign cs = (below, ds)) :
    ∃ sign, cs = sign ++ ds ∧
      ∀ d ds', d.isDigit = true → exponentSign (sign ++ d :: ds') = (below, d :: ds') := by
  unfold exponentSign at h
  split at h
  · obtain ⟨rfl, rfl⟩ := Prod.mk.inj h
    exact ⟨['+'], rfl, fun d ds' _ => rfl⟩
  · obtain ⟨rfl, rfl⟩ := Prod.mk.inj h
    exact ⟨['-'], rfl, fun d ds' _ => rfl⟩
  · obtain ⟨rfl, rfl⟩ := Prod.mk.inj h
    refine ⟨[], rfl, fun d ds' hd => ?_⟩
    rw [List.nil_append]
    unfold exponentSign
    split
    · next he => cases he; exact absurd hd (by decide)
    · next he => cases he; exact absurd hd (by decide)
    · rfl

theorem isLocal_scanExponent (negative : Bool) (m : Nat) (e : Int) :
    IsLocal (scanExponent negative m e) := by
  intro cs n r h
  rcases hs : exponentSign cs with ⟨below, ds⟩
  obtain ⟨sign, hcs, hsign⟩ := exponentSign_eq hs
  simp only [scanExponent, hs] at h
  cases hstart : startsWithDigit ds with
  | false => rw [hstart] at h; cases h
  | true =>
    rw [hstart, if_pos rfl] at h
    obtain ⟨d, ds', rfl⟩ : ∃ d ds', ds = d :: ds' := by
      cases ds with
      | nil => cases hstart
      | cons d ds' => exact ⟨d, ds', rfl⟩
    have hd : d.isDigit = true := hstart
    have hall : ∀ c ∈ (d :: ds').takeWhile Char.isDigit, c.isDigit = true :=
      List.all_eq_true.1 List.all_takeWhile
    -- the rest of the scan is the same for every text behind the digits
    have hsame : ∀ rest, Ends rest →
        scanExponent negative m e (sign ++ (d :: ds').takeWhile Char.isDigit ++ rest) =
          let x := digitsValue ((d :: ds').takeWhile Char.isDigit)
          if x ≤ maxExponent then scaledNumber negative m (if below then e - x else e + x) rest
          else if m ≠ 0 ∧ !below then .unfit .numberOutOfRange rest
          else .value (.real (.zero negative)) rest := by
      intro rest hr
      have htake := Literal.takeWhile_digits hall hr.1
      have hdrop := Literal.dropWhile_digits hall hr.1
      have hcons : (d :: ds').takeWhile Char.isDigit = d :: ds'.takeWhile Char.isDigit :=
        List.takeWhile_cons_of_pos hd
      have hsigned : exponentSign (sign ++ (d :: ds').takeWhile Char.isDigit ++ rest) =
          (below, (d :: ds').takeWhile Char.isDigit ++ rest) := by
        rw [hcons, List.append_assoc]
        exact hsign d _ hd
      have hstarts : startsWithDigit ((d :: ds').takeWhile Char.isDigit ++ rest) = true := by
        rw [hcons]
        exact hd
      simp only [scanExponent, hsigned, hstarts, if_true, htake, hdrop]
    refine ⟨sign ++ (d :: ds').takeWhile Char.isDigit, ?_, fun rest hr => ?_⟩
    · split at h
      · rw [(scaledNumber_eq h).1, hcs, List.append_assoc, List.takeWhile_append_dropWhile]
      · split at h
        · cases h
        · cases h
          rw [hcs, List.append_assoc, List.takeWhile_append_dropWhile]
    · rw [hsame rest hr]
      simp only
      split at h
      · next hx =>
        rw [if_pos hx]
        exact (scaledNumber_eq h).2 rest
      · next hx =>
        rw [if_neg hx]
        split at h
        · cases h
        · next hz =>
          cases h
          rw [if_neg hz]

theorem isLocal_scanTail (negative : Bool) (m : Nat) (e : Int) :
    IsLocal (scanTail negative m e) := by
  intro cs n r h
  have hend : ∀ rest, Ends rest → scaledNumber negative m e rest = .value n rest →
      scanTail negative m e rest = .value n rest := by
    intro rest hr hn
    cases rest with
    | nil => exact hn
    | cons c cs =>
      have hc := hr.2 c rfl
      rw [scanTail, if_neg (by simp [hc])]
      exact hn
  cases cs with
  | nil =>
    obtain ⟨rfl, hall⟩ := scaledNumber_eq h
    exact ⟨[], rfl, fun rest hr => hend rest hr (hall rest)⟩
  | cons c cs =>
    rw [scanTail] at h
    split at h
    · next hc =>
      obtain ⟨used, rfl, hall⟩ := isLocal_scanExponent negative m e cs n r h
      refine ⟨c :: used, rfl, fun rest hr => ?_⟩
      rw [List.cons_append, scanTail, if_pos hc]
      exact hall rest hr
    · obtain ⟨rfl, hall⟩ := scaledNumber_eq h
      exact ⟨[], rfl, fun rest hr => hend rest hr (hall rest)⟩

/-- Digits that a significand has no room for do not change what follows them. -/
theorem stops_of_dropWhile {m : Nat} {cs used r rest : List Char} (hm : Stops m cs)
    (hcs : cs.dropWhile Char.isDigit = used ++ r) (hr : NoDigit rest) :
    Stops m (cs.takeWhile Char.isDigit ++ (used ++ rest)) := by
  have hu : NoDigit (used ++ r) := hcs ▸ noDigit_dropWhile cs
  have hstop : Stops m ((cs.takeWhile Char.isDigit ++ used) ++ r) := by
    rwa [List.append_assoc, ← hcs, List.takeWhile_append_dropWhile]
  rw [← List.append_assoc]
  exact hstop.replace hr

theorem startsWithDigit_takeWhile {ds cs : List Char} (rest : List Char)
    (h : startsWithDigit (ds ++ cs) = true) :
    startsWithDigit (ds ++ (cs.takeWhile Char.isDigit ++ rest)) = true := by
  cases ds with
  | cons d ds => exact h
  | nil =>
    cases cs with
    | nil => cases h
    | cons d cs =>
      have hd : d.isDigit = true := h
      rw [List.takeWhile_cons_of_pos hd]
      exact hd

theorem isLocal_scanFraction (negative : Bool) (m : Nat) (e : Int) :
    IsLocal (scanFraction negative m e) := by
  intro cs n r h
  rcases ht : takeSignificand m cs with ⟨m', r'⟩
  obtain ⟨ds, rfl, -, hstops, hall⟩ := takeSignificand_eq ht
  have hlen : ∀ cs : List Char, (ds ++ cs).length - cs.length = ds.length := by
    intro cs
    rw [List.length_append, Nat.add_sub_cancel]
  rw [scanFraction, ht] at h
  split at h
  · next hstart =>
    simp only [hlen] at h
    obtain ⟨used, hused, hlocal⟩ := isLocal_scanTail _ _ _ _ n r h
    refine ⟨ds ++ (r'.takeWhile Char.isDigit ++ used), ?_, fun rest hr => ?_⟩
    · rw [List.append_assoc, List.append_assoc, ← hused, List.takeWhile_append_dropWhile]
    · have hdigits : ∀ c ∈ r'.takeWhile Char.isDigit, c.isDigit = true :=
        List.all_eq_true.1 List.all_takeWhile
      have hu : NoDigit (used ++ rest) :=
        noDigit_replace (hused ▸ noDigit_dropWhile r' : NoDigit (used ++ r)) hr.1
      rw [List.append_assoc, List.append_assoc, scanFraction,
        if_pos (startsWithDigit_takeWhile _ hstart), hall _ (stops_of_dropWhile hstops hused hr.1)]
      simp only [hlen, Literal.dropWhile_digits hdigits hu]
      exact hlocal rest hr
  · cases h

theorem scanAfterWhole_of_ends {negative : Bool} {m : Nat} {ds rest : List Char}
    (hds : ∀ c ∈ ds, c.isDigit = true) (hr : Ends rest) :
    scanAfterWhole negative m (ds ++ rest) =
      if ds = [] then .value (wholeNumber negative m) rest
      else scaledNumber negative m ds.length rest := by
  rw [scanAfterWhole]
  simp only [Literal.takeWhile_digits hds hr.1, Literal.dropWhile_digits hds hr.1]
  split
  · exact absurd rfl (hr.2 _ rfl).1
  · split
    · exact absurd rfl (hr.2 _ rfl).2.1
    · exact absurd rfl (hr.2 _ rfl).2.2
    · rfl

theorem scanAfterWhole_of_exponent {negative : Bool} {m : Nat} {ds rest : List Char} {c : Char}
    (hds : ∀ d ∈ ds, d.isDigit = true) (hc : c = 'e' ∨ c = 'E') :
    scanAfterWhole negative m (ds ++ c :: rest) = scanExponent negative m ds.length rest := by
  have hr : NoDigit (c :: rest) := Literal.noDigit_cons _ (by rcases hc with rfl | rfl <;> decide)
  rw [scanAfterWhole]
  simp only [Literal.takeWhile_digits hds hr, Literal.dropWhile_digits hds hr]
  rcases hc with rfl | rfl <;> simp [scanTail]

theorem scanAfterWhole_of_point {negative : Bool} {m : Nat} {ds rest : List Char}
    (hds : ∀ d ∈ ds, d.isDigit = true) :
    scanAfterWhole negative m (ds ++ '.' :: rest) = scanFraction negative m ds.length rest := by
  have hr : NoDigit ('.' :: rest) := Literal.noDigit_cons _ (by decide)
  rw [scanAfterWhole]
  simp only [Literal.takeWhile_digits hds hr, Literal.dropWhile_digits hds hr]

theorem isLocal_scanAfterWhole (negative : Bool) (m : Nat) :
    IsLocal (scanAfterWhole negative m) := by
  intro cs n r h
  obtain ⟨ds, tail, rfl, hds, htail⟩ : ∃ ds tail, cs = ds ++ tail ∧
      (∀ c ∈ ds, c.isDigit = true) ∧ NoDigit tail :=
    ⟨_, _, List.takeWhile_append_dropWhile.symm, List.all_eq_true.1 List.all_takeWhile,
      noDigit_dropWhile cs⟩
  by_cases hpoint : ∃ rest, tail = '.' :: rest
  · obtain ⟨rest, rfl⟩ := hpoint
    rw [scanAfterWhole_of_point hds] at h
    obtain ⟨used, rfl, hlocal⟩ := isLocal_scanFraction _ _ _ _ n r h
    refine ⟨ds ++ '.' :: used, by simp, fun rest hr => ?_⟩
    rw [List.append_assoc, List.cons_append, scanAfterWhole_of_point hds]
    exact hlocal rest hr
  by_cases hexp : ∃ c rest, tail = c :: rest ∧ (c = 'e' ∨ c = 'E')
  · obtain ⟨c, rest, rfl, hc⟩ := hexp
    rw [scanAfterWhole_of_exponent hds hc] at h
    obtain ⟨used, rfl, hlocal⟩ := isLocal_scanExponent _ _ _ _ n r h
    refine ⟨ds ++ c :: used, by simp, fun rest hr => ?_⟩
    rw [List.append_assoc, List.cons_append, scanAfterWhole_of_exponent hds hc]
    exact hlocal rest hr
  · have hends : Ends tail := by
      refine ⟨htail, fun c hc => ?_⟩
      cases tail with
      | nil => cases hc
      | cons c' rest =>
        rw [List.head?_cons, Option.mem_some_iff] at hc
        subst hc
        refine ⟨?_, ?_, ?_⟩
        · rintro rfl
          exact hpoint ⟨rest, rfl⟩
        · rintro rfl
          exact hexp ⟨_, rest, rfl, Or.inl rfl⟩
        · rintro rfl
          exact hexp ⟨_, rest, rfl, Or.inr rfl⟩
    rw [scanAfterWhole_of_ends hds hends] at h
    have hall : r = tail ∧ ∀ rest, Ends rest →
        scanAfterWhole negative m (ds ++ rest) = .value n rest := by
      split at h
      · next hnil =>
        cases h
        exact ⟨rfl, fun rest hr => by rw [scanAfterWhole_of_ends hds hr, if_pos hnil]⟩
      · next hnil =>
        obtain ⟨rfl, hall⟩ := scaledNumber_eq h
        exact ⟨rfl, fun rest hr => by
          rw [scanAfterWhole_of_ends hds hr, if_neg hnil]; exact hall rest⟩
    obtain ⟨rfl, hall⟩ := hall
    exact ⟨ds, rfl, hall⟩

/-- **A number is scanned alike** whatever follows it. -/
theorem isLocal_scanNumber (negative : Bool) : IsLocal (scanNumber negative) := by
  intro cs n r h
  unfold scanNumber at h
  split at h
  · next rest =>
    split at h
    · cases h
    · next hz =>
      obtain ⟨used, rfl, hlocal⟩ := isLocal_scanAfterWhole _ _ _ n r h
      refine ⟨'0' :: used, rfl, fun rest hr => ?_⟩
      have hz' : startsWithDigit (used ++ rest) = false :=
        startsWithDigit_eq_false.2 (noDigit_replace
          (startsWithDigit_eq_false.1 (Bool.eq_false_iff.2 hz)) hr.1)
      rw [List.cons_append, scanNumber, hz', if_neg (by decide)]
      exact hlocal rest hr
  · next hzero =>
    split at h
    · next hstart =>
      rcases ht : takeSignificand 0 cs with ⟨m, r'⟩
      obtain ⟨ds, rfl, hnil, hstops, hall⟩ := takeSignificand_eq ht
      rw [ht] at h
      obtain ⟨used, rfl, hlocal⟩ := isLocal_scanAfterWhole _ _ _ n r h
      refine ⟨ds ++ used, (List.append_assoc ..).symm, fun rest hr => ?_⟩
      -- the first digit has room, so it is part of the significand
      obtain ⟨d, ds, rfl⟩ : ∃ d ds', ds = d :: ds' := by
        cases ds with
        | cons d ds' => exact ⟨d, ds', rfl⟩
        | nil =>
          rw [hnil rfl] at hstops
          have hnone := startsWithDigit_eq_false.2 hstops.noDigit_zero
          rw [List.nil_append, hnone] at hstart
          cases hstart
      have hd : d ≠ '0' := by
        rintro rfl
        exact hzero _ rfl
      have htake := hall _ (hstops.replace hr.1)
      have hstart' : startsWithDigit (d :: ds ++ (used ++ rest)) = true := hstart
      rw [List.append_assoc]
      unfold scanNumber
      split
      · next he => exact absurd (List.cons.inj he).1 hd
      · rw [if_pos hstart', htake]
        exact hlocal rest hr
    · cases h

/-! ## Integers -/

theorem takeSignificand_digits {ds rest : List Char} {n : Nat}
    (hds : ∀ c ∈ ds, c.isDigit = true)
    (hn : ds.foldl (fun n d => 10 * n + digitValue d) n < 0x10000000000000000)
    (hr : NoDigit rest) :
    takeSignificand n (ds ++ rest) =
      (ds.foldl (fun n d => 10 * n + digitValue d) n, rest) := by
  have hmono : ∀ (ds : List Char) n, n ≤ ds.foldl (fun n d => 10 * n + digitValue d) n := by
    intro ds
    induction ds with
    | nil => exact fun n => Nat.le_refl n
    | cons d ds ih => exact fun n => Nat.le_trans (by omega) (ih (10 * n + digitValue d))
  induction ds generalizing n with
  | nil => exact takeSignificand_of_stops (.of_noDigit hr)
  | cons d ds ih =>
    have hd := hds d (by simp)
    rw [List.foldl_cons] at hn ⊢
    have hroom := Nat.lt_of_le_of_lt (hmono ds _) hn
    rw [List.cons_append, takeSignificand]
    simp only [hd, hroom, and_self, if_true]
    exact ih (fun c hc => hds c (by simp [hc])) hn

theorem head_toDigits {n : Nat} (hn : 0 < n) : (Nat.toDigits 10 n).head? ≠ some '0' := by
  induction n using Nat.strongRecOn with
  | ind n ih =>
    by_cases hlt : n < 10
    · rw [Nat.toDigits_of_lt_base hlt, List.head?_cons]
      have : ∀ k : Fin 10, 0 < k.1 → some (Nat.digitChar k.1) ≠ some '0' := by decide
      exact this ⟨n, hlt⟩ hn
    · have hhead := ih (n / 10) (by omega) (by omega)
      rw [Nat.toDigits_of_base_le (by decide) (by omega)]
      obtain ⟨d, ds, hds⟩ :=
        List.exists_cons_of_ne_nil (Nat.toDigits_ne_nil (n := n / 10) (b := 10))
      rw [hds] at hhead ⊢
      exact hhead

theorem scanNumber_toDigits (negative : Bool) {n : Nat} (hn : n < 0x10000000000000000)
    {rest : List Char} (hr : Ends rest) :
    scanNumber negative (Nat.toDigits 10 n ++ rest) = .value (wholeNumber negative n) rest := by
  have hafter : ∀ m, scanAfterWhole negative m rest = .value (wholeNumber negative m) rest := by
    intro m
    rw [← List.nil_append rest, scanAfterWhole_of_ends (by simp) hr, if_pos rfl,
      List.nil_append]
  by_cases hz : n = 0
  · rw [hz, Nat.toDigits_zero]
    simp only [List.cons_append, List.nil_append, scanNumber,
      startsWithDigit_eq_false.2 hr.1, Bool.false_eq_true, if_false, hafter]
  · have hhead := head_toDigits (Nat.pos_of_ne_zero hz)
    have hdigits : ∀ c ∈ Nat.toDigits 10 n, c.isDigit = true :=
      fun c => Literal.isDigit_of_mem_toDigits
    have hvalue := Literal.digitsValue_toDigits n
    have htake := takeSignificand_digits (n := 0) hdigits (by rwa [← digitsValue, hvalue]) hr.1
    rw [← digitsValue, hvalue] at htake
    obtain ⟨d, ds, hds⟩ := List.exists_cons_of_ne_nil (Nat.toDigits_ne_nil (n := n) (b := 10))
    rw [hds] at hhead hdigits htake ⊢
    have hstart : startsWithDigit (d :: ds ++ rest) = true := hdigits d (by simp)
    unfold scanNumber
    split
    · next he =>
      rw [List.cons_append, List.cons.injEq] at he
      exact absurd (by rw [he.1]; rfl) hhead
    · rw [if_pos hstart, htake]
      exact hafter n

end StatesLang.Json
