import StatesLang.Builtin.Standard

/-!
# Operations that can fault

Some operations have no result on some operands, and nothing that a function could answer either. A
computation that comes to one of these cases stops with a fault, which is no failure of a call. How
much memory there is does not matter here, but for what can never be there.

* `Fault`, `Checked`: what can stop a computation, and computations that can be stopped.
* `Checked.ofOutcome`: the computations that are not stopped, but for an array that gets too long.
* `Checked.item`, `itemsFrom`, `pieces`, `allot`, `drawn`: operations on lists and on chance.
* `Checked.Width`: numbers of a fixed number of bits, with `cast`, `add`, `sub`, `mul` and `div`.
-/

namespace StatesLang

/-- Why a computation cannot go on. -/
inductive Fault
  | index
  | chunkSize
  | interval
  | divisor
  | overflow
  | cast
  | capacity
deriving DecidableEq

/-- What a call comes to, unless it is stopped. -/
abbrev Checked : Type → Type :=
  ExceptT Call.Error (Except Fault)

namespace Checked

variable {α β : Type}

/-- A computation that is stopped. -/
def fault (f : Fault) : Checked α :=
  ExceptT.mk (.error f)

/-- A computation that goes on, to a value or a failure, unless it breaks off. -/
def ofOutcome : Except Call.Error α → Checked α
  | .error .oversized => fault .capacity
  | x => ExceptT.mk (.ok x)

/-- A failure of a call. -/
def fail (c : Call) (f : Call.Failure) : Checked α :=
  ofOutcome (Builtin.fail c f)

theorem ofOutcome_eq_fault {x : Except Call.Error α} {f : Fault} (h : ofOutcome x = fault f) :
    f = .capacity ∧ x = .error .oversized := by
  unfold ofOutcome at h
  split at h
  · cases h
    exact ⟨rfl, rfl⟩
  · cases h

/-- No step of a computation is stopped if its first one is not, and what follows it is not, either,
as far as it comes to that. -/
theorem bind_ofOutcome {x : Except Call.Error α} {k : α → Checked β}
    {k' : α → Except Call.Error β} (h : ∀ a, x = .ok a → k a = ofOutcome (k' a)) :
    ofOutcome x >>= k = ofOutcome (x >>= k') := by
  cases x with
  | error e => cases e <;> rfl
  | ok a => exact h a rfl

theorem mapM_eq_pure {items : List α} {f : α → Checked β} {g : α → β}
    (h : ∀ a ∈ items, f a = pure (g a)) : items.mapM f = pure (items.map g) := by
  induction items with
  | nil => rfl
  | cons a rest ih =>
    obtain ⟨ha, hrest⟩ := List.forall_mem_cons.1 h
    rw [List.mapM_cons, ha, ih hrest]
    rfl

/-! ## Lists and chance -/

/-- The item at an index, which must be there. -/
def item (items : List α) (index : Nat) : Checked α :=
  match items[index]? with
  | some a => pure a
  | none => fault .index

/-- The items from an index on, which must not be behind the end. -/
def itemsFrom (items : List α) (index : Nat) : Checked (List α) :=
  if index ≤ items.length then pure (items.drop index) else fault .index

/-- A list cut into pieces, which must not be empty. -/
def pieces (size : Nat) (items : List α) : Checked (List (List α)) :=
  if size = 0 then fault .chunkSize else pure (Digest.split size items)

/-- Room for so many items, of which an array can have only so many. -/
def allot (count : Nat) : Checked Unit :=
  if Builtin.capacity < count then fault .capacity else pure ()

/-- A number between two bounds, which must not be the wrong way round. -/
def drawn (seed : UInt64) (least most : Int) : Checked Json :=
  if most < least then fault .interval else pure (Builtin.randomBetween seed least most)

theorem item_zero (a : α) (rest : List α) : item (a :: rest) 0 = pure a := rfl

theorem item_one (a b : α) (rest : List α) : item (a :: b :: rest) 1 = pure b := rfl

theorem itemsFrom_one (a : α) (rest : List α) : itemsFrom (a :: rest) 1 = pure rest :=
  if_pos (Nat.succ_le_succ (Nat.zero_le _))

example : item [1, 2] 2 = fault .index := rfl

theorem pieces_of_pos {size : Nat} (h : 0 < size) (items : List α) :
    pieces size items = pure (Digest.split size items) :=
  if_neg (Nat.ne_of_gt h)

theorem drawn_of_le {least most : Int} (h : ¬ most < least) (seed : UInt64) :
    drawn seed least most = pure (Builtin.randomBetween seed least most) :=
  if_neg h

/-! ## Numbers of a fixed number of bits -/

/-- Numbers of a fixed number of bits: those from `low` on and below `high`. -/
structure Width where
  low : Int
  high : Int

namespace Width

/-- Signed numbers of 64 bits. -/
def int64 : Width := ⟨-0x8000000000000000, 0x8000000000000000⟩

/-- Signed numbers of 128 bits. -/
def int128 : Width :=
  ⟨-0x80000000000000000000000000000000, 0x80000000000000000000000000000000⟩

/-- Sizes and indexes, which have 64 bits. -/
def size : Width := ⟨0, 0x10000000000000000⟩

/-- A number is one of these. -/
def Holds (w : Width) (n : Int) : Prop :=
  w.low ≤ n ∧ n < w.high

instance (w : Width) (n : Int) : Decidable (w.Holds n) :=
  inferInstanceAs (Decidable (_ ∧ _))

theorem holds_int64 {n : Int} :
    int64.Holds n ↔ -0x8000000000000000 ≤ n ∧ n < 0x8000000000000000 :=
  Iff.rfl

theorem holds_int128 {n : Int} :
    int128.Holds n ↔
      -0x80000000000000000000000000000000 ≤ n ∧ n < 0x80000000000000000000000000000000 :=
  Iff.rfl

theorem holds_size {n : Int} : size.Holds n ↔ 0 ≤ n ∧ n < 0x10000000000000000 :=
  Iff.rfl

end Width

/-- A number as one of so many bits, which must not lose any. -/
def cast (w : Width) (n : Int) : Checked Int :=
  if w.Holds n then pure n else fault .cast

/-- The result of an operation, which must not need more bits than there are. -/
def fit (w : Width) (n : Int) : Checked Int :=
  if w.Holds n then pure n else fault .overflow

/-- The sum of two numbers. -/
def add (w : Width) (a b : Int) : Checked Int :=
  fit w (a + b)

/-- The difference of two numbers. -/
def sub (w : Width) (a b : Int) : Checked Int :=
  fit w (a - b)

/-- The product of two numbers. -/
def mul (w : Width) (a b : Int) : Checked Int :=
  fit w (a * b)

/-- The quotient of two numbers, without the part behind the point. The divisor must not be zero. -/
def div (w : Width) (a b : Int) : Checked Int :=
  if b = 0 then fault .divisor else fit w (a.tdiv b)

theorem cast_of_holds {w : Width} {n : Int} (h : w.Holds n) : cast w n = pure n :=
  if_pos h

theorem fit_of_holds {w : Width} {n : Int} (h : w.Holds n) : fit w n = pure n :=
  if_pos h

theorem div_of_holds {w : Width} {a b : Int} (hb : b ≠ 0) (h : w.Holds (a.tdiv b)) :
    div w a b = pure (a.tdiv b) :=
  (if_neg hb).trans (fit_of_holds h)

example : cast .size (-1) = fault .cast := rfl

example : div .int128 (-0x80000000000000000000000000000000) (-1) = fault .overflow := rfl

end Checked

end StatesLang
