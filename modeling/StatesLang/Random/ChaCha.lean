/-!
# A stream of random words

The stream is that of the ChaCha cipher with twelve rounds. Its key is spread from a seed of 64
bits.

* `ChaCha.Key.ofSeed`: the key that a seed gives.
* `ChaCha.block`: sixteen words of the stream; `ChaCha.draw`: a number of 64 bits of the stream.
* `Random.inRange`: a number between two bounds, each equally likely.
-/

namespace StatesLang

namespace ChaCha

/-- Eight words. -/
abbrev Key := Vector UInt32 8

/-- The next state of the generator that spreads a seed. -/
def spread (state : UInt64) : UInt64 :=
  state * 6364136223846793005 + 11634580027462260723

/-- The word that a state of that generator gives. -/
def spreadWord (state : UInt64) : UInt32 :=
  let x := (((state >>> 18) ^^^ state) >>> 27).toUInt32
  let n := (state >>> 59).toUInt32
  (x >>> n) ||| (x <<< (32 - n))

/-- The key of a seed. -/
def Key.ofSeed (seed : UInt64) : Key :=
  Vector.ofFn fun i => spreadWord (Nat.repeat spread (i.1 + 1) seed)

/-- The sixteen words that are mixed. -/
abbrev Square := Vector UInt32 16

/-- Turns a word to the left. -/
def rotate (x n : UInt32) : UInt32 :=
  (x <<< n) ||| (x >>> (32 - n))

/-- Mixes four words of a square. -/
def quarter (a b c d : Fin 16) (s : Square) : Square :=
  let s := s.set a (s[a] + s[b])
  let s := s.set d (rotate (s[d] ^^^ s[a]) 16)
  let s := s.set c (s[c] + s[d])
  let s := s.set b (rotate (s[b] ^^^ s[c]) 12)
  let s := s.set a (s[a] + s[b])
  let s := s.set d (rotate (s[d] ^^^ s[a]) 8)
  let s := s.set c (s[c] + s[d])
  s.set b (rotate (s[b] ^^^ s[c]) 7)

/-- Two rounds: one over the columns, one over the diagonals. -/
def twoRounds (s : Square) : Square :=
  let s := quarter 3 7 11 15 (quarter 2 6 10 14 (quarter 1 5 9 13 (quarter 0 4 8 12 s)))
  quarter 3 4 9 14 (quarter 2 7 8 13 (quarter 1 6 11 12 (quarter 0 5 10 15 s)))

/-- The square of a block before it is mixed: four fixed words, the key, the number of the block and
two zeros. -/
def start (key : Key) (index : UInt64) : Square :=
  ⟨#[0x61707865, 0x3320646e, 0x79622d32, 0x6b206574, key[0], key[1], key[2], key[3], key[4], key[5],
    key[6], key[7], index.toUInt32, (index >>> 32).toUInt32, 0, 0], by simp⟩

/-- The words of a block: the square after twelve rounds, added to that before. -/
def block (key : Key) (index : UInt64) : Square :=
  let s := start key index
  Vector.zipWith (· + ·) s (Nat.repeat twoRounds 6 s)

/-- A number of 64 bits out of the stream: two words, the low one first. -/
def draw (key : Key) (index : Nat) : UInt64 :=
  let b := block key (UInt64.ofNat (index / 8))
  let low : Fin 16 := ⟨2 * (index % 8), by omega⟩
  let high : Fin 16 := ⟨2 * (index % 8) + 1, by omega⟩
  b[low].toUInt64 ||| (b[high].toUInt64 <<< 32)

end ChaCha

namespace Random

/-- The number of draws after which the search for a fair one is given up. -/
def maxDraws : Nat := 1000

/-- A number below `range`, from the draw at an index on. A draw is multiplied by the range; the
product's upper half is the answer if its lower half is at most `zone`. -/
def below (key : ChaCha.Key) (range zone : Nat) : Nat → Nat → Nat
  | 0, _ => 0
  | fuel + 1, index =>
    let p := (ChaCha.draw key index).toNat * range
    if p % 0x10000000000000000 ≤ zone then p / 0x10000000000000000
    else below key range zone fuel (index + 1)

/-- A number from `least` to `most` out of the stream of a seed. -/
def inRange (seed : UInt64) (least most : Int64) : Int64 :=
  let key := ChaCha.Key.ofSeed seed
  let range := (most.toInt - least.toInt).toNat + 1
  if range = 0x10000000000000000 then (ChaCha.draw key 0).toInt64
  else
    let zone := range <<< (63 - range.log2) - 1
    least + Int64.ofNat (below key range zone maxDraws 0)

end Random

end StatesLang
