import EngineFuzz.Random.Rng

/-!
Draws from a stream of words: a number below a bound, an element of a list, some elements of a list.

Elements and positions are always drawn by words of 32 bits. What is done in place of that for a list of
more than `2 ^ 32 - 1` elements, words of 64 bits and another way to keep positions apart, is left out.
-/

namespace EngineFuzz

/-- Something found by drawing words, and the stream after them. -/
abbrev Draw (α : Type) := StateM Rng α

namespace Draw

def word32 : Draw UInt32 := Rng.word32

def word64 : Draw UInt64 := Rng.word64

/-- A word scaled down to the numbers below `range`. -/
def scaled (range : Nat) (positive : 0 < range) (word : BitVec width) : Fin range :=
  ⟨(word.toNat * range) >>> width, by
    rw [Nat.shiftRight_eq_div_pow]
    apply Nat.div_lt_of_lt_mul
    exact Nat.mul_lt_mul_of_pos_right word.isLt positive⟩

/-- The words to scale: each result has as many of them. Beyond `range` shifted to fill the width, the
low half of the product, which scaling cuts off, would favour some results. -/
def fair (range : Nat) (word : BitVec width) : Bool :=
  (BitVec.ofNat width (word.toNat * range)).toNat < range <<< (width - 1 - range.log2)

/-- Draws words until one is fair, at most `tries` and one more. Not half of the words are unfair. -/
def below (range : Nat) (positive : 0 < range) (word : Draw (BitVec width)) :
    (tries : Nat) → Draw (Fin range)
  | 0 => do return scaled range positive (← word)
  | tries + 1 => do
    let w ← word
    if fair range w then return scaled range positive w
    else below range positive word tries

/-- No stream is unfair that often. -/
def tryLimit : Nat := 1024

/-- A number below `range`, by words of 32 bits. -/
def below32 (range : Nat) (positive : 0 < range) : Draw (Fin range) :=
  below range positive (UInt32.toBitVec <$> word32) tryLimit

/-- A number below `range`, by words of 64 bits. -/
def below64 (range : Nat) (positive : 0 < range) : Draw (Fin range) :=
  below range positive (UInt64.toBitVec <$> word64) tryLimit

/-- An integer from `low` on, one of `count`. -/
def integer (low : Int) (count : Nat) (positive : 0 < count) : Draw Int := do
  let offset ← below64 count positive
  return low + offset.val

/-- True as often as false. -/
def coin : Draw Bool := do
  let w ← word64
  return w < 0x8000000000000000

/-- Meant for lists of at most `2 ^ 32 - 1` elements. -/
def element (xs : List α) (filled : 0 < xs.length) : Draw α := do
  let i ← below32 xs.length filled
  return xs[i]

/-- Draws nothing, and finds nothing, if there is nothing to choose from. -/
def pick (xs : List α) : Draw (Option α) :=
  if filled : 0 < xs.length then some <$> element xs filled else pure none

/-- One element of each list, or none at all once a list is empty. -/
def pickEach : List (List α) → Draw (Option (List α))
  | [] => return some []
  | xs :: lists => do
    match ← pick xs with
    | none => return none
    | some x => return (← pickEach lists).map (x :: ·)

/-- Adds a position of at most `last` to `taken`, which are all below it. If the one drawn is taken
already, `last` goes in before it. Meant for `last` below `2 ^ 32 - 1`. -/
def addPosition (taken : List Nat) (last : Nat) : Draw (List Nat) := do
  let position ← below32 (last + 1) (Nat.succ_pos last)
  match taken.idxOf? position.val with
  | some place => return taken.insertIdx place last
  | none => return taken ++ [position.val]

/-- Distinct positions below `size`, `count` of them. -/
def positions (count size : Nat) : Draw (List Nat) :=
  (List.range' (size - count) count).foldlM addPosition []

/-- Elements at distinct positions, `count` of them or all there are. -/
def sample (count : Nat) (xs : List α) : Draw (List α) := do
  let taken ← positions (min count xs.length) xs.length
  return taken.filterMap (xs[·]?)

end Draw

end EngineFuzz
