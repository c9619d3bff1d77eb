import EngineFuzz.Random.Draw

/-!
Urns: items with weights, in the order in which they were put in. An item is drawn as often as its
weight says.

The running sums of the weights are kept beside the entries, so that a draw finds its entry by binary
search. An entry of weight zero stays in the urn and is never drawn.
-/

namespace EngineFuzz

universe u

structure Urn (α : Type u) where
  entries : List (α × UInt32)
  cumulative : Array Nat

inductive DrawError where
  | empty
  | weightless (entries : Nat)
deriving DecidableEq

namespace DrawError

def message : DrawError → String
  | empty => "Cannot select from an empty weighted list"
  | weightless entries => "Cannot select: total weight of " ++ entries.repr ++ " entries is zero"

end DrawError

namespace Urn

variable {α : Type u}

def empty : Urn α := ⟨[], #[]⟩

def total (urn : Urn α) : Nat := urn.cumulative.back?.getD 0

def push (urn : Urn α) (item : α) (weight : UInt32) : Urn α :=
  ⟨urn.entries ++ [(item, weight)], urn.cumulative.push (urn.total + weight.toNat)⟩

def ofList (entries : List (α × UInt32)) : Urn α :=
  entries.foldl (fun urn (item, weight) => urn.push item weight) empty

/-- The running sums of the weights, on top of `before`. -/
def sumsFrom (before : Nat) : List (α × UInt32) → List Nat
  | [] => []
  | (_, weight) :: entries => (before + weight.toNat) :: sumsFrom (before + weight.toNat) entries

def sums (entries : List (α × UInt32)) : Array Nat := (sumsFrom 0 entries).toArray

/-- Puts an entry in the place of the first whose item is `wanted`. The flag tells whether there was
one. -/
def replaceFirst (urn : Urn α) (wanted : α → Bool) (item : α) (weight : UInt32) :
    Bool × Urn α :=
  match urn.entries.findIdx? fun (old, _) => wanted old with
  | some i =>
    let entries := urn.entries.set i (item, weight)
    (true, ⟨entries, sums entries⟩)
  | none => (false, urn)

/-- Drops every entry whose item is `unwanted`, and counts them. -/
def removeAll (urn : Urn α) (unwanted : α → Bool) : Nat × Urn α :=
  let entries := urn.entries.filter fun (item, _) => !unwanted item
  let removed := urn.entries.length - entries.length
  if 0 < removed then (removed, ⟨entries, sums entries⟩) else (0, urn)

def size (urn : Urn α) : Nat := urn.entries.length

def isEmpty (urn : Urn α) : Bool := urn.entries.isEmpty

/-- Among the sums from `low` to before `high`, which ascend, the place of the first above `roll`. -/
def search (sums : Array Nat) (roll low high : Nat) : Nat :=
  if low < high then
    let middle := (low + high) / 2
    if sums.getD middle 0 ≤ roll then search sums roll (middle + 1) high
    else search sums roll low middle
  else low
termination_by high - low

/-- The entry that a roll below the total weight falls to. -/
def entryAt (urn : Urn α) (roll : Nat) : Option (α × UInt32) :=
  urn.entries[search urn.cumulative roll 0 urn.cumulative.size]?

/-- Draws one item. No word is drawn if there is none to be had. -/
def draw (urn : Urn α) (rng : Rng) : Except DrawError α × Rng :=
  if urn.isEmpty then (.error .empty, rng)
  else if positive : 0 < urn.total then
    let (roll, rng) := Draw.below64 urn.total positive rng
    match urn.entryAt roll with
    | some (item, _) => (.ok item, rng)
    | none => (.error .empty, rng)
  else (.error (.weightless urn.size), rng)

end Urn

end EngineFuzz
