import EngineFuzz.Json.Decoder
import EngineFuzz.Outcome.Basic

/-!
Counts of outcomes.
-/

namespace EngineFuzz

structure Tally where
  succeeded : Nat
  failed : Nat
  crashed : Nat
  timedOut : Nat
deriving DecidableEq

namespace Tally

def zero : Tally := ⟨0, 0, 0, 0⟩

def count (tally : Tally) : Outcome → Tally
  | .succeeded => { tally with succeeded := tally.succeeded + 1 }
  | .failed _ => { tally with failed := tally.failed + 1 }
  | .crashed _ => { tally with crashed := tally.crashed + 1 }
  | .timedOut => { tally with timedOut := tally.timedOut + 1 }

def total (tally : Tally) : Nat :=
  tally.succeeded + tally.failed + tally.crashed + tally.timedOut

def add (a b : Tally) : Tally where
  succeeded := a.succeeded + b.succeeded
  failed := a.failed + b.failed
  crashed := a.crashed + b.crashed
  timedOut := a.timedOut + b.timedOut

def toJson (tally : Tally) : Json :=
  .record
    [("succeeded", .nat tally.succeeded), ("failed", .nat tally.failed),
      ("crashed", .nat tally.crashed), ("timed_out", .nat tally.timedOut)]

def decoder : Decoder Tally := fun site j => do
  let fields ← Fields.read? ["succeeded", "failed", "crashed", "timed_out"] site j
  return {
    succeeded := ← fields.required "succeeded" .size
    failed := ← fields.required "failed" .size
    crashed := ← fields.required "crashed" .size
    timedOut := ← fields.required "timed_out" .size }

end Tally

end EngineFuzz
