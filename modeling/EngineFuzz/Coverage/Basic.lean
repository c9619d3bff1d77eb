import EngineFuzz.Coverage.EdgeSet
import EngineFuzz.Outcome.Basic

/-!
Coverage: which edges of the target were reached before, what a run reached for the first time, and
the aspects of a run, which are its outcome and its new edges.
-/

namespace EngineFuzz

/-- The edges that a run is said to have reached for the first time. -/
structure Trace where
  newEdges : List UInt64
deriving DecidableEq

/-- The edges reached so far. -/
structure Coverage where
  known : EdgeSet
deriving DecidableEq

namespace Coverage

def empty : Coverage := ⟨.empty⟩

/-- Takes in the edges that a run hit. The trace has those not known before, ascending. -/
def reach (coverage : Coverage) (hits : List UInt64) : Trace × Coverage :=
  let fresh := EdgeSet.ofList (hits.filter fun edge => !coverage.known.contains edge)
  (⟨fresh.edges⟩, ⟨coverage.known.insertAll fresh.edges⟩)

/-- Forgets every edge. -/
def reset (_coverage : Coverage) : Coverage := empty

def size (coverage : Coverage) : Nat := coverage.known.size

def contains (coverage : Coverage) (edge : UInt64) : Bool := coverage.known.contains edge

end Coverage

/-- What made a run special. -/
structure Aspects where
  outcome : Outcome
  edges : EdgeSet
deriving DecidableEq

namespace Aspects

/-- Coverage up to a crash is not trusted, so a crash has no edges. -/
def ofRun (outcome : Outcome) (trace : Trace) : Aspects :=
  ⟨outcome, if outcome.isCrash then .empty else .ofList trace.newEdges⟩

/-- For a run whose coverage was not collected. -/
def ofOutcome (outcome : Outcome) : Aspects := ⟨outcome, .empty⟩

def reachesNew (aspects : Aspects) : Bool := !aspects.edges.isEmpty

def text (aspects : Aspects) : String :=
  "execution outcome " ++ aspects.outcome.text ++ " (" ++ aspects.edges.size.repr ++ " new edges)"

end Aspects

end EngineFuzz
