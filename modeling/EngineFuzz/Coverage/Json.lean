import EngineFuzz.Coverage.Basic
import EngineFuzz.Outcome.Json

/-!
Traces and aspects as JSON. A set of edges is written in ascending order and may be read in any.
-/

namespace EngineFuzz

def EdgeSet.toJson (set : EdgeSet) : Json := .array (set.edges.map fun edge => .nat edge.toNat)

def EdgeSet.decoder : Decoder EdgeSet := fun site j =>
  (Decoder.list Decoder.uint64 site j).map .ofList

namespace Trace

def toJson (trace : Trace) : Json :=
  .record [("new_edges", .array (trace.newEdges.map fun edge => .nat edge.toNat))]

def decoder : Decoder Trace := fun site j => do
  let fields ← Fields.read? ["new_edges"] site j
  return ⟨← fields.required "new_edges" (.list .uint64)⟩

end Trace

namespace Aspects

def toJson (aspects : Aspects) : Json :=
  .record [("outcome", aspects.outcome.toJson), ("edges", aspects.edges.toJson)]

def decoder : Decoder Aspects := fun site j => do
  let fields ← Fields.read? ["outcome", "edges"] site j
  return { outcome := ← fields.required "outcome" Outcome.decoder
           edges := ← fields.required "edges" EdgeSet.decoder }

end Aspects

end EngineFuzz
