import EngineFuzz.Proofs.Coverage.Reach
import Mathlib.Algebra.GroupWithZero.Nat
import Mathlib.Data.List.Induction

/-!
Coverage over many runs. A log has the hits of every run since the last reset, and the trace that was given of
it. Main statement: the traces in a log share the known edges out, each edge to the run that hit it first, and
what is known in the end does not depend on the order or the number of the hits.
-/

namespace EngineFuzz

namespace Coverage

/-- Something that happens to coverage. -/
inductive Event where
  | reach (hits : List UInt64)
  | reset

/-- A run that was taken in. -/
structure Observation where
  hits : List UInt64
  trace : Trace

/-- Coverage, and what it has taken in since it was reset. -/
structure Log where
  coverage : Coverage
  observed : List Observation

namespace Log

def after (log : Log) : Event → Log
  | .reach hits =>
    let (trace, coverage) := log.coverage.reach hits
    ⟨coverage, log.observed ++ [⟨hits, trace⟩]⟩
  | .reset => ⟨log.coverage.reset, []⟩

def ofEvents (events : List Event) : Log := events.foldl after ⟨.empty, []⟩

/-- What the traces in a log have to be, and how the known edges come from them. -/
structure IsSound (log : Log) : Prop where
  ascending : ∀ seen ∈ log.observed, seen.trace.newEdges.Pairwise (· < ·)
  /-- A trace has the hits that no run before it had. -/
  first : ∀ i seen, log.observed[i]? = some seen → ∀ edge, edge ∈ seen.trace.newEdges ↔
    edge ∈ seen.hits ∧ ∀ earlier ∈ log.observed.take i, edge ∉ earlier.hits
  apart : log.observed.Pairwise fun a b => ∀ edge ∈ a.trace.newEdges, edge ∉ b.trace.newEdges
  whole : ∀ edge, edge ∈ log.coverage.known.edges ↔ ∃ seen ∈ log.observed, edge ∈ seen.trace.newEdges
  size : log.coverage.size = (log.observed.map fun seen => seen.trace.newEdges.length).sum
  hit : ∀ edge, edge ∈ log.coverage.known.edges ↔ ∃ seen ∈ log.observed, edge ∈ seen.hits

variable {log : Log} {edge : UInt64}

theorem ofEvents_snoc (events : List Event) (event : Event) :
    ofEvents (events ++ [event]) = (ofEvents events).after event := by
  rw [ofEvents, List.foldl_append]
  rfl

theorem isSound_blank : (Log.mk .empty []).IsSound := by
  constructor <;> simp [Coverage.empty, EdgeSet.empty, Coverage.size, EdgeSet.size]

/-- A run is taken in: its trace has the edges that are in no trace yet. -/
theorem IsSound.reach (sound : log.IsSound) (hits : List UInt64) : (log.after (.reach hits)).IsSound := by
  have observed : (log.after (.reach hits)).observed =
      log.observed ++ [⟨hits, (log.coverage.reach hits).1⟩] := rfl
  have coverage : (log.after (.reach hits)).coverage = (log.coverage.reach hits).2 := rfl
  have new : ∀ edge, edge ∈ (log.coverage.reach hits).1.newEdges ↔
      edge ∈ hits ∧ ∀ earlier ∈ log.observed, edge ∉ earlier.hits := by
    intro edge
    rw [mem_newEdges_reach, sound.hit]
    simp only [not_exists, not_and]
  constructor
  case ascending =>
    intro seen member
    rcases List.mem_append.mp (observed ▸ member) with old | last
    · exact sound.ascending seen old
    · rw [List.mem_singleton.mp last]
      exact ascending_newEdges log.coverage hits
  case first =>
    intro i seen found
    rw [observed] at found ⊢
    rcases getElem?_snoc found with ⟨old, before⟩ | ⟨rfl, rfl⟩
    · rw [List.take_append_of_le_length (Nat.le_of_lt before)]
      exact sound.first i seen old
    · rw [List.take_left]
      exact new
  case apart =>
    rw [observed, List.pairwise_append]
    refine ⟨sound.apart, List.pairwise_singleton _ _, fun seen member last here edge there => ?_⟩
    rw [List.mem_singleton.mp here, mem_newEdges_reach, sound.whole]
    exact fun absent => absent.2 ⟨seen, member, there⟩
  case whole =>
    intro edge
    rw [coverage, observed, mem_known_iff_newEdges, sound.whole, exists_mem_snoc, or_comm]
  case size =>
    rw [coverage, observed, size_reach, sound.size, List.map_append, List.sum_append, List.map_singleton,
      List.sum_singleton]
  case hit =>
    intro edge
    rw [coverage, observed, mem_known_reach, sound.hit, exists_mem_snoc, or_comm]

theorem isSound_ofEvents (events : List Event) : (ofEvents events).IsSound := by
  induction events using List.reverseRecOn with
  | nil => exact isSound_blank
  | append_singleton events event ih =>
    rw [ofEvents_snoc]
    cases event with
    | reach hits => exact ih.reach hits
    | reset => exact isSound_blank

/-! ### Batches of runs -/

/-- A log has the hits of the runs since the last reset, run by run. -/
theorem hits_observed_batch (events : List Event) (batch : List (List UInt64)) :
    (ofEvents (events ++ batch.map .reach)).observed.map Observation.hits =
      (ofEvents events).observed.map Observation.hits ++ batch := by
  induction batch generalizing events with
  | nil => simp
  | cons hits batch ih =>
    have one : (ofEvents (events ++ [.reach hits])).observed.map Observation.hits =
        (ofEvents events).observed.map Observation.hits ++ [hits] := by
      rw [ofEvents_snoc]
      exact List.map_append
    rw [List.map_cons, List.append_cons, ih, one, ← List.append_cons]

/-- After a batch of runs, an edge is known if it was known before or hit by one of them. -/
theorem mem_known_batch (events : List Event) (batch : List (List UInt64)) (edge : UInt64) :
    edge ∈ (ofEvents (events ++ batch.map .reach)).coverage.known.edges ↔
      edge ∈ (ofEvents events).coverage.known.edges ∨ ∃ hits ∈ batch, edge ∈ hits := by
  induction batch generalizing events with
  | nil => simp
  | cons hits batch ih =>
    have known : edge ∈ (ofEvents (events ++ [.reach hits])).coverage.known.edges ↔
        edge ∈ (ofEvents events).coverage.known.edges ∨ edge ∈ hits := by
      rw [ofEvents_snoc]
      exact mem_known_reach.trans or_comm
    rw [List.map_cons, List.append_cons, ih, known]
    simp only [List.mem_cons, or_and_right, exists_or, exists_eq_left, or_assoc]

/-- Only the edges that a batch hits matter, not which run hits them, how often or when. -/
theorem coverage_batch_congr (events : List Event) {first second : List (List UInt64)}
    (same : ∀ edge, (∃ hits ∈ first, edge ∈ hits) ↔ ∃ hits ∈ second, edge ∈ hits) :
    (ofEvents (events ++ first.map .reach)).coverage = (ofEvents (events ++ second.map .reach)).coverage := by
  apply ext_mem
  intro edge
  rw [mem_known_batch, mem_known_batch, same]

/-- The known edges are shared out among the traces given since the last reset, after whatever has happened. A
run may as well take its edges in one by one and sort what was new, and a batch of further runs adds the edges
that it hits, no matter how. -/
theorem traces_partition_known (events : List Event) :
    (ofEvents events).IsSound ∧
    (∀ batch, (ofEvents (events ++ .reset :: batch.map .reach)).observed.map Observation.hits = batch) ∧
    (∀ edge, (ofEvents events).coverage.contains edge = true ↔
      ∃ seen ∈ (ofEvents events).observed, edge ∈ seen.trace.newEdges) ∧
    (∀ hits, (ofEvents events).coverage.reach hits =
      (⟨((ofEvents events).coverage.known.takeIn hits).1.mergeSort⟩,
        ⟨((ofEvents events).coverage.known.takeIn hits).2⟩)) ∧
    ∀ first second : List (List UInt64),
      (∀ edge, (∃ hits ∈ first, edge ∈ hits) ↔ ∃ hits ∈ second, edge ∈ hits) →
        (ofEvents (events ++ first.map .reach)).coverage =
          (ofEvents (events ++ second.map .reach)).coverage := by
  have sound := isSound_ofEvents events
  refine ⟨sound, fun batch => ?_, fun edge => ?_, reach_eq_takeIn _, fun _ _ => coverage_batch_congr events⟩
  · rw [List.append_cons, hits_observed_batch, ofEvents_snoc]
    rfl
  · rw [← sound.whole]
    exact EdgeSet.contains_iff

example : (ofEvents [.reach [9], .reset, .reach [3, 1, 2], .reach [9, 4, 4, 2]]).observed.map
    (fun seen => seen.trace.newEdges) = [[1, 2, 3], [4, 9]] := by decide

/-- One of the edges of each batch is known already, and one that was known is forgotten. -/
theorem twoBatches_known :
    (∀ edge : UInt64, (∃ hits ∈ [[3, 1, 2], [2, 4, 4]], edge ∈ hits) ↔
      ∃ hits ∈ [[4], [1, 2, 2, 3]], edge ∈ hits) ∧
    (ofEvents ([.reach [9, 4], .reset, .reach [3]] ++ [[3, 1, 2], [2, 4, 4]].map .reach)).coverage =
      (ofEvents ([.reach [9, 4], .reset, .reach [3]] ++ [[4], [1, 2, 2, 3]].map .reach)).coverage := by
  have same : ∀ edge : UInt64, (∃ hits ∈ [[3, 1, 2], [2, 4, 4]], edge ∈ hits) ↔
      ∃ hits ∈ [[4], [1, 2, 2, 3]], edge ∈ hits := by
    intro edge
    simp only [List.mem_cons, List.not_mem_nil, or_false, exists_eq_or_imp, exists_eq_left]
    grind
  exact ⟨same, (traces_partition_known [.reach [9, 4], .reset, .reach [3]]).2.2.2.2 _ _ same⟩

end Log

end Coverage

end EngineFuzz
