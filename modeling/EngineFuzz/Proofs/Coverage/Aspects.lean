import EngineFuzz.Proofs.Coverage.Reach

/-!
Aspects as what they are compared by. The edges of a trace come into aspects as a set, and those of a crash not
at all. Main statement: two runs have the same aspects exactly if they have the same outcome and, unless they
crashed, traces with the same edges, and aspects can be made again from what is to be seen of them.
-/

namespace EngineFuzz

namespace Aspects

variable {outcome outcome' : Outcome} {trace trace' : Trace} {edge : UInt64}

theorem ofRun_of_crash (crash : outcome.isCrash = true) (trace : Trace) :
    ofRun outcome trace = ⟨outcome, .empty⟩ := by
  rw [ofRun, if_pos crash]

theorem ofRun_of_lasting (lasting : outcome.isCrash = false) (trace : Trace) :
    ofRun outcome trace = ⟨outcome, .ofList trace.newEdges⟩ := by
  rw [ofRun, lasting, if_neg Bool.false_ne_true]

theorem mem_edges_ofRun :
    edge ∈ (ofRun outcome trace).edges.edges ↔ outcome.isCrash = false ∧ edge ∈ trace.newEdges := by
  cases crash : outcome.isCrash with
  | true => simp [ofRun_of_crash crash, EdgeSet.empty]
  | false => simp [ofRun_of_lasting crash, EdgeSet.mem_ofList]

theorem ofRun_eq_iff : ofRun outcome trace = ofRun outcome' trace' ↔
    outcome = outcome' ∧
      (outcome.isCrash = true ∨ ∀ edge, edge ∈ trace.newEdges ↔ edge ∈ trace'.newEdges) := by
  constructor
  · intro same
    obtain rfl : outcome = outcome' := congrArg Aspects.outcome same
    refine ⟨rfl, ?_⟩
    cases crash : outcome.isCrash with
    | true => exact .inl rfl
    | false =>
      rw [ofRun_of_lasting crash, ofRun_of_lasting crash] at same
      exact .inr (EdgeSet.ofList_eq_iff.mp (congrArg Aspects.edges same))
  · rintro ⟨rfl, crash | same⟩
    · rw [ofRun_of_crash crash, ofRun_of_crash crash]
    · have edges : EdgeSet.ofList trace.newEdges = .ofList trace'.newEdges := EdgeSet.ofList_eq_iff.mpr same
      rw [ofRun, ofRun, edges]

/-- Nothing that tells a trace from its edges gets into aspects. -/
theorem ofRun_edges (outcome : Outcome) (trace : Trace) :
    ofRun outcome ⟨(ofRun outcome trace).edges.edges⟩ = ofRun outcome trace := by
  rw [ofRun_eq_iff]
  refine ⟨rfl, ?_⟩
  cases crash : outcome.isCrash with
  | true => exact .inl rfl
  | false =>
    refine .inr fun edge => ?_
    rw [mem_edges_ofRun, crash]
    exact and_iff_right rfl

/-- Aspects tell the outcome of a run and the set of edges in its trace, and of a crash the outcome alone. -/
theorem aspects_are_canonical (outcome outcome' : Outcome) (trace trace' : Trace) :
    (ofRun outcome trace = ofRun outcome' trace' ↔ outcome = outcome' ∧
      (outcome.isCrash = true ∨ ∀ edge, edge ∈ trace.newEdges ↔ edge ∈ trace'.newEdges)) ∧
    (ofRun outcome trace).edges.edges.Pairwise (· < ·) ∧
    (∀ edge, edge ∈ (ofRun outcome trace).edges.edges ↔
      outcome.isCrash = false ∧ edge ∈ trace.newEdges) ∧
    ofRun (ofRun outcome trace).outcome ⟨(ofRun outcome trace).edges.edges⟩ = ofRun outcome trace :=
  ⟨ofRun_eq_iff, (ofRun outcome trace).edges.ascending, fun _ => mem_edges_ofRun, ofRun_edges outcome trace⟩

example : (ofRun .succeeded ⟨[7, 3, 7, 5]⟩).edges.edges = [3, 5, 7] := by decide

end Aspects

end EngineFuzz
