import EngineFuzz.Proofs.Coverage.Reach
import EngineFuzz.Session.Archive

/-!
The runs of a worker as a history: what each of them shows, and what of it was not there before. An
archive that has gone through a history keeps exactly the news in it.
-/

namespace EngineFuzz

/-- What is to be seen of a run. -/
structure Sighting where
  outcome : Outcome
  /-- The edges hit, known or not. -/
  edges : List UInt64

namespace Sighting

/-- A crash crashes in a way that is new, another run hits an edge that no run hit before without a
crash, or a failure has a diagnostic that is new. -/
def IsNews (s : Sighting) (past : List Sighting) : Prop :=
  (∃ termination, s.outcome = .crashed termination ∧
    ∀ earlier ∈ past, earlier.outcome ≠ .crashed termination) ∨
  (s.outcome.isCrash = false ∧ ∃ edge ∈ s.edges,
    ∀ earlier ∈ past, earlier.outcome.isCrash = false → edge ∉ earlier.edges) ∨
  ∃ diagnostic, s.outcome = .failed diagnostic ∧
    ∀ earlier ∈ past, earlier.outcome ≠ .failed diagnostic

/-- The edges of a run that did not crash. -/
def reached (s : Sighting) : List UInt64 := if s.outcome.isCrash then [] else s.edges

/-- The edges that are reached for the first time after `past`. -/
def firstEdges (s : Sighting) (past : List Sighting) : EdgeSet :=
  .ofList (s.reached.filter fun edge => !past.any fun earlier => earlier.reached.contains edge)

def aspects (s : Sighting) (past : List Sighting) : Aspects := ⟨s.outcome, s.firstEdges past⟩

theorem mem_reached {s : Sighting} {edge : UInt64} :
    edge ∈ s.reached ↔ s.outcome.isCrash = false ∧ edge ∈ s.edges := by
  cases crash : s.outcome.isCrash <;> simp [reached, crash]

theorem mem_firstEdges {s : Sighting} {past : List Sighting} {edge : UInt64} :
    edge ∈ (s.firstEdges past).edges ↔
      edge ∈ s.reached ∧ ∀ earlier ∈ past, edge ∉ earlier.reached := by
  simp [firstEdges, EdgeSet.mem_ofList]

theorem firstEdges_of_crash {s : Sighting} (past : List Sighting) (crash : s.outcome.isCrash = true) :
    s.firstEdges past = .empty := by
  simp [firstEdges, reached, crash, EdgeSet.ofList, EdgeSet.insertAll]

theorem reachesNew_iff {s : Sighting} {past : List Sighting} :
    (s.aspects past).reachesNew = true ↔
      s.outcome.isCrash = false ∧ ∃ edge ∈ s.edges,
        ∀ earlier ∈ past, earlier.outcome.isCrash = false → edge ∉ earlier.edges := by
  rw [Aspects.reachesNew, Bool.not_eq_true', EdgeSet.isEmpty_eq_false_iff]
  constructor
  · rintro ⟨edge, first⟩
    obtain ⟨here, absent⟩ := mem_firstEdges.mp first
    obtain ⟨lasting, hit⟩ := mem_reached.mp here
    exact ⟨lasting, edge, hit, fun earlier member safe there =>
      absent earlier member (mem_reached.mpr ⟨safe, there⟩)⟩
  · rintro ⟨lasting, edge, hit, absent⟩
    refine ⟨edge, mem_firstEdges.mpr ⟨mem_reached.mpr ⟨lasting, hit⟩, fun earlier member there => ?_⟩⟩
    obtain ⟨safe, again⟩ := mem_reached.mp there
    exact absent earlier member safe again

theorem aspects_eq_crash_iff {s : Sighting} {past : List Sighting} {termination : Termination} :
    s.aspects past = ⟨.crashed termination, .empty⟩ ↔ s.outcome = .crashed termination := by
  constructor
  · intro same
    exact congrArg Aspects.outcome same
  · intro crash
    have none : s.firstEdges past = .empty := firstEdges_of_crash past (by simp [crash, Outcome.isCrash])
    rw [aspects, none, crash]

end Sighting

open Sighting

/-- What an archive has of a history: all its diagnostics and all its crashes, and aspects that only
the runs of this history can have had. -/
structure Archive.Knows (archive : Archive) (past : List Sighting) : Prop where
  diagnostics : ∀ diagnostic, diagnostic ∈ archive.diagnostics ↔
    ∃ earlier ∈ past, earlier.outcome = .failed diagnostic
  crashes : ∀ termination, ⟨.crashed termination, .empty⟩ ∈ archive.aspects ↔
    ∃ earlier ∈ past, earlier.outcome = .crashed termination
  kept : ∀ aspects ∈ archive.aspects, (∃ earlier ∈ past, earlier.outcome = aspects.outcome) ∧
    ∀ edge ∈ aspects.edges.edges, ∃ earlier ∈ past, edge ∈ earlier.reached

namespace Archive

theorem knows_empty : Archive.empty.Knows [] where
  diagnostics := by simp [Archive.empty]
  crashes := by simp [Archive.empty]
  kept := by simp [Archive.empty]

variable {archive after : Archive} {past : List Sighting} {s : Sighting} {diagnostic : String}
  {aspects : Aspects}

/-- A run with aspects in the archive reaches nothing new. -/
theorem Knows.no_edges (knows : archive.Knows past) (seen : s.aspects past ∈ archive.aspects) :
    (s.aspects past).reachesNew = false := by
  rw [Aspects.reachesNew, Bool.not_eq_false', ← Bool.not_eq_false, EdgeSet.isEmpty_eq_false_iff]
  rintro ⟨edge, first⟩
  obtain ⟨earlier, member, there⟩ := (knows.kept _ seen).2 edge first
  exact (mem_firstEdges.mp first).2 earlier member there

/-- One run more, with its diagnostic met and its aspects kept unless it is a crash met before. -/
theorem Knows.snoc (knows : archive.Knows past)
    (diagnostics : ∀ diagnostic, diagnostic ∈ after.diagnostics ↔
      diagnostic ∈ archive.diagnostics ∨ s.outcome = .failed diagnostic)
    (aspects : after.aspects = s.aspects past :: archive.aspects ∨ after.aspects = archive.aspects ∧
      ∀ termination, s.outcome = .crashed termination →
        ∃ earlier ∈ past, earlier.outcome = .crashed termination) :
    after.Knows (past ++ [s]) := by
  constructor
  · intro diagnostic
    rw [diagnostics, knows.diagnostics, exists_mem_snoc]
  · intro termination
    rw [exists_mem_snoc, ← knows.crashes]
    rcases aspects with kept | ⟨same, old⟩
    · rw [kept, List.mem_cons, ← aspects_eq_crash_iff, eq_comm, or_comm]
    · rw [same]
      constructor
      · exact .inl
      · rintro (seen | crash)
        · exact seen
        · exact (knows.crashes termination).mpr (old termination crash)
  · intro a member
    have earlier : a = s.aspects past ∨ a ∈ archive.aspects := by
      rcases aspects with kept | ⟨same, -⟩
      · exact List.mem_cons.mp (kept ▸ member)
      · exact .inr (same ▸ member)
    simp only [exists_mem_snoc]
    rcases earlier with rfl | old
    · exact ⟨.inr rfl, fun edge first => .inr (mem_firstEdges.mp first).1⟩
    · exact ⟨.inl (knows.kept a old).1, fun edge there => .inl ((knows.kept a old).2 edge there)⟩

theorem meet_fst_iff : (archive.meet diagnostic).1 = true ↔ diagnostic ∉ archive.diagnostics := by
  unfold meet
  split
  next known => simpa using known
  next absent => simpa using absent

theorem aspects_meet : (archive.meet diagnostic).2.aspects = archive.aspects := by
  unfold meet
  split <;> rfl

theorem mem_diagnostics_meet {other : String} :
    other ∈ (archive.meet diagnostic).2.diagnostics ↔ other ∈ archive.diagnostics ∨ diagnostic = other := by
  unfold meet
  split
  next known =>
    constructor
    · exact .inl
    · rintro (old | rfl)
      · exact old
      · simpa using known
  next => rw [List.mem_cons, or_comm, eq_comm]

/-- Aspects that were not kept before are kept for a crash, a new edge or a new diagnostic. -/
theorem judge_kept_iff (unseen : aspects ∉ archive.aspects) :
    (archive.judge aspects).1 = true ↔ aspects.outcome.isCrash = true ∨ aspects.reachesNew = true ∨
      ∃ diagnostic, aspects.outcome = .failed diagnostic ∧ diagnostic ∉ archive.diagnostics := by
  have absent : archive.aspects.contains aspects = false := by simpa using unseen
  unfold judge
  rw [absent]
  cases outcome : aspects.outcome with
  | crashed termination => simp [Outcome.isCrash]
  | failed diagnostic =>
    have met : (archive.meet diagnostic).1 = true ↔ diagnostic ∉ archive.diagnostics := meet_fst_iff
    cases isNew : (archive.meet diagnostic).1 <;> cases reaches : aspects.reachesNew <;>
      simp_all [Outcome.isCrash]
  | succeeded => cases reaches : aspects.reachesNew <;> simp [Outcome.isCrash]
  | timedOut => cases reaches : aspects.reachesNew <;> simp [Outcome.isCrash]

theorem aspects_judge (unseen : aspects ∉ archive.aspects) :
    (archive.judge aspects).2.aspects =
      if (archive.judge aspects).1 then aspects :: archive.aspects else archive.aspects := by
  have absent : archive.aspects.contains aspects = false := by simpa using unseen
  unfold judge
  rw [absent]
  cases aspects.outcome with
  | crashed termination => rfl
  | failed diagnostic =>
    simp only [Bool.false_eq_true, if_false]
    split <;> simp [keep, aspects_meet]
  | succeeded => cases aspects.reachesNew <;> rfl
  | timedOut => cases aspects.reachesNew <;> rfl

theorem mem_diagnostics_judge (unseen : aspects ∉ archive.aspects) :
    diagnostic ∈ (archive.judge aspects).2.diagnostics ↔
      diagnostic ∈ archive.diagnostics ∨ aspects.outcome = .failed diagnostic := by
  have absent : archive.aspects.contains aspects = false := by simpa using unseen
  unfold judge
  rw [absent]
  cases aspects.outcome with
  | crashed termination => simp [keep]
  | failed other =>
    simp only [Bool.false_eq_true, if_false, Outcome.failed.injEq]
    split <;> simp [keep, mem_diagnostics_meet]
  | succeeded => cases aspects.reachesNew <;> simp [keep]
  | timedOut => cases aspects.reachesNew <;> simp [keep]

theorem judge_of_seen (seen : aspects ∈ archive.aspects) : archive.judge aspects = (false, archive) := by
  simp [judge, seen]

/-- A crash with aspects that are not in the archive is the first of its kind. -/
theorem Knows.isCrash_iff (knows : archive.Knows past) (unseen : s.aspects past ∉ archive.aspects) :
    s.outcome.isCrash = true ↔ ∃ termination, s.outcome = .crashed termination ∧
      ∀ earlier ∈ past, earlier.outcome ≠ .crashed termination := by
  constructor
  · intro crash
    cases outcome : s.outcome with
    | crashed termination =>
      refine ⟨termination, rfl, fun earlier member same => unseen ?_⟩
      rw [aspects_eq_crash_iff.mpr outcome]
      exact (knows.crashes termination).mpr ⟨earlier, member, same⟩
    | _ => simp [outcome, Outcome.isCrash] at crash
  · rintro ⟨termination, crash, -⟩
    rw [crash]
    rfl

/-- A run is kept if it is news. -/
theorem Knows.judge_iff (knows : archive.Knows past) (s : Sighting) :
    (archive.judge (s.aspects past)).1 = true ↔ s.IsNews past := by
  have edgesNew : (s.aspects past).reachesNew = true ↔ _ := reachesNew_iff
  unfold IsNews
  rw [← edgesNew]
  by_cases seen : s.aspects past ∈ archive.aspects
  · -- The crash or the diagnostic is that of a run before, and no edge is new.
    obtain ⟨earlier, member, same⟩ := (knows.kept _ seen).1
    have old : earlier.outcome = s.outcome := same
    rw [judge_of_seen seen, knows.no_edges seen]
    simp only [Bool.false_eq_true, false_or, false_iff, not_or, not_exists, not_and]
    exact ⟨fun termination crash absent => absent earlier member (old.trans crash),
      fun diagnostic failure absent => absent earlier member (old.trans failure)⟩
  · have failures : (∃ diagnostic, s.outcome = .failed diagnostic ∧ diagnostic ∉ archive.diagnostics) ↔
        ∃ diagnostic, s.outcome = .failed diagnostic ∧
          ∀ earlier ∈ past, earlier.outcome ≠ .failed diagnostic := by
      simp only [knows.diagnostics, not_exists, not_and, ne_eq]
    rw [judge_kept_iff seen, ← knows.isCrash_iff seen, ← failures]
    exact Iff.rfl

/-- An archive that has judged a run knows it. A run that is passed over with a diagnostic met before
leaves the archive as it was: the diagnostic is there already. -/
theorem Knows.judge (knows : archive.Knows past) (s : Sighting) :
    (archive.judge (s.aspects past)).2.Knows (past ++ [s]) := by
  by_cases seen : s.aspects past ∈ archive.aspects
  · obtain ⟨earlier, member, same⟩ := (knows.kept _ seen).1
    have old : earlier.outcome = s.outcome := same
    rw [judge_of_seen seen]
    apply knows.snoc
    · intro diagnostic
      rw [knows.diagnostics]
      constructor
      · exact .inl
      · rintro (known | failure)
        · exact known
        · exact ⟨earlier, member, old.trans failure⟩
    · exact .inr ⟨rfl, fun termination crash => ⟨earlier, member, old.trans crash⟩⟩
  · apply knows.snoc (fun _ => mem_diagnostics_judge seen)
    rw [aspects_judge seen]
    split
    · exact .inl rfl
    next passed =>
      refine .inr ⟨rfl, fun termination crash => ?_⟩
      have crashed : s.outcome.isCrash = true := by rw [crash]; rfl
      exact absurd ((judge_kept_iff seen).mpr (.inl crashed)) passed

end Archive

end EngineFuzz
