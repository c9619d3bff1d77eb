import EngineFuzz.Proofs.Session.History
import EngineFuzz.Proofs.Session.Transcript
import Mathlib.Algebra.GroupWithZero.Nat

/-!
What a worker keeps. Its report is read against the history of its runs: the findings are the news of
this history, each with the edges that it was the first to reach, and no edge is lost or told twice.
-/

namespace EngineFuzz

namespace Sighting

variable {past : List Sighting} {s run : Sighting} {iteration : Nat}

theorem getElem?_append (more : List Sighting) (found : past[iteration]? = some run) :
    (past ++ more)[iteration]? = some run ∧ (past ++ more).take iteration = past.take iteration := by
  obtain ⟨inside, -⟩ := List.getElem?_eq_some_iff.mp found
  rw [List.getElem?_append_left inside, List.take_append_of_le_length (Nat.le_of_lt inside)]
  exact ⟨found, rfl⟩

/-- A run that is no news reaches no edge for the first time. -/
theorem firstEdges_of_not_news (old : ¬ s.IsNews past) {edge : UInt64} :
    edge ∉ (s.firstEdges past).edges := by
  intro first
  have reaches : (s.aspects past).reachesNew = true := by
    rw [Aspects.reachesNew, Bool.not_eq_true', EdgeSet.isEmpty_eq_false_iff]
    exact ⟨edge, first⟩
  exact old (.inr (.inl (reachesNew_iff.mp reaches)))

/-- What a history reaches is what it reached before and what its last run is the first to reach. -/
theorem reached_snoc_iff {edge : UInt64} : (∃ run ∈ past ++ [s], edge ∈ run.reached) ↔
    (∃ run ∈ past, edge ∈ run.reached) ∨ edge ∈ (s.firstEdges past).edges := by
  rw [exists_mem_snoc, mem_firstEdges]
  by_cases known : ∃ run ∈ past, edge ∈ run.reached
  · exact iff_of_true (.inl known) (.inl known)
  · have absent : ∀ earlier ∈ past, edge ∉ earlier.reached := fun earlier member there =>
      known ⟨earlier, member, there⟩
    simp only [known, false_or]
    exact ⟨fun here => ⟨here, absent⟩, fun first => first.1⟩

/-- News has aspects that no run of the history had. -/
theorem IsNews.aspects_ne (news : s.IsNews past) {earlier : Sighting} (member : earlier ∈ past)
    (before : List Sighting) : earlier.aspects before ≠ s.aspects past := by
  intro same
  have outcome : earlier.outcome = s.outcome := congrArg Aspects.outcome same
  have edges : earlier.firstEdges before = s.firstEdges past := congrArg Aspects.edges same
  rcases news with ⟨termination, crash, absent⟩ | ⟨lasting, edge, hit, absent⟩ | ⟨diagnostic, failure, absent⟩
  · exact absent earlier member (outcome.trans crash)
  · have first : edge ∈ (s.firstEdges past).edges := mem_firstEdges.mpr
      ⟨mem_reached.mpr ⟨lasting, hit⟩, fun other there reached =>
        absent other there (mem_reached.mp reached).1 (mem_reached.mp reached).2⟩
    obtain ⟨safe, again⟩ := mem_reached.mp (mem_firstEdges.mp (edges ▸ first)).1
    exact absent earlier member safe again
  · exact absent earlier member (outcome.trans failure)

end Sighting

open Sighting

/-- What the report of a worker says of the history of its runs. -/
structure Report.IsDigest (report : Report) (history : List Sighting) : Prop where
  /-- The findings are in order, and an iteration has at most one. -/
  ordered : report.findings.toList.Pairwise fun a b => a.iteration < b.iteration
  kept : ∀ iteration run, history[iteration]? = some run →
    ((∃ finding ∈ report.findings.toList, finding.iteration = iteration) ↔
      run.IsNews (history.take iteration))
  told : ∀ finding ∈ report.findings.toList, ∃ run, history[finding.iteration]? = some run ∧
    finding.aspects = run.aspects (history.take finding.iteration)
  apart : report.findings.toList.Pairwise fun a b =>
    ∀ edge ∈ a.aspects.edges.edges, edge ∉ b.aspects.edges.edges
  complete : ∀ edge, (∃ finding ∈ report.findings.toList, edge ∈ finding.aspects.edges.edges) ↔
    ∃ run ∈ history, edge ∈ run.reached
  counted : report.edges = (report.findings.toList.map fun finding => finding.aspects.edges.size).sum
  different : report.findings.toList.Pairwise fun a b => a.aspects ≠ b.aspects

namespace Report

variable {report after : Report} {past : List Sighting} {s : Sighting}

theorem isDigest_empty : Report.empty.IsDigest [] := by
  constructor <;> simp [Report.empty]

/-- The iterations with a finding are those of the history. -/
theorem IsDigest.iteration_lt (digest : report.IsDigest past) {finding : Finding}
    (member : finding ∈ report.findings.toList) : finding.iteration < past.length := by
  obtain ⟨run, found, -⟩ := digest.told finding member
  exact (List.getElem?_eq_some_iff.mp found).1

theorem IsDigest.exists_run (digest : report.IsDigest past) {finding : Finding}
    (member : finding ∈ report.findings.toList) :
    ∃ run ∈ past, ∃ before, finding.aspects = run.aspects before := by
  obtain ⟨run, found, same⟩ := digest.told finding member
  exact ⟨run, List.mem_of_getElem? found, _, same⟩

/-- What is told of a run stays true of a longer history. -/
theorem IsDigest.told_append (digest : report.IsDigest past) (more : List Sighting) {finding : Finding}
    (member : finding ∈ report.findings.toList) : ∃ run, (past ++ more)[finding.iteration]? = some run ∧
      finding.aspects = run.aspects ((past ++ more).take finding.iteration) := by
  obtain ⟨run, found, same⟩ := digest.told finding member
  obtain ⟨later, prior⟩ := getElem?_append more found
  exact ⟨run, later, prior ▸ same⟩

/-- A run that is no news leaves the report as it is. -/
theorem IsDigest.pass (digest : report.IsDigest past) (old : ¬ s.IsNews past)
    (findings : after.findings = report.findings) (edges : after.edges = report.edges) :
    after.IsDigest (past ++ [s]) := by
  constructor
  · exact findings ▸ digest.ordered
  · intro iteration run found
    rw [findings]
    rcases getElem?_snoc found with ⟨before, inside⟩ | ⟨rfl, rfl⟩
    · rw [List.take_append_of_le_length (Nat.le_of_lt inside)]
      exact digest.kept iteration run before
    · rw [List.take_left]
      refine iff_of_false ?_ old
      rintro ⟨finding, member, same⟩
      exact absurd (digest.iteration_lt member) (by omega)
  · intro finding member
    exact digest.told_append [s] (findings ▸ member)
  · exact findings ▸ digest.apart
  · intro edge
    rw [findings, digest.complete, reached_snoc_iff]
    simp only [firstEdges_of_not_news old, or_false]
  · rw [findings, edges, digest.counted]
  · exact findings ▸ digest.different

theorem pairwise_push {findings : Array Finding} {finding : Finding} {r : Finding → Finding → Prop}
    (pairwise : findings.toList.Pairwise r) (last : ∀ earlier ∈ findings.toList, r earlier finding) :
    (findings.push finding).toList.Pairwise r := by
  rw [Array.toList_push, List.pairwise_append]
  refine ⟨pairwise, List.pairwise_singleton r finding, fun earlier member other here => ?_⟩
  rw [List.mem_singleton.mp here]
  exact last earlier member

/-- News is put down at the end. -/
theorem IsDigest.keep (digest : report.IsDigest past) (news : s.IsNews past) {finding : Finding}
    (iteration : finding.iteration = past.length) (aspects : finding.aspects = s.aspects past)
    (findings : after.findings = report.findings.push finding)
    (edges : after.edges = report.edges + (s.firstEdges past).size) :
    after.IsDigest (past ++ [s]) := by
  have mem_iff : ∀ other, other ∈ after.findings.toList ↔ other ∈ report.findings.toList ∨ other = finding := by
    intro other
    rw [findings, Array.toList_push, List.mem_append, List.mem_singleton]
  constructor
  · rw [findings]
    refine pairwise_push digest.ordered fun earlier member => ?_
    rw [iteration]
    exact digest.iteration_lt member
  · intro i run found
    simp only [mem_iff]
    rcases getElem?_snoc found with ⟨before, inside⟩ | ⟨rfl, rfl⟩
    · rw [List.take_append_of_le_length (Nat.le_of_lt inside), ← digest.kept i run before]
      constructor
      · rintro ⟨other, old | rfl, same⟩
        · exact ⟨other, old, same⟩
        · omega
      · rintro ⟨other, old, same⟩
        exact ⟨other, .inl old, same⟩
    · rw [List.take_left]
      exact iff_of_true ⟨finding, .inr rfl, iteration⟩ news
  · intro other member
    rcases (mem_iff other).mp member with old | rfl
    · exact digest.told_append [s] old
    · rw [iteration, List.take_left, aspects]
      exact ⟨s, List.getElem?_concat_length .., rfl⟩
  · rw [findings]
    refine pairwise_push digest.apart fun earlier member edge there new => ?_
    obtain ⟨run, old, before, same⟩ := digest.exists_run member
    rw [same] at there
    rw [aspects] at new
    exact (mem_firstEdges.mp new).2 run old (mem_firstEdges.mp there).1
  · intro edge
    have first : finding.aspects.edges = s.firstEdges past := congrArg Aspects.edges aspects
    rw [reached_snoc_iff, ← digest.complete]
    simp only [mem_iff, or_and_right, exists_or, exists_eq_left, first]
  · rw [edges, findings, digest.counted, Array.toList_push, List.map_append, List.sum_append,
      List.map_singleton, List.sum_singleton, aspects]
    rfl
  · rw [findings]
    refine pairwise_push digest.different fun earlier member same => ?_
    obtain ⟨run, old, before, told⟩ := digest.exists_run member
    exact news.aspects_ne old before (told.symm.trans (same.trans aspects))

end Report

/-- What is to be seen of a run of a session. -/
def Setup.sighting (setup : Setup) (execution : Execution) : Sighting :=
  ⟨setup.classifier.classify execution.raw, execution.edges⟩

/-- What a worker has learned of a history: the edges, the aspects and diagnostics to compare the next
run with, and the findings. -/
structure Worker.Knows (worker : Worker) (past : List Sighting) : Prop where
  coverage : ∀ edge, edge ∈ worker.coverage.known.edges ↔ ∃ earlier ∈ past, edge ∈ earlier.reached
  archive : worker.archive.Knows past
  digest : worker.report.IsDigest past

namespace Worker

variable {σ : Type} {setup : Setup} {config : SessionConfig} {runner : Runner σ}
  {iteration : Nat} {worker after : Worker} {state later : σ} {exchanges : List Exchange}
  {past : List Sighting}

theorem knows_start (number : Nat) : (start number).Knows [] where
  coverage := by simp [start, Coverage.empty, EdgeSet.empty]
  archive := Archive.knows_empty
  digest := Report.isDigest_empty

/-- The trace of a run that does not crash has the edges that are new in the history. -/
theorem Knows.newEdges (knows : worker.Knows past) (s : Sighting) (lasting : s.outcome.isCrash = false) :
    (worker.coverage.reach s.edges).1.newEdges = (s.firstEdges past).edges := by
  apply congrArg EdgeSet.edges
  apply EdgeSet.ext_mem
  intro edge
  have unknown : edge ∉ worker.coverage.known.edges ↔ ∀ earlier ∈ past, edge ∉ earlier.reached := by
    simp only [knows.coverage, not_exists, not_and]
  have hit : edge ∈ s.reached ↔ edge ∈ s.edges := by simp only [mem_reached, lasting, true_and]
  calc edge ∈ (worker.coverage.reach s.edges).1.newEdges
    _ ↔ edge ∈ s.edges ∧ edge ∉ worker.coverage.known.edges := Coverage.mem_newEdges_reach
    _ ↔ edge ∈ s.reached ∧ ∀ earlier ∈ past, edge ∉ earlier.reached := by rw [hit, unknown]
    _ ↔ edge ∈ (s.firstEdges past).edges := mem_firstEdges.symm

/-- The aspects of a run are told from the coverage as from the history. -/
theorem Knows.aspectsOf (knows : worker.Knows past) (setup : Setup) (execution : Execution) :
    worker.aspectsOf setup.classifier execution = (setup.sighting execution).aspects past := by
  cases crash : (setup.classifier.classify execution.raw).isCrash with
  | true =>
    have none : (setup.sighting execution).firstEdges past = .empty := firstEdges_of_crash past crash
    simp only [Worker.aspectsOf, Aspects.ofRun, crash, if_true, Sighting.aspects, none]
    rfl
  | false =>
    have edges : (worker.coverage.reach execution.edges).1.newEdges =
        ((setup.sighting execution).firstEdges past).edges :=
      knows.newEdges (setup.sighting execution) crash
    simp only [Worker.aspectsOf, Aspects.ofRun, Worker.trace, crash, edges, EdgeSet.ofList_edges,
      Bool.false_eq_true, if_false, Sighting.aspects]
    rfl

/-- Coverage grows by the edges that are new in the history. -/
theorem Knows.size_absorb (knows : worker.Knows past) (setup : Setup) (iteration : Nat) (draft : Draft)
    (execution : Execution) : (worker.absorb setup iteration draft execution).coverage.size =
      worker.coverage.size + ((setup.sighting execution).firstEdges past).size := by
  rw [coverage_absorb]
  split
  next crash =>
    have none : (setup.sighting execution).firstEdges past = .empty := firstEdges_of_crash past crash
    rw [none]
    rfl
  next lasting =>
    have edges : (worker.coverage.reach execution.edges).1.newEdges =
        ((setup.sighting execution).firstEdges past).edges :=
      knows.newEdges (setup.sighting execution) (Bool.eq_false_iff.mpr lasting)
    rw [Coverage.size_reach, edges, EdgeSet.size]

theorem Knows.absorb (knows : worker.Knows past) (here : iteration = past.length) (setup : Setup)
    (draft : Draft) (execution : Execution) :
    (worker.absorb setup iteration draft execution).Knows (past ++ [setup.sighting execution]) := by
  constructor
  · intro edge
    have reached : edge ∈ (setup.sighting execution).reached ↔
        (setup.classifier.classify execution.raw).isCrash = false ∧ edge ∈ execution.edges := mem_reached
    rw [coverage_absorb, exists_mem_snoc, ← knows.coverage, reached]
    cases crash : (setup.classifier.classify execution.raw).isCrash with
    | true => simp
    | false => simp [Coverage.mem_known_reach, or_comm]
  · rw [archive_absorb, knows.aspectsOf]
    exact knows.archive.judge _
  · have findings := findings_absorb worker setup iteration draft execution
    have size := knows.size_absorb setup iteration draft execution
    simp only [knows.aspectsOf] at findings
    by_cases news : (setup.sighting execution).IsNews past
    · rw [if_pos ((knows.archive.judge_iff _).mpr news)] at findings
      exact knows.digest.keep news here rfl findings size
    · rw [if_neg fun kept => news ((knows.archive.judge_iff _).mp kept)] at findings
      have none : (setup.sighting execution).firstEdges past = .empty :=
        EdgeSet.ext_mem fun edge => iff_of_false (firstEdges_of_not_news news) List.not_mem_nil
      rw [none] at size
      exact knows.digest.pass news findings size

theorem Ran.knows (ran : Ran setup config runner iteration worker state exchanges after later)
    (here : iteration = past.length) (knows : worker.Knows past) :
    after.Knows (past ++ exchanges.map fun (_, execution) => setup.sighting execution) := by
  induction ran generalizing past with
  | done => simpa using knows
  | @next iteration worker after state later draft exchanges drawn rest ih =>
    have one := knows.absorb here setup draft (runner state (setup.scriptOf draft)).1
    have all := ih (by rw [List.length_append, List.length_singleton, here]) one
    rw [List.append_assoc, List.singleton_append] at all
    exact all

end Worker

namespace Setup

variable {σ : Type} (setup : Setup) (config : SessionConfig) (runner : Runner σ)

/-- What a worker gets to see of its runs, the first one first. -/
def history (number : Nat) (state : σ) : List Sighting :=
  (setup.work config (runner.noting fun _ execution => execution) number (state, [])).2.2.reverse.map
    setup.sighting

/-- A worker keeps an iteration if and only if its run is news: a crash, an edge of a run that did not
crash, or a diagnostic, that no earlier iteration of the worker had. The history is that of the same
session, with every execution noted. -/
theorem findings_are_news (number : Nat) (state : σ) (report : Report)
    (completed : (setup.work config runner number state).1 = .ok report) :
    (setup.work config (runner.noting fun _ execution => execution) number (state, [])).1 = .ok report ∧
      (setup.history config runner number state).length = config.iterations ∧
      report.IsDigest (setup.history config runner number state) := by
  obtain ⟨exchanges, worker, length, rfl, ran⟩ := ran_of_work (Prod.ext completed rfl)
  have noted := work_noting length ran fun _ execution => execution
  have history : setup.history config runner number state =
      exchanges.map fun (_, execution) => setup.sighting execution := by
    rw [history, noted, List.reverse_reverse, List.map_map]
    rfl
  have knows := ran.knows (Eq.refl _) (Worker.knows_start number)
  rw [history, List.length_map, noted]
  exact ⟨rfl, length, knows.digest⟩

/-- Answers with two edges, a crash, an edge that was hit before the crash, the same crash, and the
same failure twice. -/
def mixedFortune : Runner Nat := fun count _ =>
  let execution : Execution :=
    match count with
    | 0 => ⟨.clean, [5, 3]⟩
    | 1 => ⟨{ RawRun.blank with signal := some 11 }, [9]⟩
    | 2 => ⟨.clean, [9, 3]⟩
    | 3 => ⟨{ RawRun.blank with signal := some 11 }, [7]⟩
    | _ => ⟨{ RawRun.clean with stderr := "TypeError: v0 is not a function" }, [5]⟩
  (execution, count + 1)

def sixShots : SessionConfig := { SessionConfig.standard with iterations := 6, programSize := 1 }

theorem mixedFortune_findings : ∃ report, (usual.work sixShots mixedFortune 1 0).1 = .ok report ∧
    report.findings.toList.map Finding.iteration = [0, 1, 2, 4] ∧
    report.IsDigest (usual.history sixShots mixedFortune 1 0) := by
  have kept : ((usual.work sixShots mixedFortune 1 0).1.map
      (·.findings.toList.map Finding.iteration)).toOption = some [0, 1, 2, 4] := by decide +kernel
  obtain ⟨report, completed⟩ := exists_of_isOk
    (by decide +kernel : (usual.work sixShots mixedFortune 1 0).1.isOk = true)
  rw [completed] at kept
  exact ⟨report, completed, Option.some.inj kept, (findings_are_news _ _ _ _ _ report completed).2.2⟩

end Setup

end EngineFuzz
