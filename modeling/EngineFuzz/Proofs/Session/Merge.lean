import EngineFuzz.Proofs.Session.Novelty
import Mathlib.Tactic.Choose

/-!
What a session of several workers comes to: the reports that its workers have on their own, one after
the other. Main statement: findings are put in a row and counts are added up, nothing is counted twice
and nothing is lost, and workers that are left out at the end take nothing with them but their own.
-/

namespace EngineFuzz

/-- Whether a script ended in an error that the target survived. -/
def Outcome.isFailure : Outcome → Bool
  | failed _ => true
  | _ => false

/-- Whether a tally has every one of `outcomes` once. -/
structure Tally.Counts (tally : Tally) (outcomes : List Outcome) : Prop where
  succeeded : tally.succeeded = outcomes.count .succeeded
  failed : tally.failed = outcomes.countP Outcome.isFailure
  crashed : tally.crashed = outcomes.countP Outcome.isCrash
  timedOut : tally.timedOut = outcomes.count .timedOut

namespace Tally

variable {tally a b : Tally} {outcomes first second : List Outcome}

theorem counts_zero : zero.Counts [] := ⟨rfl, rfl, rfl, rfl⟩

theorem Counts.add (here : a.Counts first) (there : b.Counts second) :
    (a.add b).Counts (first ++ second) where
  succeeded := by rw [List.count_append, ← here.succeeded, ← there.succeeded, Tally.add]
  failed := by rw [List.countP_append, ← here.failed, ← there.failed, Tally.add]
  crashed := by rw [List.countP_append, ← here.crashed, ← there.crashed, Tally.add]
  timedOut := by rw [List.count_append, ← here.timedOut, ← there.timedOut, Tally.add]

theorem counts_singleton (outcome : Outcome) : (zero.count outcome).Counts [outcome] := by
  cases outcome <;> exact ⟨rfl, rfl, rfl, rfl⟩

theorem count_eq_add (tally : Tally) (outcome : Outcome) :
    tally.count outcome = tally.add (zero.count outcome) := by
  cases outcome <;> rfl

theorem Counts.count (counts : tally.Counts outcomes) (outcome : Outcome) :
    (tally.count outcome).Counts (outcomes ++ [outcome]) :=
  count_eq_add tally outcome ▸ counts.add (counts_singleton outcome)

/-- Every outcome is of one kind. -/
theorem Counts.total_eq (counts : tally.Counts outcomes) : tally.total = outcomes.length := by
  rw [total, counts.succeeded, counts.failed, counts.crashed, counts.timedOut]
  clear counts
  induction outcomes with
  | nil => rfl
  | cons outcome outcomes ih =>
    rw [List.length_cons, ← ih]
    cases outcome <;> simp [List.countP_cons, Outcome.isFailure, Outcome.isCrash] <;> omega

end Tally

/-! ### Reports put together -/

/-- Whether a report has what `parts` have: their findings in a row, and the sums of their counts. -/
structure Report.IsMerge (report : Report) (parts : List Report) : Prop where
  findings : report.findings.toList = parts.flatMap (·.findings.toList)
  succeeded : report.tally.succeeded = (parts.map (·.tally.succeeded)).sum
  failed : report.tally.failed = (parts.map (·.tally.failed)).sum
  crashed : report.tally.crashed = (parts.map (·.tally.crashed)).sum
  timedOut : report.tally.timedOut = (parts.map (·.tally.timedOut)).sum
  emitted : report.emitted = (parts.map (·.emitted)).sum
  skipped : report.skipped = (parts.map (·.skipped)).sum
  edges : report.edges = (parts.map (·.edges)).sum

namespace Report

/-- All that is added up when two reports are merged is added up when many are. -/
theorem sum_foldr_merge (field : Report → Nat) (none : field .empty = 0)
    (both : ∀ a b : Report, field (a.merge b) = field a + field b) (parts : List Report) :
    field (parts.foldr merge .empty) = (parts.map field).sum := by
  induction parts with
  | nil => exact none
  | cons part parts ih => rw [List.foldr_cons, both, ih, List.map_cons, List.sum_cons]

theorem findings_foldr_merge (parts : List Report) :
    (parts.foldr merge .empty).findings.toList = parts.flatMap (·.findings.toList) := by
  induction parts with
  | nil => rfl
  | cons part parts ih => rw [List.foldr_cons, merge, Array.toList_append, ih, List.flatMap_cons]

theorem isMerge_foldr (parts : List Report) : (parts.foldr merge .empty).IsMerge parts where
  findings := findings_foldr_merge parts
  succeeded := sum_foldr_merge (·.tally.succeeded) rfl (fun _ _ => rfl) parts
  failed := sum_foldr_merge (·.tally.failed) rfl (fun _ _ => rfl) parts
  crashed := sum_foldr_merge (·.tally.crashed) rfl (fun _ _ => rfl) parts
  timedOut := sum_foldr_merge (·.tally.timedOut) rfl (fun _ _ => rfl) parts
  emitted := sum_foldr_merge (·.emitted) rfl (fun _ _ => rfl) parts
  skipped := sum_foldr_merge (·.skipped) rfl (fun _ _ => rfl) parts
  edges := sum_foldr_merge (·.edges) rfl (fun _ _ => rfl) parts

/-- The reports of the workers below `count`, put together. -/
def joined (part : Nat → Report) (count : Nat) : Report :=
  ((List.range count).map part).foldr merge .empty

variable {part : Nat → Report} {count : Nat}

theorem findings_joined (part : Nat → Report) (count : Nat) : (joined part count).findings.toList =
    (List.range count).flatMap fun number => (part number).findings.toList := by
  rw [joined, findings_foldr_merge, List.flatMap_map]

/-- Fewer workers have the first of the findings. -/
theorem findings_joined_prefix (part : Nat → Report) {few many : Nat} (fewer : few ≤ many) :
    (joined part few).findings.toList <+: (joined part many).findings.toList := by
  obtain ⟨more, rfl⟩ := Nat.exists_eq_add_of_le fewer
  rw [findings_joined, findings_joined, List.range_add, List.flatMap_append]
  exact List.prefix_append ..

theorem counts_joined {outcomes : Nat → List Outcome}
    (each : ∀ number < count, (part number).tally.Counts (outcomes number)) :
    (joined part count).tally.Counts ((List.range count).flatMap outcomes) := by
  have among : ∀ number ∈ List.range count, (part number).tally.Counts (outcomes number) :=
    fun number member => each number (List.mem_range.mp member)
  unfold joined
  generalize List.range count = numbers at among
  induction numbers with
  | nil => exact Tally.counts_zero
  | cons number numbers ih =>
    obtain ⟨first, rest⟩ := List.forall_mem_cons.mp among
    exact first.add (ih rest)

end Report

/-! ### One worker -/

/-- Whether one finding comes before another: an earlier worker's, or an earlier iteration's. -/
def Finding.Precedes (a b : Finding) : Prop :=
  a.worker < b.worker ∨ a.worker = b.worker ∧ a.iteration < b.iteration

namespace Worker

/-- Findings that bear the number of their worker, and are numbered from zero. -/
structure IsNumbered (worker : Worker) : Prop where
  ids : worker.findings.toList.map Finding.id = List.range worker.findings.size
  own : ∀ finding ∈ worker.findings.toList, finding.worker = worker.number

variable {σ : Type} {setup : Setup} {config : SessionConfig} {runner : Runner σ}
  {iteration : Nat} {worker after : Worker} {state later : σ} {exchanges : List Exchange}

theorem isNumbered_start (number : Nat) : (start number).IsNumbered := ⟨rfl, by simp [start]⟩

theorem IsNumbered.absorb (numbered : worker.IsNumbered) (setup : Setup) (iteration : Nat) (draft : Draft)
    (execution : Execution) : (worker.absorb setup iteration draft execution).IsNumbered := by
  have findings := findings_absorb worker setup iteration draft execution
  simp only at findings
  constructor
  · rw [findings]
    split
    · rw [Array.toList_push, List.map_append, numbered.ids, Array.size_push, List.range_succ]
      rfl
    · exact numbered.ids
  · rw [number_absorb, findings]
    split
    · intro finding member
      rw [Array.toList_push, List.mem_append, List.mem_singleton] at member
      rcases member with old | rfl
      · exact numbered.own finding old
      · rfl
    · exact numbered.own

theorem Ran.number_eq (ran : Ran setup config runner iteration worker state exchanges after later) :
    after.number = worker.number := by
  induction ran with
  | done => rfl
  | next drawn rest ih => rw [ih, number_absorb]

theorem Ran.isNumbered (ran : Ran setup config runner iteration worker state exchanges after later)
    (numbered : worker.IsNumbered) : after.IsNumbered := by
  induction ran with
  | done => exact numbered
  | next drawn rest ih => exact ih (numbered.absorb ..)

/-- A worker counts the outcome of each of its runs. -/
theorem Ran.counts (ran : Ran setup config runner iteration worker state exchanges after later)
    {past : List Outcome} (counts : worker.tally.Counts past) :
    after.tally.Counts
      (past ++ exchanges.map fun (_, execution) => setup.classifier.classify execution.raw) := by
  induction ran generalizing past with
  | done => simpa using counts
  | @next iteration worker after state later draft exchanges drawn rest ih =>
    have one := counts.count (setup.classifier.classify (runner state (setup.scriptOf draft)).1.raw)
    rw [← tally_absorb worker setup iteration draft] at one
    have all := ih one
    rw [List.append_assoc, List.singleton_append] at all
    exact all

end Worker

namespace Setup

variable {σ : Type}

/-- What comes of the runs of a worker, the first one first. -/
def outcomes (setup : Setup) (config : SessionConfig) (runner : Runner σ) (number : Nat) (state : σ) :
    List Outcome :=
  (setup.history config runner number state).map Sighting.outcome

/-- What is true of the report of one worker, as it has it on its own. -/
structure IsPart (setup : Setup) (config : SessionConfig) (runner : Runner σ) (number : Nat) (state : σ)
    (part : Report) : Prop where
  alone : (setup.work config runner number state).1 = .ok part
  /-- The outcomes are those of the same work, with every execution noted. -/
  noted : (setup.work config (runner.noting fun _ execution => execution) number (state, [])).1 = .ok part
  counted : part.tally.Counts (setup.outcomes config runner number state)
  every : (setup.outcomes config runner number state).length = config.iterations
  ids : part.findings.toList.map Finding.id = List.range part.findings.size
  own : ∀ finding ∈ part.findings.toList, finding.worker = number
  ordered : part.findings.toList.Pairwise fun a b => a.iteration < b.iteration

variable {setup : Setup} {config : SessionConfig} {runner : Runner σ}

theorem isPart_of_work {number : Nat} {state : σ} {part : Report}
    (worked : (setup.work config runner number state).1 = .ok part) :
    setup.IsPart config runner number state part := by
  obtain ⟨exchanges, worker, length, rfl, ran⟩ := ran_of_work (Prod.ext worked rfl)
  have noted := work_noting length ran fun _ execution => execution
  have outcomes : setup.outcomes config runner number state =
      exchanges.map fun (_, execution) => setup.classifier.classify execution.raw := by
    rw [Setup.outcomes, history, noted, List.reverse_reverse, List.map_map, List.map_map]
    rfl
  have numbered := ran.isNumbered (Worker.isNumbered_start number)
  exact {
    alone := worked
    noted := congrArg Prod.fst noted
    counted := outcomes ▸ ran.counts Tally.counts_zero
    every := by rw [outcomes, List.length_map, length]
    ids := numbered.ids
    own := fun finding member => (numbered.own finding member).trans ran.number_eq
    ordered := (ran.knows (Eq.refl _) (Worker.knows_start number)).digest.ordered }

/-! ### All workers -/

/-- What is true of a session of all workers, whose reports on their own are those of `part`. -/
structure IsJoint (setup : Setup) (config : SessionConfig) (runner : Runner σ) (states : Nat → σ)
    (part : Nat → Report) (report : Report) : Prop where
  parts : ∀ number < config.workers, setup.IsPart config runner number (states number) (part number)
  merged : report.IsMerge ((List.range config.workers).map part)
  ordered : report.findings.toList.Pairwise Finding.Precedes
  counted : report.tally.Counts
    ((List.range config.workers).flatMap fun number => setup.outcomes config runner number (states number))
  executions : report.executions = config.workers * config.iterations
  /-- With fewer workers there are fewer findings, and they are the same as far as they go. -/
  fewer : ∀ workers, workers ≠ 0 → workers ≤ config.workers → ∃ less,
    (setup.runAll { config with workers } runner states).1 = .ok less ∧
      less.findings.toList <+: report.findings.toList

/-- The findings of workers in a row are in order. -/
theorem pairwise_findings_joined {part : Nat → Report} {count : Nat} {states : Nat → σ}
    (parts : ∀ number < count, setup.IsPart config runner number (states number) (part number)) :
    (Report.joined part count).findings.toList.Pairwise Finding.Precedes := by
  rw [Report.findings_joined, List.pairwise_flatMap]
  constructor
  · intro number member
    have here := parts number (List.mem_range.mp member)
    refine here.ordered.imp_of_mem fun {a b} first second earlier => ?_
    exact .inr ⟨(here.own a first).trans (here.own b second).symm, earlier⟩
  · refine List.pairwise_lt_range.imp_of_mem fun {m n} first second lower a found b other => .inl ?_
    rw [(parts m (List.mem_range.mp first)).own a found, (parts n (List.mem_range.mp second)).own b other]
    exact lower

/-- Every worker goes through all the iterations. -/
theorem length_outcomes {part : Nat → Report} {count : Nat} {states : Nat → σ}
    (parts : ∀ number < count, setup.IsPart config runner number (states number) (part number)) :
    ((List.range count).flatMap fun number => setup.outcomes config runner number (states number)).length =
      count * config.iterations := by
  rw [List.length_flatMap]
  calc
    _ = ((List.range count).map fun _ => config.iterations).sum :=
      congrArg List.sum (List.map_congr_left fun number member => (parts number (List.mem_range.mp member)).every)
    _ = _ := by rw [List.map_const', List.length_range, List.sum_replicate_nat]

/-- A session whose workers all succeed puts their reports together. -/
theorem runAll_of_works {part : Nat → Report} {states : Nat → σ} (valid : config.check = .ok ())
    (works : ∀ number < config.workers, (setup.work config runner number (states number)).1 = .ok (part number)) :
    (setup.runAll config runner states).1 = .ok (.joined part config.workers) := by
  rw [runAll_of_valid setup runner states valid, Report.joined, ← mergeAll_map_ok, List.map_map]
  exact congrArg mergeAll (List.map_congr_left fun number member => works number (List.mem_range.mp member))

theorem exists_parts {states : Nat → σ} {report : Report}
    (completed : (setup.runAll config runner states).1 = .ok report) :
    ∃ part : Nat → Report, ∀ number < config.workers,
      (setup.work config runner number (states number)).1 = .ok (part number) := by
  obtain ⟨-, reports, -, works⟩ := work_of_runAll completed
  have each : ∀ number, ∃ part, number < config.workers →
      (setup.work config runner number (states number)).1 = .ok part := by
    intro number
    by_cases inside : number < config.workers
    · have result : (setup.work config runner number (states number)).1 ∈ reports.map .ok :=
        works ▸ List.mem_map_of_mem (List.mem_range.mpr inside)
      obtain ⟨part, -, same⟩ := List.mem_map.mp result
      exact ⟨part, fun _ => same.symm⟩
    · exact ⟨.empty, fun below => absurd below inside⟩
  choose part worked using each
  exact ⟨part, worked⟩

/-- A worker does not know how many others there are. -/
theorem work_workers (setup : Setup) (config : SessionConfig) (workers : Nat) (runner : Runner σ)
    (number : Nat) (state : σ) :
    setup.work { config with workers } runner number state = setup.work config runner number state := by
  have alike : SessionConfig.DraftsAs { config with workers } config := ⟨rfl, rfl, rfl⟩
  simp only [work, alike.iterate_eq]

theorem runAll_isJoint {states : Nat → σ} {report : Report}
    (completed : (setup.runAll config runner states).1 = .ok report) :
    ∃ part, setup.IsJoint config runner states part report := by
  obtain ⟨valid, -⟩ := work_of_runAll completed
  obtain ⟨part, works⟩ := exists_parts completed
  have whole : report = .joined part config.workers :=
    Except.ok.inj (completed.symm.trans (runAll_of_works valid works))
  have parts : ∀ number < config.workers, setup.IsPart config runner number (states number) (part number) :=
    fun number inside => isPart_of_work (works number inside)
  have counted := Report.counts_joined fun number inside => (parts number inside).counted
  subst whole
  refine ⟨part, parts, Report.isMerge_foldr _, pairwise_findings_joined parts, counted, ?_, ?_⟩
  · rw [Report.executions, counted.total_eq, length_outcomes parts]
  · intro workers manned fewer
    have still : SessionConfig.check { config with workers } = .ok () :=
      SessionConfig.check_eq_ok_iff.mpr ⟨(SessionConfig.check_eq_ok_iff.mp valid).1, manned⟩
    refine ⟨_, runAll_of_works still fun number inside => ?_, Report.findings_joined_prefix part fewer⟩
    rw [work_workers]
    exact works number (Nat.lt_of_lt_of_le inside fewer)

theorem mergeAll_singleton (result : Except SessionError Report) : mergeAll [result] = result := by
  cases result with
  | error error => rfl
  | ok report => simp [mergeAll, Report.merge, Report.empty, Tally.add, Tally.zero]

/-- A session that succeeds is its workers' work put together, in the order of their numbers. That of
one worker alone is the same either way it is started. -/
theorem runAll_isMerge (setup : Setup) (config : SessionConfig) (runner : Runner σ) (states : Nat → σ) :
    (∀ report, (setup.runAll config runner states).1 = .ok report →
      ∃ part, setup.IsJoint config runner states part report) ∧
    (config.workers = 1 → setup.runAll config runner states =
      ((setup.run config runner (states 0)).1, [(setup.run config runner (states 0)).2])) := by
  refine ⟨fun report completed => runAll_isJoint completed, fun alone => ?_⟩
  cases valid : config.check with
  | error error => simp [runAll, run, valid, alone]
  | ok =>
    rw [runAll_of_valid setup runner states valid, alone]
    simp [run, valid, mergeAll_singleton]

def threeWorkers : SessionConfig := { sixShots with iterations := 3, workers := 3 }

theorem threeWorkers_isMerge :
    (∃ report part, (usual.runAll threeWorkers mixedFortune id).1 = .ok report ∧
      report.findings.toList.map (fun finding => (finding.worker, finding.id, finding.iteration)) =
        [(0, 0, 0), (0, 1, 1), (0, 2, 2), (1, 0, 0), (1, 1, 1), (2, 0, 0), (2, 1, 1), (2, 2, 2)] ∧
      report.tally = ⟨4, 1, 4, 0⟩ ∧ usual.IsJoint threeWorkers mixedFortune id part report) ∧
    usual.runAll sixShots mixedFortune id =
      ((usual.run sixShots mixedFortune 0).1, [(usual.run sixShots mixedFortune 0).2]) := by
  refine ⟨?_, (runAll_isMerge usual sixShots mixedFortune id).2 rfl⟩
  have kept : ((usual.runAll threeWorkers mixedFortune id).1.map fun report =>
      (report.findings.toList.map (fun finding => (finding.worker, finding.id, finding.iteration)),
        report.tally)).toOption =
      some ([(0, 0, 0), (0, 1, 1), (0, 2, 2), (1, 0, 0), (1, 1, 1), (2, 0, 0), (2, 1, 1), (2, 2, 2)],
        ⟨4, 1, 4, 0⟩) := by decide +kernel
  obtain ⟨report, completed⟩ := exists_of_isOk
    (by decide +kernel : (usual.runAll threeWorkers mixedFortune id).1.isOk = true)
  obtain ⟨part, joint⟩ := (runAll_isMerge usual threeWorkers mixedFortune id).1 report completed
  rw [completed] at kept
  obtain ⟨findings, tally⟩ := Prod.mk.inj (Option.some.inj kept)
  exact ⟨report, part, completed, findings, tally, joint⟩

end Setup

end EngineFuzz
