import EngineFuzz.Proofs.Session.Transcript

/-!
The scripts of a session do not depend on its runner. Main statement: each worker runs, in order, the
scripts that its iterations have on their own, and every finding can be had again from its worker and
its iteration.
-/

namespace EngineFuzz

/-- Whether a finding's script is that of its iteration. -/
def Finding.IsReproducible (setup : Setup) (config : SessionConfig) (finding : Finding) : Prop :=
  setup.scriptFor config finding.worker finding.iteration = .ok finding.script

namespace Worker

variable {σ : Type} {setup : Setup} {config : SessionConfig} {runner : Runner σ}
  {iteration : Nat} {worker after : Worker} {state later : σ} {exchanges : List Exchange}

/-- The drafts of a worker are those that its iterations have on their own. -/
theorem Ran.drafts (ran : Ran setup config runner iteration worker state exchanges after later) :
    exchanges.map (fun exchange => .ok exchange.1) =
      (List.range' iteration exchanges.length).map (setup.draftFor config worker.number) := by
  induction ran with
  | done => rfl
  | next drawn rest ih =>
    rw [number_absorb] at ih
    simp only [List.map_cons, List.length_cons, List.range'_succ, drawn, ih]

theorem Ran.findings_reproducible
    (ran : Ran setup config runner iteration worker state exchanges after later)
    (before : ∀ finding ∈ worker.findings, finding.IsReproducible setup config) :
    ∀ finding ∈ after.findings, finding.IsReproducible setup config := by
  induction ran with
  | done => exact before
  | @next iteration worker after state later draft exchanges drawn rest ih =>
    apply ih
    intro finding found
    rw [findings_absorb] at found
    split at found
    · rcases Array.mem_push.mp found with old | new
      · exact before finding old
      · simp only [Finding.IsReproducible, new, Setup.scriptFor, drawn, Except.map]
    · exact before finding found

end Worker

namespace Setup

variable {σ τ : Type}

/-- The scripts of all iterations of a worker, each as it is made on its own. -/
def plan (setup : Setup) (config : SessionConfig) (number : Nat) :
    List (Except SessionError String) :=
  (List.range config.iterations).map (setup.scriptFor config number)

/-- The scripts that a runner is given in a session of one worker, in order. -/
def scriptsRun (setup : Setup) (config : SessionConfig) (runner : Runner σ) (state : σ) :
    List String :=
  (setup.run config runner.recording (state, [])).2.2.reverse

/-- The scripts that the runner of each worker is given, worker by worker. -/
def scriptsRunAll (setup : Setup) (config : SessionConfig) (runner : Runner σ) (states : Nat → σ) :
    List (List String) :=
  (setup.runAll config runner.recording fun number => (states number, [])).2.map (·.2.reverse)

variable {setup : Setup} {config : SessionConfig} {runner : Runner σ}

/-- The work of one worker that succeeds: what its runner is given, and where its findings are from. -/
theorem work_follows_plan {number : Nat} {state : σ} {report : Report}
    (completed : (setup.work config runner number state).1 = .ok report) :
    ∃ scripts : List String, setup.work config runner.recording number (state, []) =
        (.ok report, (setup.work config runner number state).2, scripts.reverse) ∧
      scripts.map .ok = setup.plan config number ∧
      ∀ finding ∈ report.findings, finding.IsReproducible setup config := by
  have whole : setup.work config runner number state =
      (.ok report, (setup.work config runner number state).2) := Prod.ext completed rfl
  obtain ⟨exchanges, worker, length, rfl, ran⟩ := ran_of_work whole
  refine ⟨exchanges.map fun exchange => setup.scriptOf exchange.1, ?_, ?_, ?_⟩
  · exact work_noting length ran fun script _ => script
  · have drafts := ran.drafts
    rw [length, ← List.range_eq_range'] at drafts
    calc
      _ = (exchanges.map fun exchange => .ok exchange.1).map (Except.map setup.scriptOf) := by
        simp only [List.map_map]
        rfl
      _ = _ := by
        rw [drafts, List.map_map]
        rfl
  · exact ran.findings_reproducible (by simp [Worker.start])

theorem run_follows_plan {state : σ} {report : Report}
    (completed : (setup.run config runner state).1 = .ok report) :
    setup.run config runner.recording (state, []) = (.ok report, (setup.run config runner state).2,
        (setup.scriptsRun config runner state).reverse) ∧
      (setup.scriptsRun config runner state).map .ok = setup.plan config 0 ∧
      ∀ finding ∈ report.findings, finding.IsReproducible setup config := by
  have ⟨valid, work⟩ := work_of_run (Prod.ext completed rfl :
    setup.run config runner state = (.ok report, (setup.run config runner state).2))
  have ⟨scripts, recorded, planned, reproducible⟩ := work_follows_plan (congrArg Prod.fst work)
  rw [work] at recorded
  have session : setup.run config runner.recording (state, []) =
      (.ok report, (setup.run config runner state).2, scripts.reverse) := by
    rw [← recorded]
    simp only [run, valid]
  have kept : setup.scriptsRun config runner state = scripts := by
    rw [scriptsRun, session, List.reverse_reverse]
  exact ⟨kept ▸ session, kept ▸ planned, reproducible⟩

theorem mem_findings_merge {finding : Finding} {reports : List Report}
    (found : finding ∈ (reports.foldr Report.merge .empty).findings) :
    ∃ report ∈ reports, finding ∈ report.findings := by
  induction reports with
  | nil => simp [Report.empty] at found
  | cons first reports ih =>
    rcases Array.mem_append.mp found with here | later
    · exact ⟨first, List.mem_cons_self, here⟩
    · obtain ⟨report, member, there⟩ := ih later
      exact ⟨report, List.mem_cons_of_mem _ member, there⟩

theorem runAll_follows_plan {states : Nat → σ} {report : Report}
    (completed : (setup.runAll config runner states).1 = .ok report) :
    let recorded := setup.runAll config runner.recording fun number => (states number, [])
    recorded.1 = .ok report ∧ recorded.2.map (·.1) = (setup.runAll config runner states).2 ∧
      (setup.scriptsRunAll config runner states).map (·.map .ok) =
        (List.range config.workers).map (setup.plan config) ∧
      ∀ finding ∈ report.findings, finding.IsReproducible setup config := by
  have ⟨valid, reports, merged, works⟩ := work_of_runAll completed
  have each : ∀ number ∈ List.range config.workers, ∃ report ∈ reports,
      (setup.work config runner number (states number)).1 = .ok report := by
    intro number member
    have result : (setup.work config runner number (states number)).1 ∈ reports.map .ok :=
      works ▸ List.mem_map_of_mem member
    obtain ⟨report, member, same⟩ := List.mem_map.mp result
    exact ⟨report, member, same.symm⟩
  have recording : ∀ number ∈ List.range config.workers, ∃ scripts : List String,
      setup.work config runner.recording number (states number, []) =
        ((setup.work config runner number (states number)).1,
          (setup.work config runner number (states number)).2, scripts.reverse) ∧
      scripts.map .ok = setup.plan config number := by
    intro number member
    obtain ⟨report, -, worked⟩ := each number member
    obtain ⟨scripts, recorded, planned, -⟩ := work_follows_plan worked
    exact ⟨scripts, worked ▸ recorded, planned⟩
  rw [runAll_of_valid setup runner states valid] at completed ⊢
  rw [scriptsRunAll, runAll_of_valid setup runner.recording _ valid]
  refine ⟨?_, ?_, ?_, ?_⟩
  · rw [← completed]
    apply congrArg mergeAll
    apply List.map_congr_left
    intro number member
    obtain ⟨scripts, recorded, -⟩ := recording number member
    rw [recorded]
  · rw [List.map_map]
    apply List.map_congr_left
    intro number member
    obtain ⟨scripts, recorded, -⟩ := recording number member
    rw [Function.comp, recorded]
  · rw [List.map_map, List.map_map]
    apply List.map_congr_left
    intro number member
    obtain ⟨scripts, recorded, planned⟩ := recording number member
    simp only [Function.comp, recorded, List.reverse_reverse, planned]
  · intro finding found
    obtain ⟨report, member, here⟩ := mem_findings_merge (merged ▸ found)
    have result : Except.ok report ∈ (List.range config.workers).map fun number =>
        (setup.work config runner number (states number)).1 := works ▸ List.mem_map_of_mem member
    obtain ⟨number, -, worked⟩ := List.mem_map.mp result
    obtain ⟨-, -, -, reproducible⟩ := work_follows_plan worked
    exact reproducible finding here

/-- A session, of one worker or of several, gives its runners the planned scripts and nothing else,
however they answer; so a session with another runner runs the same scripts in the same order. -/
theorem scripts_follow_plan (setup : Setup) (config : SessionConfig) (runner : Runner σ)
    (other : Runner τ) (state : σ) (otherState : τ) (states : Nat → σ) (otherStates : Nat → τ) :
    (∀ report, (setup.run config runner state).1 = .ok report →
      setup.run config runner.recording (state, []) =
          (.ok report, (setup.run config runner state).2,
            (setup.scriptsRun config runner state).reverse) ∧
        (setup.scriptsRun config runner state).map .ok = setup.plan config 0 ∧
        (∀ finding ∈ report.findings, finding.IsReproducible setup config) ∧
        ∀ otherReport, (setup.run config other otherState).1 = .ok otherReport →
          setup.scriptsRun config other otherState = setup.scriptsRun config runner state) ∧
    (∀ report, (setup.runAll config runner states).1 = .ok report →
      let recorded := setup.runAll config runner.recording fun number => (states number, [])
      recorded.1 = .ok report ∧ recorded.2.map (·.1) = (setup.runAll config runner states).2 ∧
        (setup.scriptsRunAll config runner states).map (·.map .ok) =
          (List.range config.workers).map (setup.plan config) ∧
        (∀ finding ∈ report.findings, finding.IsReproducible setup config) ∧
        ∀ otherReport, (setup.runAll config other otherStates).1 = .ok otherReport →
          setup.scriptsRunAll config other otherStates = setup.scriptsRunAll config runner states) := by
  have injective : ∀ first second : String,
      (Except.ok first : Except SessionError String) = .ok second → first = second :=
    fun _ _ => Except.ok.inj
  constructor
  · intro report completed
    obtain ⟨recorded, planned, reproducible⟩ := run_follows_plan completed
    refine ⟨recorded, planned, reproducible, fun otherReport otherCompleted => ?_⟩
    obtain ⟨-, otherPlanned, -⟩ := run_follows_plan otherCompleted
    exact (List.map_inj_right injective).mp (otherPlanned.trans planned.symm)
  · intro report completed
    obtain ⟨recorded, states, planned, reproducible⟩ := runAll_follows_plan completed
    refine ⟨recorded, states, planned, reproducible, fun otherReport otherCompleted => ?_⟩
    obtain ⟨-, -, otherPlanned, -⟩ := runAll_follows_plan otherCompleted
    have nested : ∀ first second : List String,
        first.map (Except.ok : String → Except SessionError String) = second.map .ok →
          first = second :=
      fun _ _ => (List.map_inj_right injective).mp
    exact (List.map_inj_right nested).mp (otherPlanned.trans planned.symm)

def shortSession : SessionConfig :=
  { SessionConfig.standard with iterations := 2, programSize := 4, workers := 2 }

/-- Reaches an edge more with every script. -/
def oneMoreEdge : Runner Nat := fun edges _ => (⟨.clean, [edges.toUInt64]⟩, edges + 1)

theorem usual_follows_plan :
    (∃ report, (usual.run shortSession oneMoreEdge 0).1 = .ok report ∧ report.findings.size = 2 ∧
      (usual.scriptsRun shortSession oneMoreEdge 0).map .ok = usual.plan shortSession 0 ∧
      (∀ finding ∈ report.findings, finding.IsReproducible usual shortSession) ∧
      usual.scriptsRun shortSession .idle () = usual.scriptsRun shortSession oneMoreEdge 0) ∧
    ∃ report, (usual.runAll shortSession oneMoreEdge id).1 = .ok report ∧
      (usual.scriptsRunAll shortSession oneMoreEdge id).map (·.map .ok) =
        [usual.plan shortSession 0, usual.plan shortSession 1] ∧
      (usual.scriptsRunAll shortSession .idle fun _ => ()) =
        usual.scriptsRunAll shortSession oneMoreEdge id := by
  have follows := scripts_follow_plan usual shortSession oneMoreEdge .idle 0 () id fun _ => ()
  constructor
  · have kept : ((usual.run shortSession oneMoreEdge 0).1.map (·.findings.size)).toOption = some 2 := by
      decide +kernel
    obtain ⟨report, completed⟩ := exists_of_isOk
      (by decide +kernel : (usual.run shortSession oneMoreEdge 0).1.isOk = true)
    obtain ⟨idleReport, idleCompleted⟩ := exists_of_isOk
      (by decide +kernel : (usual.run shortSession .idle ()).1.isOk = true)
    obtain ⟨-, planned, reproducible, same⟩ := follows.1 report completed
    rw [completed] at kept
    exact ⟨report, completed, Option.some.inj kept, planned, reproducible, same _ idleCompleted⟩
  · obtain ⟨report, completed⟩ := exists_of_isOk
      (by decide +kernel : (usual.runAll shortSession oneMoreEdge id).1.isOk = true)
    obtain ⟨idleReport, idleCompleted⟩ := exists_of_isOk
      (by decide +kernel : (usual.runAll shortSession .idle fun _ => ()).1.isOk = true)
    obtain ⟨-, -, planned, -, same⟩ := follows.2 report completed
    exact ⟨report, completed, planned, same _ idleCompleted⟩

end Setup

end EngineFuzz
