import EngineFuzz.Profile.Known
import EngineFuzz.Session.Run

/-!
What passes between a session and its runner. A worker draws its drafts from the session's settings
alone and learns from what the runner reports. Main statements: the iterations that a worker comes
through are a list of drafts, each with its execution, and a runner that takes notes of them changes
nothing.
-/

namespace EngineFuzz

namespace Setup

/-- The script that a draft is run as. -/
def scriptOf (setup : Setup) (draft : Draft) : String := setup.profile.embed draft.program.script

/-- The script of a worker's iteration, which can be told without a session. -/
def scriptFor (setup : Setup) (config : SessionConfig) (number iteration : Nat) :
    Except SessionError String :=
  (setup.draftFor config number iteration).map setup.scriptOf

/-- The usual generators on the usual target. -/
def usual : Setup where
  profile := .v8
  registry := .base
  classifier := .standard

end Setup

theorem exists_of_isOk {ε α : Type _} {result : Except ε α} (succeeded : result.isOk = true) :
    ∃ value, result = .ok value := by
  cases result with
  | error error => cases succeeded
  | ok value => exact ⟨value, rfl⟩

theorem SessionConfig.check_eq_ok_iff {config : SessionConfig} :
    config.check = .ok () ↔ config.programSize ≠ 0 ∧ config.workers ≠ 0 := by
  unfold SessionConfig.check
  split
  next unsized => simp [unsized]
  next sized =>
    split
    next deserted => simp [deserted]
    next manned => simp [sized, manned]

/-- Whether drafts made with `other` are those made with `config`. How many of them are made does not
matter to any of them. -/
structure SessionConfig.DraftsAs (other config : SessionConfig) : Prop where
  seed : other.seed = config.seed
  programSize : other.programSize = config.programSize
  maxSkips : other.maxSkips = config.maxSkips

namespace SessionConfig.DraftsAs

variable {other config : SessionConfig}

theorem extend_eq (alike : other.DraftsAs config) (setup : Setup) (sketch : Sketch) (rng : Rng) :
    setup.extend other sketch rng = setup.extend config sketch rng := by
  fun_induction setup.extend config sketch rng with
  | case1 sketch rng more error later drawn =>
    rw [Setup.extend, alike.programSize, alike.maxSkips, if_pos more, drawn]
  | case2 sketch rng more generator later drawn misuse failed =>
    rw [Setup.extend, alike.programSize, alike.maxSkips, if_pos more, drawn]
    simp only [failed]
  | case3 sketch rng more generator later drawn b rest ran ih =>
    rw [Setup.extend, alike.programSize, alike.maxSkips, if_pos more, drawn]
    simp only [ran, ih]
  | case4 sketch rng more generator later drawn b rest ran ih =>
    rw [Setup.extend, alike.programSize, alike.maxSkips, if_pos more, drawn]
    simp only [ran, ih]
  | case5 sketch rng done => rw [Setup.extend, alike.programSize, alike.maxSkips, if_neg done]

theorem draftFor_eq (alike : other.DraftsAs config) (setup : Setup) (number iteration : Nat) :
    setup.draftFor other number iteration = setup.draftFor config number iteration := by
  simp only [Setup.draftFor, Setup.draft, Setup.sketch, alike.extend_eq, alike.seed]

theorem iterate_eq {σ : Type} (alike : other.DraftsAs config) (setup : Setup) (runner : Runner σ)
    (iteration : Nat) (worker : Worker) (state : σ) (count : Nat) :
    Worker.iterate setup other runner iteration worker state count =
      Worker.iterate setup config runner iteration worker state count := by
  induction count generalizing iteration worker state with
  | zero => rfl
  | succ count ih => simp only [Worker.iterate, Worker.step, alike.draftFor_eq, ih]

end SessionConfig.DraftsAs

/-- A draft and what came of its script. -/
abbrev Exchange := Draft × Execution

namespace Worker

variable {σ ν : Type} {setup : Setup} {config : SessionConfig} {runner : Runner σ}
  {iteration count : Nat} {worker after : Worker} {state later : σ} {exchanges : List Exchange}

/-- A worker that has taken the run of a draft into account. -/
def absorb (worker : Worker) (setup : Setup) (iteration : Nat) (draft : Draft)
    (execution : Execution) : Worker :=
  let learned := worker.learn setup.classifier iteration (setup.scriptOf draft) execution
  { learned with
    emitted := learned.emitted + draft.emitted
    skipped := learned.skipped + draft.skipped }

/-- What a worker makes of a run: its outcome, and the edges that are new to the worker. -/
def aspectsOf (worker : Worker) (classifier : Classifier) (execution : Execution) : Aspects :=
  let outcome := classifier.classify execution.raw
  .ofRun outcome (worker.trace outcome execution.edges).1

theorem number_absorb (worker : Worker) (setup : Setup) (iteration : Nat) (draft : Draft)
    (execution : Execution) : (worker.absorb setup iteration draft execution).number = worker.number := by
  simp only [absorb, learn, trace]
  split <;> rfl

theorem coverage_absorb (worker : Worker) (setup : Setup) (iteration : Nat) (draft : Draft)
    (execution : Execution) : (worker.absorb setup iteration draft execution).coverage =
      if (setup.classifier.classify execution.raw).isCrash then worker.coverage
      else (worker.coverage.reach execution.edges).2 := by
  simp only [absorb, learn, trace]
  split <;> rfl

theorem archive_absorb (worker : Worker) (setup : Setup) (iteration : Nat) (draft : Draft)
    (execution : Execution) : (worker.absorb setup iteration draft execution).archive =
      (worker.archive.judge (worker.aspectsOf setup.classifier execution)).2 := by
  simp only [absorb, learn, trace, aspectsOf]
  split <;> rfl

theorem tally_absorb (worker : Worker) (setup : Setup) (iteration : Nat) (draft : Draft)
    (execution : Execution) : (worker.absorb setup iteration draft execution).tally =
      worker.tally.count (setup.classifier.classify execution.raw) := by
  simp only [absorb, learn, trace]
  split <;> rfl

/-- A run is kept if the archive says so, under the next number and with the place it comes from. -/
theorem findings_absorb (worker : Worker) (setup : Setup) (iteration : Nat) (draft : Draft)
    (execution : Execution) :
    let aspects := worker.aspectsOf setup.classifier execution
    (worker.absorb setup iteration draft execution).findings =
      if (worker.archive.judge aspects).1 then
        worker.findings.push
          ⟨worker.findings.size, worker.number, iteration, setup.scriptOf draft, aspects⟩
      else worker.findings := by
  simp only [absorb, learn, trace, aspectsOf]
  split <;> rfl

/-- Iterations that all succeed, from `iteration` on, one for each exchange. -/
inductive Ran (setup : Setup) (config : SessionConfig) (runner : Runner σ) :
    Nat → Worker → σ → List Exchange → Worker → σ → Prop where
  | done (iteration : Nat) (worker : Worker) (state : σ) :
      Ran setup config runner iteration worker state [] worker state
  | next {iteration : Nat} {worker after : Worker} {state later : σ} {draft : Draft}
      {exchanges : List Exchange}
      (drawn : setup.draftFor config worker.number iteration = .ok draft)
      (rest : Ran setup config runner (iteration + 1)
        (worker.absorb setup iteration draft (runner state (setup.scriptOf draft)).1)
        (runner state (setup.scriptOf draft)).2 exchanges after later) :
      Ran setup config runner iteration worker state
        ((draft, (runner state (setup.scriptOf draft)).1) :: exchanges) after later

theorem ran_of_iterate
    (completed : iterate setup config runner iteration worker state count = (.ok after, later)) :
    ∃ exchanges, exchanges.length = count ∧
      Ran setup config runner iteration worker state exchanges after later := by
  induction count generalizing iteration worker state with
  | zero =>
    simp only [iterate, Prod.mk.injEq, Except.ok.injEq] at completed
    obtain ⟨rfl, rfl⟩ := completed
    exact ⟨[], rfl, .done ..⟩
  | succ count ih =>
    simp only [iterate, step] at completed
    cases drawn : setup.draftFor config worker.number iteration with
    | error error => simp [drawn] at completed
    | ok draft =>
      simp only [drawn] at completed
      obtain ⟨exchanges, length, ran⟩ := ih completed
      exact ⟨_ :: exchanges, by rw [List.length_cons, length], .next drawn ran⟩

/-- A runner that takes notes has one of every exchange, and the worker does not know. -/
theorem Ran.iterate_noting (ran : Ran setup config runner iteration worker state exchanges after later)
    (note : String → Execution → ν) (notes : List ν) :
    iterate setup config (runner.noting note) iteration worker (state, notes) exchanges.length =
      (.ok after, later,
        (exchanges.map fun (draft, execution) => note (setup.scriptOf draft) execution).reverse
          ++ notes) := by
  induction ran generalizing notes with
  | done => rfl
  | @next iteration worker after state later draft exchanges drawn rest ih =>
    have noted := ih (note (setup.scriptOf draft) (runner state (setup.scriptOf draft)).1 :: notes)
    simp only [List.length_cons, iterate, step, drawn, List.map_cons, List.reverse_cons,
      List.append_assoc, List.singleton_append]
    exact noted

end Worker

namespace Setup

variable {σ ν : Type} {setup : Setup} {config : SessionConfig} {runner : Runner σ}

theorem ran_of_work {number : Nat} {state later : σ} {report : Report}
    (completed : setup.work config runner number state = (.ok report, later)) :
    ∃ exchanges worker, exchanges.length = config.iterations ∧ report = worker.report ∧
      Worker.Ran setup config runner 0 (.start number) state exchanges worker later := by
  unfold work at completed
  split at completed
  · simp at completed
  next worker last iterated =>
    simp only [Prod.mk.injEq, Except.ok.injEq] at completed
    obtain ⟨exchanges, length, ran⟩ := Worker.ran_of_iterate iterated
    exact ⟨exchanges, worker, length, completed.1.symm, completed.2 ▸ ran⟩

/-- What a runner has noted at the end of the work that `exchanges` tell of. -/
theorem work_noting {number : Nat} {state later : σ} {worker : Worker} {exchanges : List Exchange}
    (length : exchanges.length = config.iterations)
    (ran : Worker.Ran setup config runner 0 (.start number) state exchanges worker later)
    (note : String → Execution → ν) :
    setup.work config (runner.noting note) number (state, []) =
      (.ok worker.report, later,
        (exchanges.map fun (draft, execution) => note (setup.scriptOf draft) execution).reverse) := by
  have noted := ran.iterate_noting note []
  rw [length, List.append_nil] at noted
  simp only [work, noted]

theorem work_of_run {state later : σ} {report : Report}
    (completed : setup.run config runner state = (.ok report, later)) :
    config.check = .ok () ∧ setup.work config runner 0 state = (.ok report, later) := by
  unfold run at completed
  split at completed
  · simp at completed
  next valid => exact ⟨valid, completed⟩

theorem mergeAll_eq_ok {results : List (Except SessionError Report)} {report : Report}
    (merged : mergeAll results = .ok report) :
    ∃ reports : List Report, results = reports.map .ok ∧ report = reports.foldr Report.merge .empty := by
  induction results generalizing report with
  | nil =>
    simp only [mergeAll, Except.ok.injEq] at merged
    exact ⟨[], rfl, merged.symm⟩
  | cons result results ih =>
    cases result with
    | error error => simp [mergeAll] at merged
    | ok first =>
      simp only [mergeAll] at merged
      split at merged
      · simp at merged
      next rest restMerged =>
        obtain ⟨reports, same, sum⟩ := ih restMerged
        simp only [Except.ok.injEq] at merged
        exact ⟨first :: reports, by rw [same, List.map_cons], by rw [← merged, sum, List.foldr_cons]⟩

theorem mergeAll_map_ok (reports : List Report) :
    mergeAll (reports.map .ok) = .ok (reports.foldr Report.merge .empty) := by
  induction reports with
  | nil => rfl
  | cons report reports ih => simp only [List.map_cons, mergeAll, ih, List.foldr_cons]

theorem runAll_of_valid (setup : Setup) (runner : Runner σ) (states : Nat → σ)
    (valid : config.check = .ok ()) :
    setup.runAll config runner states =
      (mergeAll ((List.range config.workers).map fun number =>
          (setup.work config runner number (states number)).1),
        (List.range config.workers).map fun number =>
          (setup.work config runner number (states number)).2) := by
  simp only [runAll, valid, List.map_map]
  rfl

/-- A session of several workers succeeds if each of them does, and puts their reports together. -/
theorem work_of_runAll {states : Nat → σ} {report : Report}
    (completed : (setup.runAll config runner states).1 = .ok report) :
    config.check = .ok () ∧ ∃ reports : List Report, report = reports.foldr Report.merge .empty ∧
      (List.range config.workers).map (fun number => (setup.work config runner number (states number)).1)
        = reports.map .ok := by
  cases valid : config.check with
  | error error => simp [runAll, valid] at completed
  | ok =>
    rw [runAll_of_valid setup runner states valid] at completed
    obtain ⟨reports, same, sum⟩ := mergeAll_eq_ok completed
    exact ⟨rfl, reports, sum, same⟩

end Setup

end EngineFuzz
