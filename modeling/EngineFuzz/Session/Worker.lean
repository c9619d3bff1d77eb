import EngineFuzz.Program.Script
import EngineFuzz.Session.Runner
import EngineFuzz.Session.Draft
import EngineFuzz.Session.Tally
import EngineFuzz.Session.Archive

/-!
The work of one worker: to make a program, run it and judge the run, once for each iteration.

The runner's state comes back with the result, also with an error, so that what was run can be told
in every case.
-/

namespace EngineFuzz

/-- A run worth keeping. -/
structure Finding where
  /-- Counts the findings of the worker. -/
  id : Nat
  worker : Nat
  iteration : Nat
  /-- The whole script as it was run. -/
  script : String
  aspects : Aspects

structure Report where
  findings : Array Finding
  tally : Tally
  emitted : Nat
  skipped : Nat
  /-- The edges reached, added up over the workers. -/
  edges : Nat

namespace Report

def empty : Report := ⟨#[], .zero, 0, 0, 0⟩

def executions (report : Report) : Nat := report.tally.total

def merge (a b : Report) : Report where
  findings := a.findings ++ b.findings
  tally := a.tally.add b.tally
  emitted := a.emitted + b.emitted
  skipped := a.skipped + b.skipped
  edges := a.edges + b.edges

end Report

/-- A worker between two iterations. -/
structure Worker where
  number : Nat
  coverage : Coverage
  archive : Archive
  findings : Array Finding
  tally : Tally
  emitted : Nat
  skipped : Nat

namespace Worker

def start (number : Nat) : Worker := ⟨number, .empty, .empty, #[], .zero, 0, 0⟩

def report (worker : Worker) : Report :=
  ⟨worker.findings, worker.tally, worker.emitted, worker.skipped, worker.coverage.size⟩

/-- The trace of a run. The edges hit before a crash are not trusted, and not taken as known. -/
def trace (worker : Worker) (outcome : Outcome) (hits : List UInt64) : Trace × Worker :=
  if outcome.isCrash then (⟨[]⟩, worker)
  else
    let (trace, coverage) := worker.coverage.reach hits
    (trace, { worker with coverage := coverage })

/-- Takes a run into account: its outcome is counted, its edges become known, and it is kept if it is
worth it. -/
def learn (worker : Worker) (classifier : Classifier) (iteration : Nat) (script : String)
    (execution : Execution) : Worker :=
  let outcome := classifier.classify execution.raw
  let (trace, worker) := worker.trace outcome execution.edges
  let aspects := Aspects.ofRun outcome trace
  let (kept, archive) := worker.archive.judge aspects
  let findings :=
    if kept then
      worker.findings.push ⟨worker.findings.size, worker.number, iteration, script, aspects⟩
    else worker.findings
  { worker with archive, findings, tally := worker.tally.count outcome }

/-- One iteration. -/
def step (setup : Setup) (config : SessionConfig) (runner : Runner σ) (iteration : Nat)
    (worker : Worker) (state : σ) : Except SessionError Worker × σ :=
  match setup.draftFor config worker.number iteration with
  | .error error => (.error error, state)
  | .ok draft =>
    let script := setup.profile.embed draft.program.script
    let (execution, state) := runner state script
    let worker := worker.learn setup.classifier iteration script execution
    (.ok { worker with
        emitted := worker.emitted + draft.emitted
        skipped := worker.skipped + draft.skipped }, state)

/-- The iterations from `iteration` on, `count` of them. -/
def iterate (setup : Setup) (config : SessionConfig) (runner : Runner σ) (iteration : Nat)
    (worker : Worker) (state : σ) : (count : Nat) → Except SessionError Worker × σ
  | 0 => (.ok worker, state)
  | count + 1 =>
    match step setup config runner iteration worker state with
    | (.error error, state) => (.error error, state)
    | (.ok worker, state) => iterate setup config runner (iteration + 1) worker state count

end Worker

namespace Setup

/-- The whole work of one worker. -/
def work (setup : Setup) (config : SessionConfig) (runner : Runner σ) (number : Nat)
    (state : σ) : Except SessionError Report × σ :=
  match Worker.iterate setup config runner 0 (.start number) state config.iterations with
  | (.error error, state) => (.error error, state)
  | (.ok worker, state) => (.ok worker.report, state)

end Setup

end EngineFuzz
