import EngineFuzz.Session.Worker

/-!
Sessions: the work of one worker, or of several that have nothing to do with each other.
-/

namespace EngineFuzz.Setup

/-- A session of one worker, which is number zero. -/
def run (setup : Setup) (config : SessionConfig) (runner : Runner σ) (state : σ) :
    Except SessionError Report × σ :=
  match config.check with
  | .error error => (.error error, state)
  | .ok () => setup.work config runner 0 state

/-- Merges reports in order. The first error counts. -/
def mergeAll : List (Except SessionError Report) → Except SessionError Report
  | [] => .ok .empty
  | .error error :: _ => .error error
  | .ok report :: results =>
    match mergeAll results with
    | .error error => .error error
    | .ok rest => .ok (report.merge rest)

/-- A session of all the workers of `config`, each with a runner's state of its own. -/
def runAll (setup : Setup) (config : SessionConfig) (runner : Runner σ) (states : Nat → σ) :
    Except SessionError Report × List σ :=
  match config.check with
  | .error error => (.error error, (List.range config.workers).map states)
  | .ok () =>
    let results := (List.range config.workers).map fun number =>
      setup.work config runner number (states number)
    (mergeAll (results.map (·.1)), results.map (·.2))

end EngineFuzz.Setup
