import EngineFuzz.Outcome.Classifier
import EngineFuzz.Profile.Basic
import EngineFuzz.Session.Runner

/-!
The test at the start of a session: the target has to run an empty program cleanly and crash on every
crash test of its profile, or else crashes found later could not be trusted.
-/

namespace EngineFuzz

inductive ReadinessError where
  | unclean (outcome : Outcome)
  | undetected (snippet : String) (outcome : Outcome)
deriving DecidableEq

namespace ReadinessError

def message : ReadinessError → String
  | unclean outcome => "Empty program did not run cleanly: " ++ outcome.text
  | undetected snippet outcome =>
    "Crash test `" ++ snippet ++ "` did not crash the target: " ++ outcome.text

end ReadinessError

namespace Readiness

/-- Runs one script on the target. -/
def outcome (profile : Profile) (classifier : Classifier) (runner : Runner σ) (body : String)
    (state : σ) : Outcome × σ :=
  let (execution, state) := runner state (profile.embed body)
  (classifier.classify execution.raw, state)

/-- Runs crash tests in order, as long as they crash. -/
def checkSnippets (profile : Profile) (classifier : Classifier) (runner : Runner σ) :
    List String → σ → Except ReadinessError Unit × σ
  | [], state => (.ok (), state)
  | snippet :: snippets, state =>
    match outcome profile classifier runner snippet state with
    | (outcome, state) =>
      if outcome.isCrash then checkSnippets profile classifier runner snippets state
      else (.error (.undetected snippet outcome), state)

/-- The empty program first, then the crash tests. -/
def check (profile : Profile) (classifier : Classifier) (runner : Runner σ) (state : σ) :
    Except ReadinessError Unit × σ :=
  match outcome profile classifier runner "" state with
  | (outcome, state) =>
    if outcome = .succeeded then
      checkSnippets profile classifier runner profile.crashTests state
    else (.error (.unclean outcome), state)

end Readiness

end EngineFuzz
