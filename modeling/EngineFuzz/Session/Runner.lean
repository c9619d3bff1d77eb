import EngineFuzz.Outcome.Basic

/-!
Runners: whatever runs a script on a target. A runner may change its state with every script, and all
that is known of it is what it reports.
-/

namespace EngineFuzz

/-- What a runner reports for one script. -/
structure Execution where
  raw : RawRun
  /-- The edges hit, known or not. -/
  edges : List UInt64

abbrev Runner (σ : Type) := σ → String → Execution × σ

namespace Runner

/-- Keeps a note of every script and of what came of it, the last one first. -/
def noting (runner : Runner σ) (note : String → Execution → ν) : Runner (σ × List ν) :=
  fun (state, notes) script =>
    let (execution, state) := runner state script
    (execution, state, note script execution :: notes)

/-- Keeps the scripts that are run, the last one first. -/
def recording (runner : Runner σ) : Runner (σ × List String) := runner.noting fun script _ => script

/-- Runs nothing and reports a clean end. -/
def idle : Runner Unit := fun _ _ => (⟨.clean, []⟩, ())

end Runner

end EngineFuzz
