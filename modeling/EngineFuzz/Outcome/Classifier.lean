import EngineFuzz.Outcome.Basic
import EngineFuzz.Text.Lines

/-!
Classification: the rule that reduces a run to its outcome. A timeout goes before a crash, a crash
before a script error, and a script error before success.
-/

namespace EngineFuzz

structure Classifier where
  /-- Printed by the target on its way to a crash. -/
  crashMarker : String
  /-- Texts of which any one tells a script error. -/
  errorMarkers : List String
  /-- A run that takes so long has timed out, whether or not it was cut off. -/
  timeout : Option Duration
deriving DecidableEq

namespace Classifier

def standard : Classifier where
  crashMarker := "FUZZILLI_CRASH"
  errorMarkers := ["Uncaught", "SyntaxError", "ReferenceError", "TypeError"]
  timeout := none

def timesOut (c : Classifier) (run : RawRun) : Bool :=
  run.timedOut || c.timeout.any fun budget => budget.nanoseconds ≤ run.elapsed.nanoseconds

def hasCrashMarker (c : Classifier) (run : RawRun) : Bool :=
  Text.contains run.stderr c.crashMarker || Text.contains run.stdout c.crashMarker

def hasErrorMarker (c : Classifier) (line : List Char) : Bool :=
  c.errorMarkers.any fun marker => Text.occursIn marker.toList line

/-- The first line with an error marker, all of standard error before standard output. -/
def errorLine? (c : Classifier) (run : RawRun) : Option (List Char) :=
  (Text.lines run.stderr ++ Text.lines run.stdout).find? c.hasErrorMarker

/-- A target whose end was not observed counts as ended well. -/
def status (run : RawRun) : Int32 := run.exitStatus.getD 0

def classify (c : Classifier) (run : RawRun) : Outcome :=
  if c.timesOut run then .timedOut
  else
    match run.signal with
    | some signal => .crashed (.signal signal)
    | none =>
      if status run ≠ 0 ∧ c.hasCrashMarker run then .crashed (.exit (status run))
      else
        match c.errorLine? run with
        | some line => .failed (String.ofList (Text.trim line))
        | none =>
          if status run ≠ 0 then .failed ("exit status " ++ (status run).toInt.repr)
          else .succeeded

end Classifier

end EngineFuzz
