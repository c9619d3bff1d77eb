import EngineFuzz.Json.Decoder
import EngineFuzz.Outcome.Classifier

/-!
Outcomes, raw runs and classifiers as JSON.
-/

namespace EngineFuzz

namespace Termination

def toJson : Termination → Json
  | signal number => .record [("Signal", .int number.toInt)]
  | exit status => .record [("Exit", .int status.toInt)]

def decoder : Decoder Termination := fun site j =>
  match j.variant? site with
  | some ("Signal", some carried) => (Decoder.int32 site.inside carried).map signal
  | some ("Exit", some carried) => (Decoder.int32 site.inside carried).map exit
  | _ => none

end Termination

namespace Outcome

def toJson : Outcome → Json
  | succeeded => .string "Succeeded"
  | failed diagnostic => .record [("Failed", .record [("diagnostic", .string diagnostic)])]
  | crashed termination => .record [("Crashed", .record [("termination", termination.toJson)])]
  | timedOut => .string "TimedOut"

def decoder : Decoder Outcome := fun site j =>
  match j.variant? site with
  | some ("Succeeded", carried) => if Json.carriesNothing site carried then some succeeded else none
  | some ("TimedOut", carried) => if Json.carriesNothing site carried then some timedOut else none
  | some ("Failed", some carried) => do
    let fields ← Fields.read? ["diagnostic"] site.inside carried
    return failed (← fields.required "diagnostic" Decoder.string)
  | some ("Crashed", some carried) => do
    let fields ← Fields.read? ["termination"] site.inside carried
    return crashed (← fields.required "termination" Termination.decoder)
  | _ => none

end Outcome

namespace Duration

def toJson (d : Duration) : Json := .record [("secs", .nat d.seconds), ("nanos", .nat d.fraction)]

/-- Nanoseconds beyond a second are carried, and the seconds have to stay a word of 64 bits. -/
def decoder : Decoder Duration := fun site j => do
  let fields ← Fields.read? ["secs", "nanos"] site j
  if fields.within ["secs", "nanos"] then
    let seconds ← fields.required "secs" Decoder.size
    let nanoseconds ← fields.required "nanos" (Decoder.natBelow UInt32.size)
    let d := ofParts seconds nanoseconds
    if d.seconds < UInt64.size then some d else none
  else none

end Duration

namespace RawRun

def toJson (run : RawRun) : Json :=
  .record
    [("exit_status", .option (fun status => .int status.toInt) run.exitStatus),
      ("signal", .option (fun signal => .int signal.toInt) run.signal),
      ("stdout", .string run.stdout),
      ("stderr", .string run.stderr),
      ("elapsed", run.elapsed.toJson),
      ("timed_out", .bool run.timedOut)]

def decoder : Decoder RawRun := fun site j => do
  let fields ←
    Fields.read? ["exit_status", "signal", "stdout", "stderr", "elapsed", "timed_out"] site j
  return {
    exitStatus := ← fields.optional "exit_status" .int32
    signal := ← fields.optional "signal" .int32
    stdout := ← fields.required "stdout" .string
    stderr := ← fields.required "stderr" .string
    elapsed := ← fields.required "elapsed" Duration.decoder
    timedOut := ← fields.required "timed_out" .bool }

end RawRun

namespace Classifier

def toJson (c : Classifier) : Json :=
  .record
    [("crash_marker", .string c.crashMarker),
      ("error_markers", .strings c.errorMarkers),
      ("timeout", .option Duration.toJson c.timeout)]

def decoder : Decoder Classifier := fun site j => do
  let fields ← Fields.read? ["crash_marker", "error_markers", "timeout"] site j
  return {
    crashMarker := ← fields.required "crash_marker" .string
    errorMarkers := ← fields.required "error_markers" (.list .string)
    timeout := ← fields.defaulted "timeout" none (.option Duration.decoder) }

end Classifier

end EngineFuzz
