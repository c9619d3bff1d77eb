import EngineFuzz.Json.Decoder
import EngineFuzz.Random.Urn
import EngineFuzz.Builder.Basic

/-!
The settings of a session, and the reasons for which it may end early.
-/

namespace EngineFuzz

/-- Why a session, or the making of one program, came to no result. -/
inductive SessionError where
  | noProgramSize
  | noWorkers
  | noneDrawn (error : DrawError)
  | misuse (misuse : Misuse)
deriving DecidableEq

namespace SessionError

def message : SessionError → String
  | noProgramSize => "Invalid fuzzer configuration: program_size must be positive"
  | noWorkers => "Invalid fuzzer configuration: workers must be positive"
  | noneDrawn error =>
    "Generator selection failed: No generator can be selected: " ++ error.message
  | misuse m => m.message

end SessionError

structure SessionConfig where
  seed : UInt64
  /-- The programs that each worker makes and runs. -/
  iterations : Nat
  /-- How often code is added until a program is done. -/
  programSize : Nat
  /-- The number of skips after which a program is left as it is. -/
  maxSkips : Nat
  workers : Nat
deriving DecidableEq

namespace SessionConfig

def standard : SessionConfig where
  seed := 42
  iterations := 1000
  programSize := 12
  maxSkips := 64
  workers := 1

def check (config : SessionConfig) : Except SessionError Unit :=
  if config.programSize = 0 then .error .noProgramSize
  else if config.workers = 0 then .error .noWorkers
  else .ok ()

def toJson (config : SessionConfig) : Json :=
  .record
    [("seed", .nat config.seed.toNat),
      ("iterations", .nat config.iterations),
      ("program_size", .nat config.programSize),
      ("max_skips", .nat config.maxSkips),
      ("workers", .nat config.workers)]

def decoder : Decoder SessionConfig := fun site j => do
  let fields ←
    Fields.read? ["seed", "iterations", "program_size", "max_skips", "workers"] site j
  return {
    seed := ← fields.required "seed" .uint64
    iterations := ← fields.required "iterations" .size
    programSize := ← fields.required "program_size" .size
    maxSkips := ← fields.required "max_skips" .size
    workers := ← fields.required "workers" .size }

end SessionConfig

end EngineFuzz
