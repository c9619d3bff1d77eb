import EngineFuzz.Outcome.Classifier
import EngineFuzz.Profile.Basic
import EngineFuzz.Session.Config

/-!
Drafts: programs made by running generators drawn from a registry, one after the other.
-/

namespace EngineFuzz

/-- What the programs of a session are made with and judged by. -/
structure Setup where
  profile : Profile
  registry : Registry
  classifier : Classifier

structure Draft where
  program : Program
  /-- How many generators added code. -/
  emitted : Nat
  /-- How many found nothing to work with. -/
  skipped : Nat

/-- A draft that may still grow. -/
structure Sketch where
  builder : Builder
  emitted : Nat
  skipped : Nat

def Sketch.draft (sketch : Sketch) : Draft :=
  ⟨sketch.builder.program, sketch.emitted, sketch.skipped⟩

namespace Setup

/-- Goes on with a program until enough has been added or too much skipped. -/
def extend (setup : Setup) (config : SessionConfig) (sketch : Sketch) (rng : Rng) :
    Except SessionError Sketch :=
  if sketch.emitted < config.programSize ∧ sketch.skipped < config.maxSkips then
    match setup.registry.draw rng with
    | (.error error, _) => .error (.noneDrawn error)
    | (.ok generator, rng) =>
      match generator.run sketch.builder rng with
      | .error misuse => .error (.misuse misuse)
      | .ok (.emitted, b, rng) => setup.extend config ⟨b, sketch.emitted + 1, sketch.skipped⟩ rng
      | .ok (.skipped, b, rng) => setup.extend config ⟨b, sketch.emitted, sketch.skipped + 1⟩ rng
  else .ok sketch
termination_by (config.programSize - sketch.emitted) + (config.maxSkips - sketch.skipped)

/-- A sketch that has grown from nothing to its full size. -/
def sketch (setup : Setup) (config : SessionConfig) (rng : Rng) : Except SessionError Sketch :=
  setup.extend config ⟨setup.profile.builder, 0, 0⟩ rng

def draft (setup : Setup) (config : SessionConfig) (rng : Rng) : Except SessionError Draft :=
  (setup.sketch config rng).map Sketch.draft

/-- The program that a worker makes in an iteration, which depends on nothing else. -/
def draftFor (setup : Setup) (config : SessionConfig) (worker iteration : Nat) :
    Except SessionError Draft :=
  setup.draft config (.forProgram config.seed worker.toUInt64 iteration.toUInt64)

end Setup

end EngineFuzz
