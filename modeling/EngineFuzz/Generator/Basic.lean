import EngineFuzz.Builder.Build
import EngineFuzz.Random.Draw

/-!
Generators: named procedures that add code to a program, given one variable for each type they ask
for.
-/

namespace EngineFuzz

inductive Progress where
  /-- Code was added. -/
  | emitted
  /-- Nothing was added, for want of something to work with. -/
  | skipped
deriving DecidableEq

structure Generator where
  name : String
  inputs : List Ty
  /-- A procedure that reports a skip may not have added anything. -/
  procedure : List Var → Build Progress

namespace Generator

/-- One variable in scope for each type, or none at all once a type has no candidate. -/
def resolve (b : Builder) (tys : List Ty) : Draw (Option (List Var)) :=
  Draw.pickEach (tys.map b.visible)

/-- Runs a generator on inputs chosen by the caller. A skip must leave the numbers of instructions and
of variables as they were. -/
def runWith (g : Generator) (inputs : List Var) (b : Builder) (rng : Rng) :
    Except Misuse (Progress × Builder × Rng) :=
  if inputs.length = g.inputs.length then
    match (g.procedure inputs).run b rng with
    | .error misuse => .error misuse
    | .ok (.emitted, after, rng) => .ok (.emitted, after, rng)
    | .ok (.skipped, after, rng) =>
      if after.instrs.size = b.instrs.size ∧ after.types.size = b.types.size then
        .ok (.skipped, after, rng)
      else .error (.falseSkip g.name)
  else .error (.inputCount g.name g.inputs.length)

/-- Runs a generator on inputs drawn from what is in scope, and skips it if there are none. -/
def run (g : Generator) (b : Builder) (rng : Rng) : Except Misuse (Progress × Builder × Rng) :=
  match resolve b g.inputs rng with
  | (some inputs, rng) => g.runWith inputs b rng
  | (none, rng) => .ok (.skipped, b, rng)

end Generator

end EngineFuzz
