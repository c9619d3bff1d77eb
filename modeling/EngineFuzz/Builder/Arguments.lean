import EngineFuzz.Builder.Basic
import EngineFuzz.Random.Draw

/-!
Arguments for a call, drawn from what is in scope. A function is never passed to itself.
-/

namespace EngineFuzz.Builder

/-- What may be passed for a parameter of type `ty` in a call of `function`. -/
def candidates (b : Builder) (function : Var) (ty : Ty) : List Var :=
  (b.visible ty).filter (· != function)

/-- One argument for each parameter, or none at all once a parameter has no candidate. -/
def pickEach (b : Builder) (function : Var) (tys : List Ty) : Draw (Option (List Var)) :=
  Draw.pickEach (tys.map (b.candidates function))

/-- At most two arguments of any type, as many as can be had of the number drawn. -/
def pickAny (b : Builder) (function : Var) : Draw (List Var) := do
  let count ← Draw.below64 3 (by decide)
  Draw.sample count (b.candidates function .anything)

/-- Arguments for a call of `function`: to its signature, or a few of any type if that is not known.
There may be none to be had for a known signature. -/
def pickArguments (b : Builder) (function : Var) (rng : Rng) :
    Except Misuse (Option (List Var) × Rng) := do
  let ty ← b.typeOf function
  match ty.signature? with
  | some signature => return b.pickEach function signature.params rng
  | none =>
    let (arguments, rng) := b.pickAny function rng
    return (some arguments, rng)

end EngineFuzz.Builder
