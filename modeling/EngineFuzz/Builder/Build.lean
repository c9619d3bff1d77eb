import EngineFuzz.Builder.Basic
import EngineFuzz.Random.Rng

/-!
Building procedures as data.

A `Build` is a sequence of steps on a builder. It can add instructions, write blocks whose bodies are
procedures again, and consult the builder and the stream of random words, but it has no other way to
change the program. Statements about all procedures go by induction on it; `Build.run` carries it out.
-/

namespace EngineFuzz

inductive Build : Type → Type 1 where
  | done {α : Type} (result : α) : Build α
  | loadInteger {α : Type} (value : Int64) (next : Var → Build α) : Build α
  | loadBuiltin {α : Type} (name : String) (next : Var → Build α) : Build α
  | binary {α : Type} (lhs : Var) (operator : Operator) (rhs : Var) (next : Var → Build α) :
      Build α
  | call {α : Type} (function : Var) (arguments : List Var) (next : Var → Build α) : Build α
  | functionBlock {α : Type} (signature : Signature) (body : List Var → Build (Option Var))
      (next : Var → Build α) : Build α
  | loopBlock {α : Type} (head : LoopHead) (body : Var → Build Unit) (next : Build α) : Build α
  | consult {α β : Type} (look : Builder → Rng → Except Misuse (β × Rng)) (next : β → Build α) :
      Build α

namespace Build

def bind : {α β : Type} → Build α → (α → Build β) → Build β
  | _, _, done result, f => f result
  | _, _, loadInteger value next, f => .loadInteger value fun v => (next v).bind f
  | _, _, loadBuiltin name next, f => .loadBuiltin name fun v => (next v).bind f
  | _, _, binary lhs operator rhs next, f => .binary lhs operator rhs fun v => (next v).bind f
  | _, _, call function arguments next, f => .call function arguments fun v => (next v).bind f
  | _, _, functionBlock signature body next, f =>
    .functionBlock signature body fun v => (next v).bind f
  | _, _, loopBlock head body next, f => .loopBlock head body (next.bind f)
  | _, _, consult look next, f => .consult look fun found => (next found).bind f

instance : Monad Build where
  pure := done
  bind := bind

/-- Carries a procedure out. The first misuse ends it. -/
def run : {α : Type} → Build α → Builder → Rng → Except Misuse (α × Builder × Rng)
  | _, done result, b, rng => .ok (result, b, rng)
  | _, loadInteger value next, b, rng =>
    let (output, b) := b.loadInteger value
    (next output).run b rng
  | _, loadBuiltin name next, b, rng =>
    let (output, b) := b.loadBuiltin name
    (next output).run b rng
  | _, binary lhs operator rhs next, b, rng =>
    match b.binary lhs operator rhs with
    | .error misuse => .error misuse
    | .ok (output, b) => (next output).run b rng
  | _, call function arguments next, b, rng =>
    match b.call function arguments with
    | .error misuse => .error misuse
    | .ok (output, b) => (next output).run b rng
  | _, functionBlock signature body next, b, rng =>
    let (output, params, b) := b.openFunction signature
    match (body params).run b rng with
    | .error misuse => .error misuse
    | .ok (value, b, rng) =>
      match b.closeFunction value with
      | .error misuse => .error misuse
      | .ok b => (next output).run b rng
  | _, loopBlock head body next, b, rng =>
    match b.openLoop head with
    | .error misuse => .error misuse
    | .ok (index, b) =>
      match (body index).run b rng with
      | .error misuse => .error misuse
      | .ok ((), b, rng) => next.run b.closeLoop rng
  | _, consult look next, b, rng =>
    match look b rng with
    | .error misuse => .error misuse
    | .ok (found, rng) => (next found).run b rng

end Build

end EngineFuzz
