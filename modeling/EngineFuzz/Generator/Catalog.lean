import EngineFuzz.Builder.Arguments
import EngineFuzz.Generator.Basic

/-!
The generators that every target can use.
-/

namespace EngineFuzz

namespace Build

/-- Draws something without a look at the program. -/
def draw {α : Type} (d : Draw α) : Build α := .consult (fun _ rng => .ok (d rng)) .done

def visible (ty : Ty) : Build (List Var) := .consult (fun b rng => .ok (b.visible ty, rng)) .done

def builtinNames : Build (List String) :=
  .consult (fun b rng => .ok (b.builtins.names, rng)) .done

def pickArguments (function : Var) : Build (Option (List Var)) :=
  .consult (fun b rng => b.pickArguments function rng) .done

def addInteger (value : Int64) : Build Var := .loadInteger value .done

def addBuiltin (name : String) : Build Var := .loadBuiltin name .done

def addBinary (lhs : Var) (operator : Operator) (rhs : Var) : Build Var :=
  .binary lhs operator rhs .done

def addCall (function : Var) (arguments : List Var) : Build Var := .call function arguments .done

def addFunction (signature : Signature) (body : List Var → Build (Option Var)) : Build Var :=
  .functionBlock signature body .done

/-- A loop that counts from zero by ones up to `count`. -/
def addCountingLoop (count : Build Int64) (body : Var → Build Unit) : Build Unit := do
  let start ← addInteger 0
  let bound ← addInteger (← count)
  let step ← addInteger 1
  .loopBlock { start, comparison := .lessThan, bound, operator := .add, step } body (.done ())

end Build

namespace Generator

/-- Integers at which engines tend to change from one representation to another. All of them are
exact as script numbers, so the literal that is written is the value that the engine sees. -/
def edgeIntegers : List Int64 :=
  [-9007199254740991, -2147483649, -2147483648, -1073741824, -65536, -4096, -1, 0, 1, 2, 16, 64,
    1024, 65535, 1073741823, 2147483647, 4294967295, 9007199254740991]

/-- An edge integer or a small one. -/
def drawInteger : Draw Int64 := do
  if ← Draw.coin then Draw.element edgeIntegers (by decide)
  else return Int64.ofInt (← Draw.integer (-256) 513 (by decide))

def integer : Generator where
  name := "IntegerGenerator"
  inputs := []
  procedure _ := do
    let value ← Build.draw drawInteger
    let _ ← Build.addInteger value
    return .emitted

def builtin : Generator where
  name := "BuiltinGenerator"
  inputs := []
  procedure _ := do
    match ← Build.draw (Draw.pick (← Build.builtinNames)) with
    | some name =>
      let _ ← Build.addBuiltin name
      return .emitted
    | none => return .skipped

def binaryOperation : Generator where
  name := "BinaryOperationGenerator"
  inputs := [.integer, .integer]
  procedure
    | [lhs, rhs] => do
      let operator ← Build.draw (Draw.element Operator.all (by decide))
      let _ ← Build.addBinary lhs operator rhs
      return .emitted
    | _ => return .skipped

/-- At most three parameters, all untyped. The function gives back its first one and a constant added
up, or the constant alone. -/
def functionDefinition : Generator where
  name := "FunctionDefinitionGenerator"
  inputs := []
  procedure _ := do
    let arity ← Build.draw (Draw.below64 4 (by decide))
    let value ← Build.draw drawInteger
    let _ ← Build.addFunction ⟨List.replicate arity .anything, .anything⟩ fun params => do
      let constant ← Build.addInteger value
      match params with
      | first :: _ => return some (← Build.addBinary first .add constant)
      | [] => return some constant
    return .emitted

def functionCall : Generator where
  name := "FunctionCallGenerator"
  inputs := [.anyFunction]
  procedure
    | [function] => do
      match ← Build.pickArguments function with
      | some arguments =>
        let _ ← Build.addCall function arguments
        return .emitted
      | none => return .skipped
    | _ => return .skipped

def drawLoopCount : Draw Int64 := do return Int64.ofInt (← Draw.integer 1 16 (by decide))

def forLoop : Generator where
  name := "ForLoopGenerator"
  inputs := []
  procedure _ := do
    Build.addCountingLoop (Build.draw drawLoopCount) fun index => do
      let _ ← Build.addBinary index .mul index
    return .emitted

/-- The generators that every target can use, with their usual weights. -/
def base : List (Generator × UInt32) :=
  [(integer, 2), (builtin, 5), (binaryOperation, 4), (functionDefinition, 3), (functionCall, 10),
    (forLoop, 5)]

end Generator

end EngineFuzz
