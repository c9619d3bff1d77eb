import EngineFuzz.Program.Basic
import EngineFuzz.Table

/-!
What a list of instructions alone says about its variables: which are defined, which are in scope at
its end, and of which type they are.
-/

namespace EngineFuzz

namespace Instr

/-- The variables that an instruction makes, in the order of their numbers. -/
def outputs : Instr → List Var
  | loadInteger output _ => [output]
  | loadBuiltin output _ => [output]
  | binary output .. => [output]
  | beginFunction output params _ => output :: params
  | call output .. => [output]
  | beginFor index _ => [index]
  | ret _ | endFunction | endFor => []

/-- The variables that an instruction uses, in the order in which they are written. -/
def operands : Instr → List Var
  | binary _ lhs _ rhs => [lhs, rhs]
  | ret value => [value]
  | call _ function arguments => function :: arguments
  | beginFor _ head => [head.start, head.bound, head.step]
  | loadInteger .. | loadBuiltin .. | beginFunction .. | endFunction | endFor => []

end Instr

/-- The variables of each open block in the order of their definition, the innermost block first. The
outermost level of a program is a block that is never closed. -/
structure Scope where
  here : List Var
  around : List (List Var)
deriving DecidableEq

namespace Scope

def empty : Scope := ⟨[], []⟩

/-- A function belongs to the block around it and its parameters to its own. -/
def after (scope : Scope) : Instr → Scope
  | .beginFunction output params _ => ⟨params, (scope.here ++ [output]) :: scope.around⟩
  | .beginFor index _ => ⟨[index], scope.here :: scope.around⟩
  | .endFunction | .endFor =>
    match scope.around with
    | [] => scope
    | outer :: around => ⟨outer, around⟩
  | instr => { scope with here := scope.here ++ instr.outputs }

def afterAll (scope : Scope) (instrs : List Instr) : Scope := instrs.foldl after scope

/-- All variables in scope, from the outermost block inwards. -/
def vars (scope : Scope) : List Var := scope.around.reverse.flatten ++ scope.here

end Scope

/-- The types of the variables made so far, in the order in which they were made. -/
abbrev Types := List Ty

namespace Types

def of? (types : Types) (v : Var) : Option Ty := types[v.index]?

/-- The types that an instruction adds, when `types` are known. -/
def added (builtins : Table Ty) (types : Types) : Instr → Types
  | .loadInteger .. => [.integer]
  | .loadBuiltin _ name => [(builtins.get? name).getD .anything]
  | .binary _ lhs _ rhs =>
    [if types.of? lhs = some .integer ∧ types.of? rhs = some .integer then .integer else .anything]
  | .beginFunction _ _ signature => signature.ty :: signature.params
  | .call _ function _ =>
    match types.of? function with
    | some (.function _ returns) => [returns]
    | _ => [.anything]
  | .beginFor .. => [.integer]
  | .ret _ | .endFunction | .endFor => []

/-- The types of a whole list, read from its start. -/
def replay (builtins : Table Ty) (instrs : List Instr) : Types :=
  instrs.foldl (fun types instr => types ++ types.added builtins instr) []

end Types

namespace Program

/-- Whether every operand of every instruction is in scope where it stands. -/
def scopedFrom (scope : Scope) : List Instr → Bool
  | [] => true
  | instr :: instrs =>
    instr.operands.all (scope.vars.contains ·) && scopedFrom (scope.after instr) instrs

def isScoped (p : Program) : Bool := scopedFrom .empty p.instrs

end Program

end EngineFuzz
