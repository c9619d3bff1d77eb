import EngineFuzz.Ty.Basic

/-!
Programs: a flat list of instructions in which some open a block and others close one. Variables are
numbers; every instruction that makes a value names the variable it goes to.
-/

namespace EngineFuzz

structure Var where
  number : UInt32
deriving DecidableEq

namespace Var

def index (v : Var) : Nat := v.number.toNat

def text (v : Var) : String := "v" ++ v.index.repr

end Var

inductive Comparison where
  | equal
  | notEqual
  | lessThan
  | lessThanOrEqual
  | greaterThan
  | greaterThanOrEqual
deriving DecidableEq

namespace Comparison

def all : List Comparison :=
  [equal, notEqual, lessThan, lessThanOrEqual, greaterThan, greaterThanOrEqual]

def token : Comparison → String
  | equal => "=="
  | notEqual => "!="
  | lessThan => "<"
  | lessThanOrEqual => "<="
  | greaterThan => ">"
  | greaterThanOrEqual => ">="

end Comparison

inductive Operator where
  | add
  | sub
  | mul
  | div
  | mod
  | bitAnd
  | bitOr
  | xor
  | shiftLeft
  | shiftRight
deriving DecidableEq

namespace Operator

/-- The order in which operators are drawn. -/
def all : List Operator :=
  [add, sub, mul, div, mod, bitAnd, bitOr, xor, shiftLeft, shiftRight]

def token : Operator → String
  | add => "+"
  | sub => "-"
  | mul => "*"
  | div => "/"
  | mod => "%"
  | bitAnd => "&"
  | bitOr => "|"
  | xor => "^"
  | shiftLeft => "<<"
  | shiftRight => ">>"

end Operator

/-- The head of a counting loop: `index` starts as `start` and goes on by `operator` and `step` as
long as it compares with `bound`. -/
structure LoopHead where
  start : Var
  comparison : Comparison
  bound : Var
  operator : Operator
  step : Var
deriving DecidableEq

inductive Instr where
  | loadInteger (output : Var) (value : Int64)
  | loadBuiltin (output : Var) (name : String)
  | binary (output lhs : Var) (operator : Operator) (rhs : Var)
  | beginFunction (output : Var) (params : List Var) (signature : Signature)
  | ret (value : Var)
  | endFunction
  | call (output function : Var) (arguments : List Var)
  | beginFor (index : Var) (head : LoopHead)
  | endFor
deriving DecidableEq

namespace Instr

def opensBlock : Instr → Bool
  | beginFunction .. | beginFor .. => true
  | _ => false

def closesBlock : Instr → Bool
  | endFunction | endFor => true
  | _ => false

def isLoop : Instr → Bool
  | beginFor .. => true
  | _ => false

def isCall : Instr → Bool
  | call .. => true
  | _ => false

end Instr

structure Program where
  instrs : List Instr
deriving DecidableEq

namespace Program

def empty : Program := ⟨[]⟩

def size (p : Program) : Nat := p.instrs.length

def isEmpty (p : Program) : Bool := p.instrs.isEmpty

def loops (p : Program) : Nat := p.instrs.countP Instr.isLoop

def calls (p : Program) : Nat := p.instrs.countP Instr.isCall

/-- The calls that stand in a loop, each with its position, counted from `position` on. `opened` tells
of every open block, innermost first, whether it is a loop. -/
def loopCallsFrom (opened : List Bool) (position : Nat) : List Instr → List (Nat × Instr)
  | [] => []
  | instr :: instrs =>
    match instr with
    | .beginFor .. => loopCallsFrom (true :: opened) (position + 1) instrs
    | .beginFunction .. => loopCallsFrom (false :: opened) (position + 1) instrs
    | .endFor | .endFunction => loopCallsFrom opened.tail (position + 1) instrs
    | .call .. =>
      if opened.any id then (position, instr) :: loopCallsFrom opened (position + 1) instrs
      else loopCallsFrom opened (position + 1) instrs
    | _ => loopCallsFrom opened (position + 1) instrs

/-- The calls that stand in a loop at any depth, with their positions. An end closes the block opened
last, of whichever kind, and none if none is open. -/
def loopCalls (p : Program) : List (Nat × Instr) := loopCallsFrom [] 0 p.instrs

end Program

end EngineFuzz
