import EngineFuzz.Program.Basic
import EngineFuzz.Table

/-!
A program in the making.

A builder hands out variables in order, remembers the type of each, and knows which of them are in
scope: those of the block being written and of the blocks around it. Operands have to be in scope. A
block is opened and closed by steps of its own; `Build` is the way to write blocks that always close.
-/

namespace EngineFuzz

/-- What a builder or a generator refuses to go on after. -/
inductive Misuse where
  | notVisible (v : Var)
  | unallocated (v : Var)
  | inputCount (generator : String) (count : Nat)
  | falseSkip (generator : String)
deriving DecidableEq

namespace Misuse

def message : Misuse → String
  | notVisible v => v.text ++ " is not visible in the current scope"
  | unallocated v => v.text ++ " was never allocated by this builder"
  | inputCount generator count => "generator " ++ generator ++ " takes " ++ count.repr ++ " inputs"
  | falseSkip generator => "generator " ++ generator ++ " emitted code but reported a skip"

end Misuse

structure Builder where
  instrs : Array Instr
  /-- The type of each variable, by its number. -/
  types : Array Ty
  /-- The variables of the block being written, the newest first. -/
  scope : List Var
  /-- The same for the blocks around it, the innermost first. -/
  enclosing : List (List Var)
  /-- The globals that the target declares. -/
  builtins : Table Ty

namespace Builder

def start (builtins : Table Ty) : Builder := ⟨#[], #[], [], [], builtins⟩

def program (b : Builder) : Program := ⟨b.instrs.toList⟩

/-- All variables in scope, the outermost block first and the oldest first in each. -/
def inScope (b : Builder) : List Var := (b.scope :: b.enclosing).flatten.reverse

def isVisible (b : Builder) (v : Var) : Bool := b.inScope.contains v

def typeOf? (b : Builder) (v : Var) : Option Ty := b.types[v.index]?

def typeOf (b : Builder) (v : Var) : Except Misuse Ty :=
  match b.typeOf? v with
  | some ty => .ok ty
  | none => .error (.unallocated v)

/-- The variables in scope that may stand where `ty` is required. -/
def visible (b : Builder) (ty : Ty) : List Var :=
  b.inScope.filter fun v => (b.typeOf? v).any (·.fits ty)

/-- Names the first of `operands` that is not in scope. -/
def checkVisible (b : Builder) : (operands : List Var) → Except Misuse Unit
  | [] => .ok ()
  | v :: vs => if b.isVisible v then b.checkVisible vs else .error (.notVisible v)

def emit (b : Builder) (instr : Instr) : Builder := { b with instrs := b.instrs.push instr }

/-- A new variable, in scope nowhere as yet. -/
def fresh (b : Builder) (ty : Ty) : Var × Builder :=
  (⟨b.types.size.toUInt32⟩, { b with types := b.types.push ty })

def freshAll (b : Builder) : List Ty → List Var × Builder
  | [] => ([], b)
  | ty :: tys =>
    let (v, b) := b.fresh ty
    let (vs, b) := b.freshAll tys
    (v :: vs, b)

/-- A new variable of the block being written. -/
def declare (b : Builder) (ty : Ty) : Var × Builder :=
  let (v, b) := b.fresh ty
  (v, { b with scope := v :: b.scope })

/-- Opens a block in which `vs` are in scope from the start. -/
def enter (b : Builder) (vs : List Var) : Builder :=
  { b with scope := vs.reverse, enclosing := b.scope :: b.enclosing }

/-- Leaves the block being written. The outermost is never left. -/
def leave (b : Builder) : Builder :=
  match b.enclosing with
  | [] => b
  | outer :: enclosing => { b with scope := outer, enclosing := enclosing }

def loadInteger (b : Builder) (value : Int64) : Var × Builder :=
  let (output, b) := b.declare .integer
  (output, b.emit (.loadInteger output value))

/-- A global that the target does not declare may be anything. -/
def loadBuiltin (b : Builder) (name : String) : Var × Builder :=
  let (output, b) := b.declare ((b.builtins.get? name).getD .anything)
  (output, b.emit (.loadBuiltin output name))

/-- Of integers an operator makes an integer, of other operands anything. -/
def binary (b : Builder) (lhs : Var) (operator : Operator) (rhs : Var) :
    Except Misuse (Var × Builder) := do
  b.checkVisible [lhs, rhs]
  let integers := b.typeOf? lhs == some .integer && b.typeOf? rhs == some .integer
  let (output, b) := b.declare (if integers then .integer else .anything)
  return (output, b.emit (.binary output lhs operator rhs))

/-- The type of what a call of `function` gives. -/
def resultType (b : Builder) (function : Var) : Ty :=
  match (b.typeOf? function).bind Ty.signature? with
  | some signature => signature.returns
  | none => .anything

def call (b : Builder) (function : Var) (arguments : List Var) : Except Misuse (Var × Builder) := do
  b.checkVisible (function :: arguments)
  let (output, b) := b.declare (b.resultType function)
  return (output, b.emit (.call output function arguments))

/-- Starts a function; gives its own variable and those of its parameters. The function belongs to the
block around it, so that its body may call it. -/
def openFunction (b : Builder) (signature : Signature) : Var × List Var × Builder :=
  let (output, b) := b.declare signature.ty
  let (params, b) := b.freshAll signature.params
  (output, params, (b.emit (.beginFunction output params signature)).enter params)

/-- Ends a function, which gives back `value` if there is one. -/
def closeFunction (b : Builder) (value : Option Var) : Except Misuse Builder :=
  match value with
  | none => return (b.leave.emit .endFunction)
  | some v => do
    b.checkVisible [v]
    return ((b.emit (.ret v)).leave.emit .endFunction)

/-- Starts a loop; gives the variable that counts. -/
def openLoop (b : Builder) (head : LoopHead) : Except Misuse (Var × Builder) := do
  b.checkVisible [head.start, head.bound, head.step]
  let (index, b) := b.fresh .integer
  return (index, (b.emit (.beginFor index head)).enter [index])

def closeLoop (b : Builder) : Builder := b.leave.emit .endFor

end Builder

end EngineFuzz
