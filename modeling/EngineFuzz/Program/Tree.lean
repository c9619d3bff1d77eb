import EngineFuzz.Program.Script

/-!
Programs as trees, in which a block holds its body. Written out flat, a tree is a list of
instructions in which every block that opens is closed by an end of its own kind.

The script of a tree and the calls in its loops are defined by recursion on the blocks, without a count
of what is open.
-/

namespace EngineFuzz

inductive Statement where
  | simple (instr : Instr) (flat : instr.opensBlock = false ∧ instr.closesBlock = false)
  | function (output : Var) (params : List Var) (signature : Signature) (body : List Statement)
  | loop (index : Var) (head : LoopHead) (body : List Statement)

namespace Statement

mutual

def flatten : Statement → List Instr
  | simple instr _ => [instr]
  | function output params signature body =>
    .beginFunction output params signature :: (flattenAll body ++ [.endFunction])
  | loop index head body => .beginFor index head :: (flattenAll body ++ [.endFor])

def flattenAll : List Statement → List Instr
  | [] => []
  | s :: ss => flatten s ++ flattenAll ss

end

/-- A line of the script of whatever stands in `depth` blocks. -/
def lineAt (depth : Nat) (text : String) : String := Program.indent depth ++ text ++ "\n"

mutual

/-- The head of a block and its end stand as far out as the block does, and the body one step in. -/
def scriptAt (depth : Nat) : Statement → String
  | simple instr _ => lineAt depth instr.text
  | function output params signature body =>
    lineAt depth (Instr.beginFunction output params signature).text ++ scriptAllAt (depth + 1) body
      ++ lineAt depth "\x7d"
  | loop index head body =>
    lineAt depth (Instr.beginFor index head).text ++ scriptAllAt (depth + 1) body
      ++ lineAt depth "\x7d"

def scriptAllAt (depth : Nat) : List Statement → String
  | [] => ""
  | s :: ss => scriptAt depth s ++ scriptAllAt depth ss

end

mutual

/-- The calls that have a loop around them, in order; all of them are taken where `looped` tells that
the statement itself stands in a loop. -/
def loopCalls (looped : Bool) : Statement → List Instr
  | simple instr _ => if looped && instr.isCall then [instr] else []
  | function _ _ _ body => loopCallsAll looped body
  | loop _ _ body => loopCallsAll true body

def loopCallsAll (looped : Bool) : List Statement → List Instr
  | [] => []
  | s :: ss => loopCalls looped s ++ loopCallsAll looped ss

end

end Statement

namespace Program

def ofTree (statements : List Statement) : Program := ⟨Statement.flattenAll statements⟩

/-- Every block is closed by an end of its own kind, and nothing else is closed. -/
def IsNested (p : Program) : Prop := ∃ statements, p = ofTree statements

/-- Whether every return is followed at once by the end of a function. -/
def returnsLast : List Instr → Bool
  | [] => true
  | .ret _ :: instrs => instrs.head? == some .endFunction && returnsLast instrs
  | _ :: instrs => returnsLast instrs

end Program

end EngineFuzz
