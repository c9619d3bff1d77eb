import EngineFuzz.Program.Basic

/-!
The script of a program: one line for each instruction, indented by four blanks for every block that
is open around it.
-/

namespace EngineFuzz

/-- Names with a comma and a blank between them. -/
def Var.listText (vs : List Var) : String := ", ".intercalate (vs.map Var.text)

def Instr.text : Instr → String
  | loadInteger output value => "let " ++ output.text ++ " = " ++ value.toInt.repr ++ ";"
  | loadBuiltin output name => "let " ++ output.text ++ " = " ++ name ++ ";"
  | binary output lhs operator rhs =>
    "let " ++ output.text ++ " = " ++ lhs.text ++ " " ++ operator.token ++ " " ++ rhs.text ++ ";"
  | beginFunction output params _ =>
    "function " ++ output.text ++ "(" ++ Var.listText params ++ ") \x7b"
  | ret value => "return " ++ value.text ++ ";"
  | call output function arguments =>
    "let " ++ output.text ++ " = " ++ function.text ++ "(" ++ Var.listText arguments ++ ");"
  | beginFor index head =>
    "for (let " ++ index.text ++ " = " ++ head.start.text ++ "; "
      ++ index.text ++ " " ++ head.comparison.token ++ " " ++ head.bound.text ++ "; "
      ++ index.text ++ " = " ++ index.text ++ " " ++ head.operator.token ++ " " ++ head.step.text
      ++ ") \x7b"
  | endFunction | endFor => "\x7d"

namespace Program

def indent (depth : Nat) : String := "".pushn ' ' (4 * depth)

/-- A block that closes is written one step further out, where its first line stands. An end with no
open block stays at the margin. -/
def linesFrom (depth : Nat) : List Instr → List String
  | [] => []
  | instr :: instrs =>
    let depth := if instr.closesBlock then depth - 1 else depth
    (indent depth ++ instr.text ++ "\n") ::
      linesFrom (if instr.opensBlock then depth + 1 else depth) instrs

def script (p : Program) : String := String.join (linesFrom 0 p.instrs)

end Program

end EngineFuzz
