import EngineFuzz.Proofs.Json.Double
import EngineFuzz.Proofs.Program.Typing

/-!
Programs that do not run for long. Their loops count up to a small constant, and as no block stands in
another and no function calls anything, a loop is the only thing that makes them run an instruction
twice. Their literals are exact as script numbers.
-/

namespace EngineFuzz

/-- Whether a script that writes the integer down means it: 2^53 - 1 is the greatest up to which every
integer is a double. -/
def IsExact (value : Int64) : Prop := value.toInt.natAbs ≤ 9007199254740991

instance (value : Int64) : Decidable (IsExact value) := inferInstanceAs (Decidable (_ ≤ _))

/-- Whether `value` is loaded into `v` among these instructions, and in no block. -/
def IsLoaded (instrs : List Instr) (v : Var) (value : Int64) : Prop :=
  ∃ before after, instrs = before ++ .loadInteger v value :: after ∧ Frames.afterAll [] before = []

/-- What the head of a loop has to be after the instructions `before`. -/
structure LoopHead.IsBounded (before : List Instr) (head : LoopHead) : Prop where
  comparison : head.comparison = .lessThan
  operator : head.operator = .add
  start : IsLoaded before head.start 0
  bound : ∃ count : Int64, (1 ≤ count.toInt ∧ count.toInt ≤ 16 ∨ count.toInt = 100) ∧
    IsLoaded before head.bound count
  step : IsLoaded before head.step 1

/-- What an instruction has to be after the instructions `before`. -/
def Instr.IsBounded (before : List Instr) : Instr → Prop
  | loadInteger _ value => IsExact value
  | beginFunction .. => Frames.afterAll [] before = []
  | beginFor _ head => Frames.afterAll [] before = [] ∧ head.IsBounded before
  | call .. => (Frames.afterAll [] before).function? = none
  | _ => True

namespace Program

def IsBounded (p : Program) : Prop :=
  ∀ before instr after, p.instrs = before ++ instr :: after → instr.IsBounded before

/-- The same, read from the start. -/
def BoundedFrom (before : List Instr) : List Instr → Prop
  | [] => True
  | instr :: instrs => instr.IsBounded before ∧ BoundedFrom (before ++ [instr]) instrs

theorem BoundedFrom.append {before first second : List Instr} (bounded : BoundedFrom before first)
    (rest : BoundedFrom (before ++ first) second) : BoundedFrom before (first ++ second) := by
  induction first generalizing before with
  | nil => simpa using rest
  | cons instr first ih =>
    refine ⟨bounded.1, ih bounded.2 ?_⟩
    simpa using rest

/-- Each instruction is judged by all that stand before it. -/
theorem BoundedFrom.isBounded {start instrs before after : List Instr} {instr : Instr}
    (bounded : BoundedFrom start instrs) (split : instrs = before ++ instr :: after) :
    instr.IsBounded (start ++ before) := by
  subst split
  induction before generalizing start with
  | nil => simpa using bounded.1
  | cons first before ih => simpa using ih bounded.2

theorem isBounded_of_boundedFrom {p : Program} (bounded : BoundedFrom [] p.instrs) : p.IsBounded :=
  fun _ _ _ split => bounded.isBounded split

end Program

/-- The double nearest to a literal is the literal. -/
theorem IsExact.nearest {value : Int64} (small : IsExact value) :
    Double.nearest value.toInt.natAbs = value.toInt.natAbs := Double.nearest_of_small small

end EngineFuzz
