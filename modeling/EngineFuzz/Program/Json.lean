import EngineFuzz.Program.Basic
import EngineFuzz.Ty.Json

/-!
Programs as JSON. A variable is its number, a comparison or operator its name, an instruction a
tagged value with its parts in the order in which they are written.
-/

namespace EngineFuzz

namespace Var

def toJson (v : Var) : Json := .nat v.index

def decoder : Decoder Var := fun site j => (Decoder.uint32 site j).map Var.mk

end Var

namespace Comparison

def name : Comparison → String
  | equal => "equal"
  | notEqual => "not_equal"
  | lessThan => "less_than"
  | lessThanOrEqual => "less_than_or_equal"
  | greaterThan => "greater_than"
  | greaterThanOrEqual => "greater_than_or_equal"

def toJson (c : Comparison) : Json := .string c.name

def decoder : Decoder Comparison := .oneOf (all.map fun c => (c.name, c))

end Comparison

namespace Operator

def name : Operator → String
  | add => "add"
  | sub => "sub"
  | mul => "mul"
  | div => "div"
  | mod => "mod"
  | bitAnd => "bit_and"
  | bitOr => "bit_or"
  | xor => "xor"
  | shiftLeft => "l_shift"
  | shiftRight => "r_shift"

def toJson (o : Operator) : Json := .string o.name

def decoder : Decoder Operator := .oneOf (all.map fun o => (o.name, o))

end Operator

namespace Instr

def tags : List String :=
  ["load_integer", "load_builtin", "binary_operation", "begin_function", "return", "end_function",
    "call_function", "begin_for", "end_for"]

def toJson : Instr → Json
  | loadInteger output value =>
    .record [("kind", .string "load_integer"), ("output", output.toJson),
      ("value", .int value.toInt)]
  | loadBuiltin output name =>
    .record [("kind", .string "load_builtin"), ("output", output.toJson), ("name", .string name)]
  | binary output lhs operator rhs =>
    .record [("kind", .string "binary_operation"), ("output", output.toJson), ("lhs", lhs.toJson),
      ("op", operator.toJson), ("rhs", rhs.toJson)]
  | beginFunction output params signature =>
    .record [("kind", .string "begin_function"), ("output", output.toJson),
      ("params", .array (params.map Var.toJson)), ("signature", signature.toJson)]
  | ret value => .record [("kind", .string "return"), ("value", value.toJson)]
  | endFunction => .record [("kind", .string "end_function")]
  | call output function arguments =>
    .record [("kind", .string "call_function"), ("output", output.toJson),
      ("function", function.toJson), ("arguments", .array (arguments.map Var.toJson))]
  | beginFor index head =>
    .record [("kind", .string "begin_for"), ("induction", index.toJson),
      ("start", head.start.toJson), ("comparator", head.comparison.toJson),
      ("end", head.bound.toJson), ("op", head.operator.toJson), ("step", head.step.toJson)]
  | endFor => .record [("kind", .string "end_for")]

def decoder : Decoder Instr := fun site j => do
  let (tag, rest) ← j.tagged? tags site
  let site := site.holding
  match tag with
  | "load_integer" =>
    let fields ← Fields.read? ["output", "value"] site rest
    return loadInteger (← fields.required "output" Var.decoder)
      (← fields.required "value" Decoder.int64)
  | "load_builtin" =>
    let fields ← Fields.read? ["output", "name"] site rest
    return loadBuiltin (← fields.required "output" Var.decoder)
      (← fields.required "name" Decoder.string)
  | "binary_operation" =>
    let fields ← Fields.read? ["output", "lhs", "op", "rhs"] site rest
    return binary (← fields.required "output" Var.decoder) (← fields.required "lhs" Var.decoder)
      (← fields.required "op" Operator.decoder) (← fields.required "rhs" Var.decoder)
  | "begin_function" =>
    let fields ← Fields.read? ["output", "params", "signature"] site rest
    return beginFunction (← fields.required "output" Var.decoder)
      (← fields.required "params" (.list Var.decoder))
      (← fields.required "signature" Signature.decoder)
  | "return" =>
    let fields ← Fields.read? ["value"] site rest
    return ret (← fields.required "value" Var.decoder)
  | "call_function" =>
    let fields ← Fields.read? ["output", "function", "arguments"] site rest
    return call (← fields.required "output" Var.decoder)
      (← fields.required "function" Var.decoder)
      (← fields.required "arguments" (.list Var.decoder))
  | "begin_for" =>
    let fields ← Fields.read? ["induction", "start", "comparator", "end", "op", "step"] site rest
    return beginFor (← fields.required "induction" Var.decoder)
      { start := ← fields.required "start" Var.decoder
        comparison := ← fields.required "comparator" Comparison.decoder
        bound := ← fields.required "end" Var.decoder
        operator := ← fields.required "op" Operator.decoder
        step := ← fields.required "step" Var.decoder }
  | "end_function" => if rest.isBare then some endFunction else none
  | "end_for" => if rest.isBare then some endFor else none
  | _ => none

end Instr

namespace Program

def toJson (p : Program) : Json := .record [("instructions", .array (p.instrs.map Instr.toJson))]

def decoder : Decoder Program := fun site j => do
  let fields ← Fields.read? ["instructions"] site j
  return ⟨← fields.required "instructions" (.list Instr.decoder)⟩

end Program

end EngineFuzz
