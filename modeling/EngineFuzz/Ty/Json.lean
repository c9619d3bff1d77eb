import EngineFuzz.Json.Decoder
import EngineFuzz.Ty.Basic

/-!
Types and signatures as JSON. A type is a tagged value; a function carries its signature, or null
when that is not known.
-/

namespace EngineFuzz

namespace Ty

def tags : List String :=
  ["anything", "undefined", "integer", "float", "boolean", "string", "function"]

mutual

def toJson : Ty → Json
  | anything => .record [("kind", .string "anything")]
  | undefined => .record [("kind", .string "undefined")]
  | integer => .record [("kind", .string "integer")]
  | float => .record [("kind", .string "float")]
  | boolean => .record [("kind", .string "boolean")]
  | string => .record [("kind", .string "string")]
  | anyFunction => .record [("kind", .string "function"), ("signature", .null)]
  | function params returns =>
    .record [("kind", .string "function"),
      ("signature", .record [("params", .array (toJsonAll params)), ("returns", toJson returns)])]

def toJsonAll : List Ty → List Json
  | [] => []
  | t :: ts => toJson t :: toJsonAll ts

end

end Ty

namespace Signature

def toJson (s : Signature) : Json :=
  .record [("params", .array (s.params.map Ty.toJson)), ("returns", s.returns.toJson)]

/-- Reads a signature with a reader of types. -/
def decoderWith (ty : Decoder Ty) : Decoder Signature := fun site j => do
  let fields ← Fields.read? ["params", "returns"] site j
  let params ← fields.defaulted "params" [] (.list ty)
  let returns ← fields.required "returns" ty
  return ⟨params, returns⟩

end Signature

namespace Ty

/-- Reads types that stand inside each other at most `depth` times. -/
def decoderTo : (depth : Nat) → Decoder Ty
  | 0 => fun _ _ => none
  | depth + 1 => fun site j =>
    match j.tagged? tags site with
    | none => none
    | some ("function", rest) => do
      let fields ← Fields.read? ["signature"] site.holding rest
      let signature ← fields.defaulted "signature" none
        (.option (Signature.decoderWith (decoderTo depth)))
      match signature with
      | none => return anyFunction
      | some ⟨params, returns⟩ => return function params returns
    | some (tag, rest) =>
      if rest.isBare then
        match tag with
        | "anything" => some anything
        | "undefined" => some undefined
        | "integer" => some integer
        | "float" => some float
        | "boolean" => some boolean
        | "string" => some string
        | _ => none
      else none

/-- Each type inside another takes at least one unit of room. -/
def decoder : Decoder Ty := fun site j => decoderTo site.room site j

end Ty

def Signature.decoder : Decoder Signature := decoderWith Ty.decoder

end EngineFuzz
