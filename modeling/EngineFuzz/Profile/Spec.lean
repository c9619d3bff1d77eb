import EngineFuzz.Json.Reader
import EngineFuzz.Json.Table
import EngineFuzz.Profile.Known
import EngineFuzz.Ty.Json

/-!
Profiles in writing. A configuration is a profile whose generators are given by name and weight; the
names are looked up in a catalog.
-/

namespace EngineFuzz

namespace Edition

def name : Edition → String
  | es5 => "es5"
  | es6 => "es6"
  | es2017 => "es2017"
  | es2020 => "es2020"

def toJson (edition : Edition) : Json := .string edition.name

def decoder : Decoder Edition := .oneOf (all.map fun edition => (edition.name, edition))

end Edition

structure NamedWeight where
  name : String
  weight : UInt32
deriving DecidableEq

namespace NamedWeight

def toJson (entry : NamedWeight) : Json :=
  .record [("name", .string entry.name), ("weight", .nat entry.weight.toNat)]

def decoder : Decoder NamedWeight := fun site j => do
  let fields ← Fields.read? ["name", "weight"] site j
  return { name := ← fields.required "name" .string
           weight := ← fields.required "weight" .uint32 }

end NamedWeight

structure ProfileSpec where
  arguments : List String
  environment : Table String
  preamble : String
  epilogue : String
  edition : Edition
  crashTests : List String
  added : List NamedWeight
  disabled : List String
  builtins : Table Ty

namespace ProfileSpec

/-- Nothing set but the version. -/
def plain (edition : Edition) : ProfileSpec where
  arguments := []
  environment := .empty
  preamble := ""
  epilogue := ""
  edition := edition
  crashTests := []
  added := []
  disabled := []
  builtins := .empty

def fieldNames : List String :=
  ["process_arguments", "process_env", "code_prefix", "code_suffix", "ecma_version", "crash_tests",
    "additional_code_generators", "disabled_code_generators", "additional_builtins"]

def toJson (config : ProfileSpec) : Json :=
  .record
    [("process_arguments", .strings config.arguments),
      ("process_env", .table .string config.environment),
      ("code_prefix", .string config.preamble),
      ("code_suffix", .string config.epilogue),
      ("ecma_version", config.edition.toJson),
      ("crash_tests", .strings config.crashTests),
      ("additional_code_generators", .array (config.added.map NamedWeight.toJson)),
      ("disabled_code_generators", .strings config.disabled),
      ("additional_builtins", .table Ty.toJson config.builtins)]

def decoder : Decoder ProfileSpec := fun site j => do
  let fields ← Fields.read? fieldNames site j
  return {
    arguments := ← fields.defaulted "process_arguments" [] (.list .string)
    environment := ← fields.defaulted "process_env" .empty (.table .string)
    preamble := ← fields.defaulted "code_prefix" "" .string
    epilogue := ← fields.defaulted "code_suffix" "" .string
    edition := ← fields.required "ecma_version" Edition.decoder
    crashTests := ← fields.defaulted "crash_tests" [] (.list .string)
    added := ← fields.defaulted "additional_code_generators" [] (.list NamedWeight.decoder)
    disabled := ← fields.defaulted "disabled_code_generators" [] (.list .string)
    builtins := ← fields.defaulted "additional_builtins" .empty (.table Ty.decoder) }

/-- Looks up the generators, each name in turn, the first of that name in the catalog. -/
def lookUp (catalog : List Generator) :
    List NamedWeight → Except ProfileError (List (Generator × UInt32))
  | [] => .ok []
  | entry :: entries =>
    match catalog.find? (·.name == entry.name) with
    | none => .error (.unknownName entry.name)
    | some generator =>
      match lookUp catalog entries with
      | .error e => .error e
      | .ok generators => .ok ((generator, entry.weight) :: generators)

def toProfile (config : ProfileSpec) (catalog : List Generator) : Except ProfileError Profile :=
  match lookUp catalog config.added with
  | .error e => .error e
  | .ok added => .ok { config with added := added }

end ProfileSpec

/-- Reads a profile; its generators may be any of those known. -/
def Profile.parse (text : String) : Except ProfileError Profile :=
  match (Json.read? text).bind ProfileSpec.decoder.run with
  | none => .error .unreadable
  | some config => config.toProfile Generator.known

end EngineFuzz
