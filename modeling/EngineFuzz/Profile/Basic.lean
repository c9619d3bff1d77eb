import EngineFuzz.Generator.Registry

/-!
Profiles: everything in which one target differs from another.
-/

namespace EngineFuzz

/-- The version of the language that a target reads, oldest first. -/
inductive Edition where
  | es5
  | es6
  | es2017
  | es2020
deriving DecidableEq

namespace Edition

def all : List Edition := [es5, es6, es2017, es2020]

/-- The place of a version in time. -/
def rank : Edition → Nat
  | es5 => 0
  | es6 => 1
  | es2017 => 2
  | es2020 => 3

end Edition

inductive ProfileError where
  | unreadable
  | unknownName (name : String)
  | nothingLeft
deriving DecidableEq

namespace ProfileError

/-- What is said of a profile that cannot be had. Of an unreadable one no more than that is said: what the
reader finds wrong with its text, and where, would follow after a colon and is left out. -/
def message : ProfileError → String
  | unreadable => "JSON parse error"
  | unknownName name => "Unknown code generator: " ++ name
  | nothingLeft => "Profile leaves no selectable code generator"

end ProfileError

structure Profile where
  /-- Arguments of the target's process. -/
  arguments : List String
  /-- Variables of its environment. -/
  environment : Table String
  /-- Put before every script. -/
  preamble : String
  /-- Put after every script. -/
  epilogue : String
  edition : Edition
  /-- Scripts that must crash the target. -/
  crashTests : List String
  added : List (Generator × UInt32)
  /-- Names of generators not to be used. -/
  disabled : List String
  /-- The globals that the target declares. -/
  builtins : Table Ty

namespace Profile

/-- The registry of a target: the generators of `base` without those disabled, and then those added.
Nothing may be disabled that is not there, and something has to be left that can be drawn. -/
def registryOver (profile : Profile) (base : Registry) : Except ProfileError Registry :=
  match profile.disabled.find? fun name => !base.contains name with
  | some name => .error (.unknownName name)
  | none =>
    let registry := (base.removeAll profile.disabled).addAll profile.added
    if registry.totalWeight = 0 then .error .nothingLeft else .ok registry

/-- The script that a target is given for a program's own. -/
def embed (profile : Profile) (body : String) : String := profile.preamble ++ body ++ profile.epilogue

/-- A builder that knows the globals of the target. -/
def builder (profile : Profile) : Builder := .start profile.builtins

end Profile

end EngineFuzz
