import EngineFuzz.Generator.Catalog
import EngineFuzz.Random.Urn

/-!
Registries: the generators a session draws from, each with its weight and under a name of its own.
-/

namespace EngineFuzz

structure Registry where
  generators : Urn Generator

namespace Registry

def empty : Registry := ⟨.empty⟩

/-- A generator of the same name is replaced where it stands. -/
def add (registry : Registry) (generator : Generator) (weight : UInt32) : Registry :=
  match registry.generators.replaceFirst (·.name == generator.name) generator weight with
  | (true, generators) => ⟨generators⟩
  | (false, generators) => ⟨generators.push generator weight⟩

def addAll (registry : Registry) (generators : List (Generator × UInt32)) : Registry :=
  generators.foldl (fun registry (generator, weight) => registry.add generator weight) registry

/-- Takes a generator out. The flag tells whether it was there. -/
def remove (registry : Registry) (name : String) : Bool × Registry :=
  let (removed, generators) := registry.generators.removeAll (·.name == name)
  (decide (0 < removed), ⟨generators⟩)

def removeAll (registry : Registry) (names : List String) : Registry :=
  names.foldl (fun registry name => (registry.remove name).2) registry

/-- The generators with their weights, in order. -/
def entries (registry : Registry) : List (Generator × UInt32) := registry.generators.entries

def find? (registry : Registry) (name : String) : Option (Generator × UInt32) :=
  registry.entries.find? fun (generator, _) => generator.name == name

def get? (registry : Registry) (name : String) : Option Generator := (registry.find? name).map (·.1)

def weight? (registry : Registry) (name : String) : Option UInt32 :=
  (registry.find? name).map (·.2)

def contains (registry : Registry) (name : String) : Bool := (registry.get? name).isSome

def names (registry : Registry) : List String :=
  registry.entries.map fun (generator, _) => generator.name

def size (registry : Registry) : Nat := registry.generators.size

def isEmpty (registry : Registry) : Bool := registry.generators.isEmpty

def totalWeight (registry : Registry) : Nat := registry.generators.total

/-- Draws a generator as often as its weight says. -/
def draw (registry : Registry) (rng : Rng) : Except DrawError Generator × Rng :=
  registry.generators.draw rng

/-- What is said when no generator can be drawn. -/
def drawMessage (error : DrawError) : String :=
  "No generator can be selected: " ++ error.message

def base : Registry := empty.addAll Generator.base

end Registry

end EngineFuzz
