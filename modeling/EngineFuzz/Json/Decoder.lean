import EngineFuzz.Json.Basic

/-!
Taking JSON values apart.

A value is read at a `Site`, which says how many arrays and objects may still open there and whether
the value belongs to one that was held as a whole before it was read. Records may be written as an
object or as the array of their fields, enumerations as a name or as an object of one field, and
tagged values carry their tag in the field `kind` or as their first item.
-/

namespace EngineFuzz

structure Site where
  room : Nat
  held : Bool

namespace Site

/-- At most 127 arrays and objects stand inside each other. -/
def root : Site := ⟨127, false⟩

/-- Within an array or object that stands here. -/
def inside (site : Site) : Site := { site with room := site.room - 1 }

/-- Within a value that stands here and has been held. -/
def holding (site : Site) : Site := { site with held := true }

end Site

abbrev Decoder (α : Type) := Site → Json → Option α

namespace Decoder

def string : Decoder String
  | _, .text value => value
  | _, _ => none

def bool : Decoder Bool
  | _, .bool value => some value
  | _, _ => none

/-- A whole number below `limit`. The sign of `-0` makes it none. -/
def natBelow (limit : Nat) : Decoder Nat
  | _, .integer false n => if n < limit then some n else none
  | _, _ => none

def uint32 : Decoder UInt32 := fun site j => (natBelow UInt32.size site j).map UInt32.ofNat

/-- A count, which is kept in a word of 64 bits. -/
def size : Decoder Nat := natBelow UInt64.size

def uint64 : Decoder UInt64 := fun site j => (size site j).map UInt64.ofNat

/-- An integer of two's complement with `half` values on each side of the sign. -/
def intWithin (half : Nat) : Decoder Int
  | _, .integer false n => if n < half then some n else none
  | _, .integer true n => if 0 < n ∧ n ≤ half then some (-n) else none
  | _, _ => none

def int32 : Decoder Int32 := fun site j => (intWithin 0x80000000 site j).map Int32.ofInt

def int64 : Decoder Int64 := fun site j => (intWithin 0x8000000000000000 site j).map Int64.ofInt

def option (item : Decoder α) : Decoder (Option α)
  | _, .null => some none
  | site, j => (item site j).map some

def list (item : Decoder α) : Decoder (List α)
  | site, .array items => if 0 < site.room then items.mapM (item site.inside) else none
  | _, _ => none

end Decoder

/-- The fields of a record: what was given for each name, and whether by place in an array. -/
structure Fields where
  site : Site
  given : List (String × Json)
  placed : Bool

namespace Fields

/-- An array gives its items to the first of `names` and may not be longer. An object gives each of
`names` at most once; its other fields are carried along unread. -/
def read? (names : List String) (site : Site) : Json → Option Fields
  | .array items =>
    if 0 < site.room ∧ items.length ≤ names.length then some ⟨site.inside, names.zip items, true⟩
    else none
  | .object fields => do
    let given ← fields.mapM fun (name, value) => name.map (·, value)
    if 0 < site.room ∧ names.all fun name => (given.filter (·.1 == name)).length ≤ 1 then
      some ⟨site.inside, given, false⟩
    else none
  | _ => none

/-- Whether nothing but `names` is given. -/
def within (fields : Fields) (names : List String) : Bool :=
  fields.given.all fun (name, _) => names.contains name

def required (fields : Fields) (name : String) (item : Decoder α) : Option α :=
  match fields.given.lookup name with
  | some j => item fields.site j
  | none => none

/-- An object may leave the field out; an array has to hold its place. -/
def optional (fields : Fields) (name : String) (item : Decoder α) : Option (Option α) :=
  match fields.given.lookup name with
  | some j => Decoder.option item fields.site j
  | none => if fields.placed then none else some none

/-- An object may leave the field out and an array may end before it. -/
def defaulted (fields : Fields) (name : String) (default : α) (item : Decoder α) : Option α :=
  match fields.given.lookup name with
  | some j => item fields.site j
  | none => some default

end Fields

namespace Json

/-- The name of a variant and what it carries, which is nothing where the name stands alone. -/
def variant? (site : Site) : Json → Option (String × Option Json)
  | text (some name) => some (name, none)
  | object [(some name, value)] => if 0 < site.room then some (name, some value) else none
  | _ => none

/-- Whether `carried` is nothing. Inside a held value an empty object counts as nothing too. -/
def carriesNothing (site : Site) (carried : Option Json) : Bool :=
  match carried with
  | none => true
  | some null => true
  | some (object []) => site.held
  | some _ => false

/-- A tag is one of `tags` by name; inside a held value its place in the list will do. -/
def tag? (tags : List String) (site : Site) : Json → Option String
  | text (some name) => if tags.contains name then some name else none
  | integer false n => if site.held then tags[n]? else none
  | _ => none

/-- The tag of a value and the value without it. A tagged value is held as a whole before it is read,
for its tag may come last. -/
def tagged? (tags : List String) (site : Site) (j : Json) : Option (String × Json) :=
  if site.held || j.holds site.room then
    match j with
    | array (tag :: items) => (tag? tags site tag).map (·, array items)
    | object fields =>
      match fields.partition (·.1 == some "kind") with
      | ([(_, tag)], others) => (tag? tags site tag).map (·, object others)
      | _ => none
    | _ => none
  else none

/-- Whether the rest of a tagged value may stand where no field is known: extra fields are unread, but
an array has no item to spare. -/
def isBare : Json → Bool
  | array items => items.isEmpty
  | _ => true

end Json

namespace Decoder

/-- One of the values of an enumeration, by name. -/
def oneOf (values : List (String × α)) : Decoder α := fun site j =>
  match j.variant? site with
  | some (name, carried) => if Json.carriesNothing site carried then values.lookup name else none
  | none => none

/-- Reads a whole text. -/
def run (decoder : Decoder α) (j : Json) : Option α := decoder .root j

end Decoder

end EngineFuzz
