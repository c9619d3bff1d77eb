import EngineFuzz.Json.Double

/-!
JSON values as trees.

A tree keeps what a text says as long as a reader may still have to judge it: whether an integer was
signed, the digits of a number with a fraction or an exponent, every field of an object in the order
of the text, and strings that name one half of a surrogate pair.
-/

namespace EngineFuzz

inductive Json where
  | null
  | bool (value : Bool)
  | integer (negative : Bool) (magnitude : Nat)
  /-- The significant digits, point left out, and the power of ten they are to be taken by. -/
  | decimal (negative : Bool) (digits : Nat) (exponent : Int)
  /-- Absent for a string with an escape that stands for half a surrogate pair, which is well formed
  but no text. -/
  | text (value : Option String)
  | array (items : List Json)
  | object (fields : List (Option String × Json))
deriving Inhabited

namespace Json

def string (s : String) : Json := .text (some s)

def nat (n : Nat) : Json := .integer false n

def int (i : Int) : Json := .integer (decide (i < 0)) i.natAbs

def strings (items : List String) : Json := .array (items.map string)

/-- An object with its fields in the order given. -/
def record (fields : List (String × Json)) : Json :=
  .object (fields.map fun (name, value) => (some name, value))

def option (value : α → Json) : Option α → Json
  | none => .null
  | some a => value a

mutual

/-- Whether a value can be held for later reading: arrays and objects nested no deeper than `room`,
every string a text and every number finite as a double. -/
def holds (room : Nat) : Json → Bool
  | null => true
  | bool _ => true
  | integer _ magnitude => Double.isFinite magnitude 0
  | decimal _ digits exponent => Double.isFinite digits exponent
  | text value => value.isSome
  | array items => 0 < room && holdsAll (room - 1) items
  | object fields => 0 < room && holdsFields (room - 1) fields

def holdsAll (room : Nat) : List Json → Bool
  | [] => true
  | item :: items => holds room item && holdsAll room items

def holdsFields (room : Nat) : List (Option String × Json) → Bool
  | [] => true
  | (name, value) :: fields => name.isSome && holds room value && holdsFields room fields

end

end Json

end EngineFuzz
