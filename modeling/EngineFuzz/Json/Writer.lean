import EngineFuzz.Json.Basic

/-!
The written form of a JSON value: no blanks, fields in the order of the tree. A string escapes the
quote, the backslash and the control characters, and nothing else.
-/

namespace EngineFuzz.Json

def hexDigit (n : Nat) : Char := "0123456789abcdef".toList.getD n '0'

/-- Control characters have a short escape where the grammar knows one, and else four hexadecimal
digits. -/
def escape (c : Char) : List Char :=
  if c = '"' then ['\\', '"']
  else if c = '\\' then ['\\', '\\']
  else if c = '\x08' then ['\\', 'b']
  else if c = '\x0c' then ['\\', 'f']
  else if c = '\n' then ['\\', 'n']
  else if c = '\r' then ['\\', 'r']
  else if c = '\t' then ['\\', 't']
  else if c.toNat < 0x20 then
    ['\\', 'u', '0', '0', hexDigit (c.toNat / 16), hexDigit (c.toNat % 16)]
  else [c]

/-- A string that is no text is written as one unpaired half, which reads back as no text. -/
def quoted : Option String → List Char
  | some s => '"' :: s.toList.flatMap escape ++ ['"']
  | none => ['"', '\\', 'u', 'd', '8', '0', '0', '"']

def signed (negative : Bool) (magnitude : Nat) : List Char :=
  (if negative then ['-'] else []) ++ Nat.toDigits 10 magnitude

mutual

def chars : Json → List Char
  | null => ['n', 'u', 'l', 'l']
  | bool true => ['t', 'r', 'u', 'e']
  | bool false => ['f', 'a', 'l', 's', 'e']
  | integer negative magnitude => signed negative magnitude
  | decimal negative digits exponent =>
    signed negative digits ++ 'e' :: signed (decide (exponent < 0)) exponent.natAbs
  | text value => quoted value
  | array items => '[' :: charsItems items ++ [']']
  | object fields => '{' :: charsFields fields ++ ['}']

def charsItems : List Json → List Char
  | [] => []
  | [item] => chars item
  | item :: next :: items => chars item ++ ',' :: charsItems (next :: items)

def charsFields : List (Option String × Json) → List Char
  | [] => []
  | [(name, value)] => quoted name ++ ':' :: chars value
  | (name, value) :: next :: fields =>
    quoted name ++ ':' :: (chars value ++ ',' :: charsFields (next :: fields))

end

def write (j : Json) : String := String.ofList j.chars

end EngineFuzz.Json
