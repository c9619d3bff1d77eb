import EngineFuzz.Json.Decoder
import EngineFuzz.Table

/-!
Tables as JSON: an object with the names in ascending order. Read back, the last entry of a name
counts.
-/

namespace EngineFuzz

def Json.table (value : α → Json) (table : Table α) : Json :=
  .record (table.entries.map fun (name, a) => (name, value a))

def Decoder.table (value : Decoder α) : Decoder (Table α)
  | site, .object fields =>
    if 0 < site.room then do
      let entries ← fields.mapM fun (name, j) => do
        let name ← name
        let a ← value site.inside j
        return (name, a)
      return .ofList entries
    else none
  | _, _ => none

end EngineFuzz
