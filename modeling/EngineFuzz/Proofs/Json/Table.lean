import EngineFuzz.Json.Table
import EngineFuzz.Proofs.Json.Omission

/-!
Tables read back from JSON. The entries are written in the order of their names, so that each of them
goes to the end of those read before it, and the table that comes of it is the one that was written.
-/

namespace EngineFuzz

namespace Table

variable {α : Type}

/-- An entry whose name comes after all others goes to the end. -/
theorem insertInto_last {name : String} {value : α} {entries : List (String × α)}
    (last : ∀ e ∈ entries, e.1 < name) : insertInto name value entries = entries ++ [(name, value)] := by
  induction entries with
  | nil => rfl
  | cons entry entries ih =>
    rw [List.forall_mem_cons] at last
    have notBefore : ¬name < entry.1 := String.lt_asymm last.1
    have different : name ≠ entry.1 := fun same => String.lt_irrefl _ (same ▸ last.1)
    rw [insertInto, if_neg notBefore, if_neg different, ih last.2, List.cons_append]

theorem entries_foldl_insert (table : Table α) (entries : List (String × α))
    (ascending : (table.entries ++ entries).Pairwise fun a b => a.1 < b.1) :
    (entries.foldl (fun table (name, value) => table.insert name value) table).entries =
      table.entries ++ entries := by
  induction entries generalizing table with
  | nil => simp
  | cons entry entries ih =>
    have last : ∀ e ∈ table.entries, e.1 < entry.1 := fun e member =>
      (List.pairwise_append.mp ascending).2.2 e member entry List.mem_cons_self
    have added : (table.insert entry.1 entry.2).entries = table.entries ++ [entry] := insertInto_last last
    have whole : table.entries ++ entry :: entries =
        (table.insert entry.1 entry.2).entries ++ entries := by
      rw [added, List.append_assoc, List.singleton_append]
    rw [whole] at ascending ⊢
    exact ih _ ascending

theorem ext_entries {first second : Table α} (same : first.entries = second.entries) :
    first = second := by
  cases first
  cases second
  cases same
  rfl

/-- Made of its own entries, a table is itself. -/
theorem ofList_entries (table : Table α) : ofList table.entries = table :=
  ext_entries (entries_foldl_insert empty table.entries table.ascending)

theorem mem_of_mem_foldl_insert {e : String × α} {entries : List (String × α)} {table : Table α}
    (member : e ∈ (entries.foldl (fun table (name, value) => table.insert name value) table).entries) :
    e ∈ table.entries ∨ e ∈ entries := by
  induction entries generalizing table with
  | nil => exact .inl member
  | cons entry entries ih =>
    rcases ih member with before | later
    · rcases mem_insertInto before with here | old
      · exact .inr (here ▸ List.mem_cons_self)
      · exact .inl old
    · exact .inr (List.mem_cons_of_mem _ later)

/-- A table has no entry but those that it is made of. -/
theorem mem_of_mem_ofList {e : String × α} {entries : List (String × α)}
    (member : e ∈ (ofList entries).entries) : e ∈ entries :=
  (mem_of_mem_foldl_insert member).resolve_left List.not_mem_nil

end Table

variable {α : Type} {site : Site}

theorem Decoder.agrees_table {value : Decoder α} {toJson : α → Json}
    (agrees : value.Agrees toJson site.inside) : (table value).Agrees (Json.table toJson) site where
  reads t held := by
    obtain ⟨room, parts⟩ := Json.holds_record.mp held
    have written : Json.table toJson t = .object (t.entries.map fun e => (some e.1, toJson e.2)) := by
      rw [Json.table, Json.record, List.map_map]
      rfl
    rw [written, table, if_pos room, mapM_map_of_each fun e member => ?_]
    · simp [Table.ofList_entries]
    · have read := agrees.reads e.2 (parts _ (List.mem_map_of_mem member))
      simp [read]
  fits j t allowed read := by
    cases j with
    | object fields =>
      rw [table] at read
      split at read
      next room =>
        simp only [Option.bind_eq_bind, Option.bind_eq_some_iff, Option.pure_def,
          Option.some.injEq] at read
        obtain ⟨entries, readEntries, rfl⟩ := read
        refine Json.holds_record.mpr ⟨room, List.forall_mem_map.mpr fun e member => ?_⟩
        obtain ⟨⟨name, j⟩, among, found⟩ := exists_of_mapM readEntries (Table.mem_of_mem_ofList member)
        simp only [Option.bind_eq_some_iff, Option.some.injEq] at found
        obtain ⟨name, -, a, readValue, rfl⟩ := found
        exact agrees.fits j a (allowed.field _ among) readValue
      next => cases read
    | _ => cases read

@[simp] theorem Json.isVoid_table (toJson : α → Json) (t : Table α) :
    (table toJson t).isVoid = true ↔ t = .empty := by
  constructor
  · intro void
    have none : t.entries = [] := by simpa [table, record, isVoid] using void
    exact Table.ext_entries none
  · rintro rfl
    rfl

theorem Json.isPlain_table {toJson : α → Json} (plain : ∀ a, (toJson a).IsPlain) (t : Table α) :
    (table toJson t).IsPlain :=
  isPlain_record (List.forall_mem_map.mpr fun e _ => plain e.2)

end EngineFuzz
