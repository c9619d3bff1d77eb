/-!
Tables from names to values, kept in ascending order of the names. The order is the only one a table
can have, so tables with the same entries are equal.
-/

namespace EngineFuzz

structure Table (α : Type) where
  entries : List (String × α)
  ascending : entries.Pairwise fun a b => a.1 < b.1

namespace Table

variable {α : Type}

/-- Puts an entry in its place, and in the stead of one of the same name. -/
def insertInto (name : String) (value : α) : List (String × α) → List (String × α)
  | [] => [(name, value)]
  | entry :: entries =>
    if name < entry.1 then (name, value) :: entry :: entries
    else if name = entry.1 then (name, value) :: entries
    else entry :: insertInto name value entries

theorem mem_insertInto {name : String} {value : α} {entries : List (String × α)} {e : String × α}
    (member : e ∈ insertInto name value entries) : e = (name, value) ∨ e ∈ entries := by
  induction entries with
  | nil => simpa [insertInto] using member
  | cons entry entries ih =>
    simp only [insertInto] at member
    split at member
    · simpa using member
    · split at member
      · rcases List.mem_cons.mp member with new | old
        · exact .inl new
        · exact .inr (List.mem_cons_of_mem _ old)
      · rcases List.mem_cons.mp member with first | later
        · exact .inr (first ▸ List.mem_cons_self)
        · exact (ih later).imp id (List.mem_cons_of_mem _)

theorem pairwise_insertInto (name : String) (value : α) (entries : List (String × α))
    (ascending : entries.Pairwise fun a b => a.1 < b.1) :
    (insertInto name value entries).Pairwise fun a b => a.1 < b.1 := by
  induction entries with
  | nil => simp [insertInto]
  | cons entry entries ih =>
    have ⟨above, rest⟩ := List.pairwise_cons.mp ascending
    simp only [insertInto]
    split
    next before =>
      refine List.pairwise_cons.mpr ⟨fun e member => ?_, ascending⟩
      rcases List.mem_cons.mp member with first | later
      · exact first ▸ before
      · exact String.lt_trans before (above e later)
    next notBefore =>
      split
      next same => exact List.pairwise_cons.mpr ⟨fun e member => same ▸ above e member, rest⟩
      next different =>
        refine List.pairwise_cons.mpr ⟨fun e member => ?_, ih rest⟩
        rcases mem_insertInto member with new | old
        · rw [new]
          exact Std.lt_of_le_of_ne (String.not_lt.mp notBefore) (Ne.symm different)
        · exact above e old

def empty : Table α := ⟨[], .nil⟩

def insert (table : Table α) (name : String) (value : α) : Table α :=
  ⟨insertInto name value table.entries, pairwise_insertInto name value _ table.ascending⟩

/-- The last entry of a name wins. -/
def ofList (entries : List (String × α)) : Table α :=
  entries.foldl (fun table (name, value) => table.insert name value) empty

def get? (table : Table α) (name : String) : Option α := table.entries.lookup name

theorem lookup_cons (entry : String × α) (entries : List (String × α)) (name : String) :
    (entry :: entries).lookup name = if name = entry.1 then some entry.2 else entries.lookup name := by
  rcases entry with ⟨first, value⟩
  by_cases same : name = first
  · simp [same]
  · simp [List.lookup_cons, beq_false_of_ne same, same]

theorem lookup_insertInto (name other : String) (value : α) (entries : List (String × α)) :
    (insertInto name value entries).lookup other =
      if other = name then some value else entries.lookup other := by
  induction entries with
  | nil => exact lookup_cons (name, value) [] other
  | cons entry entries ih =>
    simp only [insertInto]
    split
    · exact lookup_cons (name, value) _ other
    · split
      next here =>
        rw [lookup_cons, lookup_cons]
        by_cases same : other = name <;> simp [same, ← here]
      next elsewhere =>
        rw [lookup_cons, lookup_cons, ih]
        by_cases found : other = entry.1
        · simp [found, Ne.symm elsewhere]
        · simp [found]

theorem get?_insert (table : Table α) (name other : String) (value : α) :
    (table.insert name value).get? other =
      if other = name then some value else table.get? other :=
  lookup_insertInto name other value table.entries

def names (table : Table α) : List String := table.entries.map (·.1)

end Table

end EngineFuzz
