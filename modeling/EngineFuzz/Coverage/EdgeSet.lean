/-!
Sets of coverage edges, kept as ascending lists. The order is the only one a set can have, so sets
with the same members are equal.
-/

namespace EngineFuzz

structure EdgeSet where
  edges : List UInt64
  ascending : edges.Pairwise (· < ·)
deriving DecidableEq

namespace EdgeSet

/-- Puts an edge in its place, unless it is there. -/
def insertInto (edge : UInt64) : List UInt64 → List UInt64
  | [] => [edge]
  | e :: edges =>
    if edge < e then edge :: e :: edges
    else if edge = e then e :: edges
    else e :: insertInto edge edges

theorem mem_insertInto {edge e : UInt64} {edges : List UInt64} :
    e ∈ insertInto edge edges ↔ e = edge ∨ e ∈ edges := by
  induction edges with
  | nil => simp [insertInto]
  | cons first edges ih =>
    simp only [insertInto]
    split
    · simp
    · split
      next same => simp [same]
      · simp only [List.mem_cons, ih]
        constructor
        · rintro (h | h | h) <;> simp [h]
        · rintro (h | h | h) <;> simp [h]

theorem pairwise_insertInto (edge : UInt64) (edges : List UInt64)
    (ascending : edges.Pairwise (· < ·)) : (insertInto edge edges).Pairwise (· < ·) := by
  induction edges with
  | nil => simp [insertInto]
  | cons first edges ih =>
    have ⟨above, rest⟩ := List.pairwise_cons.mp ascending
    simp only [insertInto]
    split
    next before =>
      refine List.pairwise_cons.mpr ⟨fun e member => ?_, ascending⟩
      rcases List.mem_cons.mp member with here | later
      · exact here ▸ before
      · exact UInt64.lt_trans before (above e later)
    next notBefore =>
      split
      · exact ascending
      next different =>
        refine List.pairwise_cons.mpr ⟨fun e member => ?_, ih rest⟩
        rcases mem_insertInto.mp member with new | old
        · rw [new]
          exact Std.lt_of_le_of_ne (UInt64.not_lt.mp notBefore) (Ne.symm different)
        · exact above e old

def empty : EdgeSet := ⟨[], .nil⟩

def insert (set : EdgeSet) (edge : UInt64) : EdgeSet :=
  ⟨insertInto edge set.edges, pairwise_insertInto edge _ set.ascending⟩

/-- The members of a set and of a list. -/
def insertAll (set : EdgeSet) (edges : List UInt64) : EdgeSet := edges.foldl insert set

def ofList (edges : List UInt64) : EdgeSet := empty.insertAll edges

def contains (set : EdgeSet) (edge : UInt64) : Bool := set.edges.contains edge

theorem contains_iff {set : EdgeSet} {edge : UInt64} :
    set.contains edge = true ↔ edge ∈ set.edges := by
  simp [contains]

theorem mem_insert {set : EdgeSet} {edge e : UInt64} :
    e ∈ (set.insert edge).edges ↔ e = edge ∨ e ∈ set.edges := mem_insertInto

theorem mem_insertAll {set : EdgeSet} {edges : List UInt64} {e : UInt64} :
    e ∈ (set.insertAll edges).edges ↔ e ∈ edges ∨ e ∈ set.edges := by
  induction edges generalizing set with
  | nil => simp [insertAll]
  | cons first edges ih =>
    have step : set.insertAll (first :: edges) = (set.insert first).insertAll edges := rfl
    rw [step, ih, mem_insert, List.mem_cons]
    constructor
    · rintro (h | h | h) <;> simp [h]
    · rintro ((h | h) | h) <;> simp [h]

theorem mem_ofList {edges : List UInt64} {e : UInt64} : e ∈ (ofList edges).edges ↔ e ∈ edges := by
  simp [ofList, mem_insertAll, empty]

def size (set : EdgeSet) : Nat := set.edges.length

def isEmpty (set : EdgeSet) : Bool := set.edges.isEmpty

end EdgeSet

end EngineFuzz
