import EngineFuzz.Program.Tree

/-!
Programs put together from parts. Trees written out one after the other are the tree of all their
statements, and a return that ends a function in its part ends it in the whole.
-/

namespace EngineFuzz

namespace Statement

theorem flattenAll_append (first second : List Statement) :
    flattenAll (first ++ second) = flattenAll first ++ flattenAll second := by
  induction first with
  | nil => simp [flattenAll]
  | cons s first ih => simp only [List.cons_append, flattenAll, ih, List.append_assoc]

end Statement

namespace Program

theorem returnsLast_append (first second : List Instr) (firstLast : returnsLast first = true)
    (secondLast : returnsLast second = true) : returnsLast (first ++ second) = true := by
  induction first with
  | nil => exact secondLast
  | cons instr first ih =>
    cases instr with
    | ret value =>
      simp only [returnsLast, Bool.and_eq_true] at firstLast
      cases first with
      | nil => simp at firstLast
      | cons next rest =>
        simp only [List.cons_append, returnsLast, Bool.and_eq_true]
        exact ⟨firstLast.1, ih firstLast.2⟩
    | _ => exact ih firstLast

end Program

end EngineFuzz
