import EngineFuzz.Program.Scope
import EngineFuzz.Program.Tree
import Mathlib.Data.List.Nodup

/-!
The variables of a program by their numbers, and those of them that a scope has. A scope never has a
variable twice, as long as no number comes twice, and a statement as a whole leaves the blocks around it
as they were.
-/

namespace EngineFuzz

namespace Var

/-- The variable that is made when there are `index` of them. -/
def ofIndex (index : Nat) : Var := ⟨index.toUInt32⟩

/-- The first `count` variables to be made. -/
def first (count : Nat) : List Var := (List.range count).map ofIndex

theorem first_succ (count : Nat) : first (count + 1) = first count ++ [ofIndex count] := by
  simp [first, List.range_succ]

theorem length_first (count : Nat) : (first count).length = count := by
  rw [first, List.length_map, List.length_range]

/-- As long as no number comes twice, a variable is known by its number. -/
theorem eq_ofIndex_iff {v : Var} {number : Nat} (few : number < UInt32.size) :
    v = ofIndex number ↔ v.index = number := by
  constructor
  · rintro rfl
    exact Nat.mod_eq_of_lt few
  · rintro rfl
    exact congrArg Var.mk UInt32.ofNat_toNat.symm

theorem eq_ofIndex_of_first {count place : Nat} {v : Var} (there : (first count)[place]? = some v) :
    v = ofIndex place := by
  rw [first, List.getElem?_map, Option.map_eq_some_iff] at there
  obtain ⟨number, found, rfl⟩ := there
  obtain ⟨-, rfl⟩ := List.getElem?_eq_some_iff.mp found
  rw [List.getElem_range]

/-- As long as no number comes twice, the variables have the numbers from zero on. -/
theorem map_index_first (count : Nat) (few : count ≤ UInt32.size) :
    (first count).map index = List.range count := by
  have same : ∀ i ∈ List.range count, (index ∘ ofIndex) i = id i := by
    intro i member
    have below : i < UInt32.size := Nat.lt_of_lt_of_le (List.mem_range.mp member) few
    exact (eq_ofIndex_iff below).mp rfl
  calc
    _ = (List.range count).map (index ∘ ofIndex) := List.map_map
    _ = (List.range count).map id := List.map_congr_left same
    _ = _ := List.map_id _

/-- The first variables stay what they are when there are more. -/
theorem first_sublist {few many : Nat} (fewer : few ≤ many) : (first few).Sublist (first many) :=
  (List.range_sublist.mpr fewer).map ofIndex

theorem first_nodup (count : Nat) (few : count ≤ UInt32.size) : (first count).Nodup := by
  apply List.Nodup.of_map index
  rw [map_index_first count few]
  exact List.nodup_range

/-- After the last number comes the first again. -/
theorem ofIndex_add_size (index : Nat) : ofIndex (index + UInt32.size) = ofIndex index := by
  have same : (index + UInt32.size) % UInt32.size = index % UInt32.size := Nat.add_mod_right ..
  apply congrArg Var.mk
  apply UInt32.toNat_inj.mp
  rw [Nat.toUInt32_eq, Nat.toUInt32_eq, UInt32.toNat_ofNat', UInt32.toNat_ofNat']
  exact same

end Var

namespace Scope

theorem vars_outer_sublist (here outer : List Var) (around : List (List Var)) :
    (Scope.mk outer around).vars.Sublist (Scope.mk here (outer :: around)).vars := by
  have whole : (Scope.mk here (outer :: around)).vars = (Scope.mk outer around).vars ++ here := by
    simp [vars]
  exact whole ▸ List.sublist_append_left _ _

theorem vars_close_sublist (scope : Scope) {instr : Instr}
    (closing : instr = .endFunction ∨ instr = .endFor) :
    (scope.after instr).vars.Sublist scope.vars := by
  cases scope with
  | mk here around =>
    cases around with
    | nil => rcases closing with rfl | rfl <;> exact .refl _
    | cons outer around => rcases closing with rfl | rfl <;> exact vars_outer_sublist here outer around

/-- An instruction that closes no block brings its outputs into scope and takes nothing out. -/
theorem vars_after (scope : Scope) {instr : Instr} (inside : instr.closesBlock = false) :
    (scope.after instr).vars = scope.vars ++ instr.outputs := by
  cases instr with
  | endFunction => cases inside
  | endFor => cases inside
  | _ => simp [vars, after, Instr.outputs, List.append_assoc]

/-- An instruction brings its outputs into scope, or closes a block and takes some variables out. -/
theorem vars_after_sublist (scope : Scope) (instr : Instr) :
    (scope.after instr).vars.Sublist (scope.vars ++ instr.outputs) := by
  cases closing : instr.closesBlock with
  | false =>
    rw [scope.vars_after closing]
  | true =>
    have ending : instr = .endFunction ∨ instr = .endFor := by
      cases instr with
      | endFunction => exact .inl rfl
      | endFor => exact .inr rfl
      | _ => cases closing
    exact (scope.vars_close_sublist ending).trans (List.sublist_append_left _ _)

/-! ### Whole statements -/

theorem afterAll_cons (scope : Scope) (instr : Instr) (instrs : List Instr) :
    scope.afterAll (instr :: instrs) = (scope.after instr).afterAll instrs := rfl

theorem afterAll_append (scope : Scope) (first second : List Instr) :
    scope.afterAll (first ++ second) = (scope.afterAll first).afterAll second :=
  List.foldl_append

theorem after_flat (scope : Scope) {instr : Instr}
    (flat : instr.opensBlock = false ∧ instr.closesBlock = false) :
    scope.after instr = { scope with here := scope.here ++ instr.outputs } := by
  cases instr with
  | beginFunction | beginFor => cases flat.1
  | endFunction | endFor => cases flat.2
  | _ => rfl

/-- The end of a block goes back to the block around it. -/
theorem after_close {scope : Scope} {instr : Instr} {outer : List Var} {around : List (List Var)}
    (closing : instr = .endFunction ∨ instr = .endFor) (inside : scope.around = outer :: around) :
    scope.after instr = ⟨outer, around⟩ := by
  rcases closing with rfl | rfl <;> simp only [after, inside]

mutual

/-- A statement as a whole may bring variables into scope where it stands, and does nothing else. -/
theorem afterAll_flatten : (s : Statement) → (scope : Scope) →
    ∃ more, scope.afterAll s.flatten = { scope with here := scope.here ++ more }
  | .simple instr flat, scope => by
    refine ⟨instr.outputs, ?_⟩
    rw [Statement.flatten, afterAll_cons, after_flat scope flat]
    rfl
  | .function output params signature body, scope => by
    have inside := around_flattenAll body (scope.after (.beginFunction output params signature))
    refine ⟨[output], ?_⟩
    rw [Statement.flatten, afterAll_cons, afterAll_append, afterAll_cons, after_close (.inl rfl) inside]
    rfl
  | .loop index head body, scope => by
    have inside := around_flattenAll body (scope.after (.beginFor index head))
    refine ⟨[], ?_⟩
    rw [Statement.flatten, afterAll_cons, afterAll_append, afterAll_cons, after_close (.inr rfl) inside,
      List.append_nil]
    rfl

theorem afterAll_flattenAll : (ss : List Statement) → (scope : Scope) →
    ∃ more, scope.afterAll (Statement.flattenAll ss) = { scope with here := scope.here ++ more }
  | [], scope => ⟨[], by rw [List.append_nil]; rfl⟩
  | s :: ss, scope => by
    obtain ⟨first, here⟩ := afterAll_flatten s scope
    obtain ⟨others, later⟩ := afterAll_flattenAll ss { scope with here := scope.here ++ first }
    refine ⟨first ++ others, ?_⟩
    rw [Statement.flattenAll, afterAll_append, here, later, List.append_assoc]

theorem around_flattenAll (ss : List Statement) (scope : Scope) :
    (scope.afterAll (Statement.flattenAll ss)).around = scope.around := by
  obtain ⟨more, whole⟩ := afterAll_flattenAll ss scope
  rw [whole]

end

end Scope

end EngineFuzz
