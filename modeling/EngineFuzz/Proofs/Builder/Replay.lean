import EngineFuzz.Proofs.Builder.Moments
import EngineFuzz.Proofs.Builder.WellFormed
import Mathlib.Data.List.Induction

/-!
Types read off a program. Main statement: whoever reads the instructions of a builder from the start, and
knows the globals of the target, finds the type of each variable without the builder; and no variable
ever changes its type.
-/

namespace EngineFuzz

/-- Types with the variables they are given to, in the order in which they are given. -/
abbrev Typing := List (Var × Ty)

namespace Typing

/-- What an instruction gives to the variables that it names, going by the types given so far. -/
def given (builtins : Table Ty) (typing : Typing) : Instr → Typing
  | .loadInteger output _ => [(output, .integer)]
  | .loadBuiltin output name => [(output, (builtins.get? name).getD .anything)]
  | .binary output lhs _ rhs =>
    [(output,
      if typing.lookup lhs = some .integer ∧ typing.lookup rhs = some .integer then .integer else .anything)]
  | .beginFunction output params signature => (output, signature.ty) :: params.zip signature.params
  | .call output function _ =>
    match typing.lookup function with
    | some (.function _ returns) => [(output, returns)]
    | _ => [(output, .anything)]
  | .beginFor index _ => [(index, .integer)]
  | .ret _ | .endFunction | .endFor => []

def afterAll (builtins : Table Ty) (typing : Typing) (instrs : List Instr) : Typing :=
  instrs.foldl (fun typing instr => typing ++ typing.given builtins instr) typing

/-- The types of a whole list, read from its start. -/
def replay (builtins : Table Ty) (instrs : List Instr) : Typing := afterAll builtins [] instrs

/-- The first variables with the types in order. -/
def numbered (types : Types) : Typing := (Var.first types.length).zip types

theorem numbered_concat (types : Types) (ty : Ty) :
    numbered (types ++ [ty]) = numbered types ++ [(Var.ofIndex types.length, ty)] := by
  rw [numbered, List.length_append, List.length_singleton, Var.first_succ,
    List.zip_append (Var.length_first types.length)]
  rfl

/-- As long as no number comes twice, a variable is looked up by its number. -/
theorem lookup_numbered (types : Types) (few : types.length ≤ UInt32.size) (v : Var) :
    (numbered types).lookup v = types.of? v := by
  induction types using List.reverseRecOn with
  | nil => rfl
  | append_singleton types ty ih =>
    rw [List.length_append, List.length_singleton] at few
    rw [numbered_concat, List.lookup_append, ih (Nat.le_of_lt few), Types.of?, Types.of?]
    -- The variable that comes last is none of those before it, for no number comes twice.
    by_cases last : v = Var.ofIndex types.length
    · have number : v.index = types.length := (Var.eq_ofIndex_iff few).mp last
      rw [number, List.getElem?_eq_none (Nat.le_refl _), List.getElem?_concat_length, Option.none_or, last,
        List.lookup_cons_self]
    · have other : v.index ≠ types.length := fun number => last ((Var.eq_ofIndex_iff few).mpr number)
      have absent : List.lookup v [(Var.ofIndex types.length, ty)] = none := by
        rw [List.lookup_cons, beq_false_of_ne last]
        rfl
      have same : (types ++ [ty])[v.index]? = types[v.index]? := by grind
      rw [absent, Option.or_none, same]

theorem given_numbered (builtins : Table Ty) (types : Types) (few : types.length ≤ UInt32.size)
    (instr : Instr) : (numbered types).given builtins instr = instr.outputs.zip (Types.added builtins types instr) := by
  cases instr with
  | call output function arguments =>
    rw [given, lookup_numbered types few, Types.added]
    cases types.of? function with
    | none => rfl
    | some callee => cases callee <;> rfl
  | binary output lhs operator rhs =>
    rw [given, lookup_numbered types few, lookup_numbered types few]
    rfl
  | _ => rfl

end Typing

namespace Builder

variable {b after : Builder} {instrs : List Instr}

theorem Steps.size_le (steps : b.Steps instrs after) : b.types.size ≤ after.types.size := by
  obtain ⟨more, types⟩ := steps.types_append
  have lengths := congrArg List.length types
  rw [Array.length_toList, List.length_append, Array.length_toList] at lengths
  omega

theorem Step.given_numbered {instr : Instr} (step : b.Step instr after)
    (few : b.types.size ≤ UInt32.size) :
    Typing.numbered b.types.toList ++ (Typing.numbered b.types.toList).given b.builtins instr =
      Typing.numbered after.types.toList := by
  rw [Typing.given_numbered _ _ few, Typing.numbered, Typing.numbered, Array.length_toList,
    Array.length_toList, ← step.outputs, step.types]
  exact (List.zip_append (Var.length_first b.types.size)).symm

/-- Read by numbers alone, the types come out in the same order. -/
theorem Steps.types_replayed (steps : b.Steps instrs after) :
    after.types.toList =
      instrs.foldl (fun types instr => types ++ Types.added b.builtins types instr) b.types.toList := by
  induction steps with
  | nil => rfl
  | cons step _ ih => rw [ih, step.builtins, step.types, List.foldl_cons]

theorem Steps.afterAll_numbered (steps : b.Steps instrs after) (few : after.types.size ≤ UInt32.size) :
    Typing.afterAll b.builtins (Typing.numbered b.types.toList) instrs =
      Typing.numbered after.types.toList := by
  induction steps with
  | nil => rfl
  | @cons b middle after instr instrs step rest ih =>
    have sizes := Nat.le_trans step.steps.size_le rest.size_le
    rw [Typing.afterAll, List.foldl_cons, step.given_numbered (Nat.le_trans sizes few), ← step.builtins]
    exact ih few

end Builder

namespace Build

open Builder

/-- What the instructions say of the types is all that there is to know, and it does not change. -/
theorem types_are_replayed {α : Type} (procedure : Build α) (builtins : Table Ty) {b : Builder}
    {rng rest : Rng} {result : α} (completed : procedure.run (.start builtins) rng = .ok (result, b, rest))
    (few : b.types.size < UInt32.size) :
    b.types.toList = Types.replay builtins b.program.instrs ∧
      (∀ v ty, b.typeOf v = .ok ty ↔ (Typing.replay builtins b.program.instrs).lookup v = some ty) ∧
      (procedure.moments (.start builtins) rng).getLast? = some b ∧
      (procedure.moments (.start builtins) rng).Pairwise fun earlier later =>
        ∀ v ty, earlier.typeOf v = .ok ty → later.typeOf v = .ok ty := by
  obtain ⟨statements, steps, -⟩ := procedure.run_grows completed
  have code : b.program.instrs = Statement.flattenAll statements := steps.code
  have enough : b.types.size ≤ UInt32.size := Nat.le_of_lt few
  have typing : Typing.replay builtins b.program.instrs = Typing.numbered b.types.toList :=
    code ▸ steps.afterAll_numbered enough
  refine ⟨code ▸ steps.types_replayed, fun v ty => ?_, procedure.getLast?_moments completed, ?_⟩
  · rw [typing, Typing.lookup_numbered _ enough, of?_types, typeOf_eq_ok_iff]
  · refine (procedure.moments_pairwise _ rng).imp fun before v ty typed => ?_
    rw [typeOf_eq_ok_iff] at typed ⊢
    exact before.typeOf?_eq typed

theorem nestedBlocks_typing :
    nestedBlocks.run (.start .empty) (.ofSeed 0) = .ok (⟨5⟩, nestedBlocksBuilt, .ofSeed 0) ∧
      nestedBlocksBuilt.types.size < UInt32.size ∧
      (Typing.replay .empty nestedBlocksBuilt.program.instrs).lookup ⟨4⟩ = some .integer := by
  have completed : nestedBlocks.run (.start .empty) (.ofSeed 0) =
      .ok (⟨5⟩, nestedBlocksBuilt, .ofSeed 0) := rfl
  have few : nestedBlocksBuilt.types.size < UInt32.size := by decide
  have ⟨_, typed, _⟩ := types_are_replayed nestedBlocks .empty completed few
  exact ⟨completed, few, (typed ⟨4⟩ .integer).mp rfl⟩

end Build

end EngineFuzz
