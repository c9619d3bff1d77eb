import EngineFuzz.Proofs.Builder.Step

/-!
What a builder makes is a well-formed program: its blocks are nested, its variables are numbered in
the order of their definition, and nothing is used where it is not in scope. No procedure can bring
about anything else, whichever variables it tries.
-/

namespace EngineFuzz

/-- A program that defines `count` variables, each once and in order, and uses them in scope only. -/
structure Program.IsWellFormed (p : Program) (count : Nat) : Prop where
  nested : p.IsNested
  returns : Program.returnsLast p.instrs = true
  definitions : (p.instrs.flatMap Instr.outputs).map Var.index = List.range count
  operands : p.isScoped = true

namespace Builder

theorem Grows.isNested {builtins : Table Ty} {b : Builder} (grown : (start builtins).Grows b) :
    b.program.IsNested ∧ Program.returnsLast b.program.instrs = true := by
  obtain ⟨statements, steps, last⟩ := grown
  have code : b.program.instrs = Statement.flattenAll statements := steps.code
  exact ⟨⟨statements, congrArg Program.mk code⟩, code ▸ last⟩

theorem Steps.definitions {builtins : Table Ty} {b : Builder} {instrs : List Instr}
    (steps : (start builtins).Steps instrs b) (few : b.types.size ≤ UInt32.size) :
    (b.program.instrs.flatMap Instr.outputs).map Var.index = List.range b.types.size := by
  have code : b.program.instrs = instrs := steps.code
  have outputs : instrs.flatMap Instr.outputs = Var.first b.types.size := steps.outputs
  rw [code, outputs, Var.map_index_first _ few]

theorem Steps.isScoped {builtins : Table Ty} {b : Builder} {instrs : List Instr}
    (steps : (start builtins).Steps instrs b) : b.program.isScoped = true := by
  have code : b.program.instrs = instrs := steps.code
  have inScope : Program.scopedFrom .empty instrs = true := steps.scoped
  rw [Program.isScoped, code, inScope]

end Builder

namespace Build

theorem program_isWellFormed {α : Type} (procedure : Build α) (builtins : Table Ty) {b : Builder}
    {rng rest : Rng} {result : α}
    (completed : procedure.run (.start builtins) rng = .ok (result, b, rest))
    (few : b.types.size < UInt32.size) : b.program.IsWellFormed b.types.size := by
  have grown := procedure.run_grows completed
  have ⟨nested, returns⟩ := grown.isNested
  obtain ⟨statements, steps, -⟩ := grown
  exact { nested, returns, definitions := steps.definitions (Nat.le_of_lt few), operands := steps.isScoped }

/-- A function around a loop around a use of a variable from outside both, and a call. -/
def nestedBlocks : Build Var :=
  .loadInteger 1 fun one =>
    .functionBlock ⟨[.integer], .anything⟩
      (fun params =>
        .loopBlock { start := one, comparison := .lessThan, bound := one, operator := .add, step := one }
          (fun index => .binary index .mul one fun _ => .done ()) (.done params.head?))
      fun function => .call function [one] .done

def nestedBlocksBuilt : Builder where
  instrs :=
    #[.loadInteger ⟨0⟩ 1, .beginFunction ⟨1⟩ [⟨2⟩] ⟨[.integer], .anything⟩,
      .beginFor ⟨3⟩ ⟨⟨0⟩, .lessThan, ⟨0⟩, .add, ⟨0⟩⟩, .binary ⟨4⟩ ⟨3⟩ .mul ⟨0⟩, .endFor, .ret ⟨2⟩,
      .endFunction, .call ⟨5⟩ ⟨1⟩ [⟨0⟩]]
  types := #[.integer, .function [.integer] .anything, .integer, .integer, .integer, .anything]
  scope := [⟨5⟩, ⟨1⟩, ⟨0⟩]
  enclosing := []
  builtins := .empty

theorem nestedBlocks_isWellFormed :
    nestedBlocks.run (.start .empty) (.ofSeed 0) = .ok (⟨5⟩, nestedBlocksBuilt, .ofSeed 0) ∧
      nestedBlocksBuilt.types.size < UInt32.size ∧ nestedBlocksBuilt.program.IsWellFormed 6 := by
  have completed : nestedBlocks.run (.start .empty) (.ofSeed 0) =
      .ok (⟨5⟩, nestedBlocksBuilt, .ofSeed 0) := rfl
  have few : nestedBlocksBuilt.types.size < UInt32.size := by decide
  exact ⟨completed, few, program_isWellFormed nestedBlocks .empty completed few⟩

end Build

end EngineFuzz
