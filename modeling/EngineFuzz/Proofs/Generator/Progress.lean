import EngineFuzz.Proofs.Generator.Completion
import EngineFuzz.Proofs.Ty.Order

/-!
What comes of the known generators. Main statement: wherever a procedure has got to, each of them runs to its
end. It adds whole statements of one to six instructions, or it skips; and it skips exactly if there is
nothing for it to work with.
-/

namespace EngineFuzz

namespace Generator

open Build Builder Statement

variable {g : Generator} {b after : Builder} {rng later rest : Rng} {inputs : List Var}

/-- Whether a generator runs to its end and reports that it has added nothing. -/
def Skips (g : Generator) (b : Builder) (rng : Rng) : Prop :=
  ∃ after rest, g.run b rng = .ok (.skipped, after, rest)

theorem skips_of_unresolved (unresolved : resolve b g.inputs rng = (none, later)) : g.Skips b rng := by
  refine ⟨b, later, ?_⟩
  rw [run, unresolved]

/-- Once there are inputs it is for the procedure to skip. -/
theorem skips_iff_of_resolved (known : g ∈ Generator.known)
    (resolved : resolve b g.inputs rng = (some inputs, later)) {lacks : Prop}
    (ends : (g.procedure inputs).Ends b later fun progress _ => progress = .skipped ↔ lacks) :
    g.Skips b rng ↔ lacks := by
  obtain ⟨progress, after, rest, ran, skipped_iff⟩ := ends
  have procedure_ran {reported : Progress} {between : Builder} {left : Rng}
      (whole : g.run b rng = .ok (reported, between, left)) : reported = progress := by
    rw [run, resolved] at whole
    cases ran.symm.trans (runWith_ok whole)
    rfl
  rw [← skipped_iff]
  constructor
  · rintro ⟨between, left, whole⟩
    exact (procedure_ran whole).symm
  · rintro rfl
    obtain ⟨reported, between, left, whole⟩ := run_of_known known b rng
    obtain rfl := procedure_ran whole
    exact ⟨between, left, whole⟩

theorem not_skips_of_resolved (known : g ∈ Generator.known)
    (resolved : resolve b g.inputs rng = (some inputs, later))
    (ends : (g.procedure inputs).Ends b later fun progress _ => progress = .emitted) : ¬ g.Skips b rng := by
  refine not_of_iff_false (skips_iff_of_resolved known resolved (ends.mono ?_))
  rintro progress after rfl
  exact iff_of_false (by decide) id

/-! ### What it is skipped for -/

theorem binaryOperation_skips_iff : binaryOperation.Skips b rng ↔ b.visible .integer = [] := by
  cases resolved : resolve b binaryOperation.inputs rng with
  | mk found later =>
    cases found with
    | none =>
      have unresolved : [] ∈ [b.visible .integer, b.visible .integer] :=
        (Draw.pickEach_eq_none_iff _ rng).mp (congrArg Prod.fst resolved)
      have empty : [] = b.visible .integer := by simpa using unresolved
      exact iff_of_true (skips_of_unresolved resolved) empty.symm
    | some inputs =>
      obtain ⟨lhs, rhs, rfl, left, right⟩ := exists_pair_of_fitting (fitting_of_resolve resolved)
      refine iff_of_false (not_skips_of_resolved (by simp [mem_known]) resolved ?_)
        (List.ne_nil_of_mem left)
      exact binaryOperation_ends (mem_visible.mp left).1 (mem_visible.mp right).1 later

/-- A generator that is after a function, and that has arguments for it unless there are none. -/
theorem skips_iff_of_callee (known : g ∈ Generator.known) (one : g.inputs = [.anyFunction])
    (ends : ∀ function ∈ b.visible .anyFunction, ∀ later, (g.procedure [function]).Ends b later
      fun progress _ => progress = .skipped ↔ b.LacksArguments function) :
    g.Skips b rng ↔ b.visible .anyFunction = [] ∨
      ∃ function, (Draw.pick (b.visible .anyFunction) rng).1 = some function ∧
        b.LacksArguments function := by
  have drawn := Draw.pickEach_singleton (b.visible .anyFunction) rng
  cases picked : Draw.pick (b.visible .anyFunction) rng with
  | mk found later =>
    rw [picked] at drawn
    cases found with
    | none =>
      have resolved : resolve b g.inputs rng = (none, later) := by
        rw [one]
        exact drawn
      have empty := Draw.pick_eq_none_iff.mp (congrArg Prod.fst picked)
      exact iff_of_true (skips_of_unresolved resolved) (.inl empty)
    | some function =>
      have resolved : resolve b g.inputs rng = (some [function], later) := by
        rw [one]
        exact drawn
      have callable : function ∈ b.visible .anyFunction := Draw.mem_of_pick (congrArg Prod.fst picked)
      rw [skips_iff_of_resolved known resolved (ends function callable later)]
      simp [List.ne_nil_of_mem callable]

/-! ### What is added -/

theorem emitted_of_known (known : g ∈ Generator.known) (ran : g.run b rng = .ok (.emitted, after, rest)) :
    ∃ statements, after.program.instrs = b.program.instrs ++ flattenAll statements ∧
      1 ≤ (flattenAll statements).length ∧ (flattenAll statements).length ≤ 6 := by
  obtain ⟨impossible, -⟩ | ⟨inputs, later, fitting, done⟩ := run_ok ran
  · cases impossible
  obtain ⟨statements, steps, -⟩ := run_grows _ done
  cases procedure_adds known fitting done with
  | @code instrs _ snippet snippetSteps =>
    have same : instrs = flattenAll statements :=
      List.append_cancel_left (snippetSteps.code.symm.trans steps.code)
    exact ⟨statements, steps.code, same ▸ snippet.length⟩

end Generator

namespace Builder

open Generator Statement

variable {b : Builder} {function : Var}

theorem visible_eq_nil_iff (view : b.view = b.program.scope) {ty : Ty} :
    b.visible ty = [] ↔ ∀ v ∈ b.program.scope.vars, ∀ own, b.typeOf v = .ok own → own.fits ty = false := by
  simp only [List.eq_nil_iff_forall_not_mem, mem_visible, view, typeOf_eq_ok_iff, not_and, not_exists,
    Bool.not_eq_true]

theorem lacksArguments_iff (view : b.view = b.program.scope) :
    b.LacksArguments function ↔
      ∃ signature : Signature, b.typeOf function = .ok signature.ty ∧ ∃ param ∈ signature.params,
        ∀ v ∈ b.program.scope.vars, ∀ ty, b.typeOf v = .ok ty → ty.fits param = true → v = function := by
  simp only [LacksArguments, mem_visible, view, typeOf_eq_ok_iff, and_imp, forall_exists_index]

/-- What may come of the known generators, judged by the code that is there. -/
structure ServesKnown (b : Builder) (rng : Rng) : Prop where
  ends : ∀ g ∈ Generator.known, ∃ progress after rest, g.run b rng = .ok (progress, after, rest)
  emitted : ∀ g ∈ Generator.known, ∀ after rest, g.run b rng = .ok (.emitted, after, rest) →
    ∃ statements, after.program.instrs = b.program.instrs ++ flattenAll statements ∧
      1 ≤ (flattenAll statements).length ∧ (flattenAll statements).length ≤ 6
  /-- The block that is being written may have got more variables. All blocks around it are as they were. -/
  blocks : ∀ g ∈ Generator.known, ∀ after rest, g.run b rng = .ok (.emitted, after, rest) →
    b.scope <:+ after.scope ∧ after.enclosing = b.enclosing
  unfailing : ∀ g ∈ [integer, functionDefinition, forLoop], ¬ g.Skips b rng
  builtin : Generator.builtin.Skips b rng ↔ b.builtins.names = []
  binaryOperation : Generator.binaryOperation.Skips b rng ↔
    ∀ v ∈ b.program.scope.vars, b.typeOf v ≠ .ok .integer
  /-- A call needs a function, and for each parameter something else that fits. -/
  call : ∀ g ∈ [functionCall, optimizedCall], g.Skips b rng ↔
    (∀ v ∈ b.program.scope.vars, ∀ ty, b.typeOf v = .ok ty → ty.isFunction = false) ∨
      ∃ function, (Draw.pick (b.visible .anyFunction) rng).1 = some function ∧
        ∃ signature : Signature, b.typeOf function = .ok signature.ty ∧ ∃ param ∈ signature.params,
          ∀ v ∈ b.program.scope.vars, ∀ ty, b.typeOf v = .ok ty → ty.fits param = true → v = function

end Builder

namespace Build

open Builder Generator

/-- At every moment of every procedure, inside its blocks as well, whatever the generators draw. -/
theorem moments_serve_known {α : Type} (procedure : Build α) (builtins : Table Ty) (start rng : Rng)
    {b : Builder} (moment : b ∈ procedure.moments (.start builtins) start) : b.ServesKnown rng := by
  have view := (procedure.precedes_of_mem_moments moment).view_eq_scope
  constructor
  case ends => exact fun g known => run_of_known known b rng
  case emitted => exact fun g known after rest => emitted_of_known known
  case blocks =>
    intro g known after rest ran
    obtain ⟨impossible, -⟩ | ⟨inputs, later, -, done⟩ := run_ok ran
    · cases impossible
    · exact (run_grows _ done).blocks
  case unfailing =>
    simp only [List.forall_mem_cons]
    refine ⟨?_, ?_, ?_, List.forall_mem_nil _⟩
    · exact not_skips_of_resolved (by simp [mem_known]) rfl (integer_ends rng)
    · exact not_skips_of_resolved (by simp [mem_known]) rfl (functionDefinition_ends rng)
    · exact not_skips_of_resolved (by simp [mem_known]) rfl (forLoop_ends rng)
  case builtin => exact skips_iff_of_resolved (by simp [mem_known]) rfl (builtin_ends rng)
  case binaryOperation =>
    rw [binaryOperation_skips_iff, visible_eq_nil_iff view]
    simp only [← Bool.not_eq_true, Ty.fits_integer_iff]
    constructor
    · exact fun others v inScope typed => others v inScope .integer typed rfl
    · rintro others v inScope own typed rfl
      exact others v inScope typed
  case call =>
    have functions (own : Ty) : own.fits .anyFunction = false ↔ own.isFunction = false := by
      rw [← Bool.not_eq_true, Ty.fits_anyFunction_iff, Bool.not_eq_true]
    simp only [← functions, ← visible_eq_nil_iff view, ← lacksArguments_iff view, List.forall_mem_cons]
    refine ⟨?_, ?_, List.forall_mem_nil _⟩
    · exact skips_iff_of_callee (by simp [mem_known]) rfl fun function => functionCall_ends
    · exact skips_iff_of_callee (by simp [mem_known]) rfl fun function => optimizedCall_ends

/-- In the loop there are integers, but no builtins. -/
theorem nestedBlocks_serve_known :
    nestedBlocksInside ∈ nestedBlocks.moments (.start .empty) (.ofSeed 0) ∧
      nestedBlocksInside.ServesKnown (.ofSeed 1) ∧
      Generator.builtin.Skips nestedBlocksInside (.ofSeed 1) ∧
      ¬ Generator.binaryOperation.Skips nestedBlocksInside (.ofSeed 1) := by
  have moment := nestedBlocksInside_mem_moments
  have serves := moments_serve_known nestedBlocks .empty (.ofSeed 0) (.ofSeed 1) moment
  refine ⟨moment, serves, serves.builtin.mpr rfl, fun skips => ?_⟩
  have integer : nestedBlocksInside.typeOf ⟨0⟩ = .ok .integer := rfl
  exact serves.binaryOperation.mp skips ⟨0⟩ (by decide) integer

end Build

end EngineFuzz
