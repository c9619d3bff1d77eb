import EngineFuzz.Proofs.Builder.Moments
import EngineFuzz.Proofs.Builder.WellFormed

/-!
What is in scope while a program is written. Main statement: at every moment of a procedure the builder
shows the variables that the code written so far has put in scope, refuses all others, and is back to
what it showed before once a block is closed.
-/

namespace EngineFuzz

/-- What the code of a program has put in scope at its end. -/
def Program.scope (p : Program) : Scope := Scope.empty.afterAll p.instrs

/-- The complaint about the first of `operands` that the code has not put in scope. -/
def Program.Rejects (p : Program) (operands : List Var) (misuse : Misuse) : Prop :=
  ∃ before v after, operands = before ++ v :: after ∧ (∀ u ∈ before, u ∈ p.scope.vars) ∧
    v ∉ p.scope.vars ∧ misuse = .notVisible v

theorem Program.exists_rejects_iff {p : Program} {operands : List Var} :
    (∃ misuse, p.Rejects operands misuse) ↔ ∃ v ∈ operands, v ∉ p.scope.vars := by
  constructor
  · rintro ⟨misuse, before, v, after, rfl, -, absent, -⟩
    exact ⟨v, by simp, absent⟩
  · rintro ⟨v, member, absent⟩
    have some : (operands.find? fun u => decide (u ∉ p.scope.vars)).isSome :=
      List.find?_isSome.mpr ⟨v, member, decide_eq_true absent⟩
    obtain ⟨first, found⟩ := Option.isSome_iff_exists.mp some
    obtain ⟨missing, before, after, whole, others⟩ := List.find?_eq_some_iff_append.mp found
    have known : ∀ u ∈ before, u ∈ p.scope.vars := fun u earlier => by simpa using others u earlier
    exact ⟨.notVisible first, before, first, after, whole, known, of_decide_eq_true missing, rfl⟩

namespace Builder

variable {b opened written after : Builder} {builtins : Table Ty} {misuse : Misuse}

/-! ### What is shown -/

theorem Precedes.view_eq_scope (met : (start builtins).Precedes b) : b.view = b.program.scope := by
  obtain ⟨instrs, steps⟩ := met
  have code : b.program.instrs = instrs := steps.code
  rw [Program.scope, code]
  exact steps.view

theorem Precedes.numbered (met : (start builtins).Precedes b) : b.Numbered := by
  obtain ⟨instrs, steps⟩ := met
  exact steps.numbered (numbered_start builtins)

theorem Numbered.typed (numbered : b.Numbered) {v : Var} (inScope : v ∈ b.view.vars) :
    ∃ ty, b.typeOf? v = some ty := by
  rw [← of?_types]
  exact exists_type (numbered.subset inScope)

/-- As long as no number comes twice, the variables in scope are in the order of their numbers. -/
theorem Numbered.ascending (numbered : b.Numbered) (few : b.types.size ≤ UInt32.size) :
    b.view.vars.Pairwise fun u v => u.index < v.index := by
  have ordered : ((Var.first b.types.size).map Var.index).Pairwise (· < ·) := by
    rw [Var.map_index_first _ few]
    exact List.pairwise_lt_range
  exact (List.pairwise_map.mp ordered).sublist numbered

theorem Numbered.nodup (numbered : b.Numbered) (few : b.types.size ≤ UInt32.size) : b.inScope.Nodup := by
  rw [inScope_eq_vars]
  exact List.Nodup.sublist numbered (Var.first_nodup _ few)

theorem visible_sublist (b : Builder) (ty : Ty) : (b.visible ty).Sublist b.view.vars := by
  rw [visible, inScope_eq_vars]
  exact List.filter_sublist

/-! ### What is refused -/

theorem checkVisible_eq_error_iff (view : b.view = b.program.scope) {operands : List Var} :
    b.checkVisible operands = .error misuse ↔ b.program.Rejects operands misuse := by
  unfold Program.Rejects
  rw [← view]
  induction operands with
  | nil => simp [checkVisible]
  | cons v operands ih =>
    rw [checkVisible, isVisible, inScope_eq_vars]
    by_cases visible : v ∈ b.view.vars
    · rw [if_pos (List.contains_iff_mem.mpr visible), ih]
      constructor
      · rintro ⟨before, w, rest, rfl, inScope, absent, complaint⟩
        exact ⟨v :: before, w, rest, rfl, List.forall_mem_cons.mpr ⟨visible, inScope⟩, absent, complaint⟩
      · rintro ⟨before, w, rest, whole, inScope, absent, complaint⟩
        cases before with
        | nil =>
          cases whole
          exact absurd visible absent
        | cons first before =>
          cases whole
          exact ⟨before, w, rest, rfl, (List.forall_mem_cons.mp inScope).2, absent, complaint⟩
    · rw [if_neg (fun found => visible (List.contains_iff_mem.mp found))]
      constructor
      · rintro ⟨⟩
        exact ⟨[], v, operands, rfl, by simp, visible, rfl⟩
      · rintro ⟨before, w, rest, whole, inScope, absent, complaint⟩
        cases before with
        | nil =>
          cases whole
          rw [complaint]
        | cons first before =>
          cases whole
          exact absurd (inScope v List.mem_cons_self) visible

/-- Where something is made after a check, nothing but the check can go wrong. -/
theorem bind_pure_eq_error_iff {α : Type} {check : Except Misuse Unit} {made : Unit → α} :
    (check >>= fun checked => pure (made checked)) = .error misuse ↔ check = .error misuse := by
  cases check <;> simp [bind, Except.bind, pure, Except.pure]

theorem binary_eq_error_iff {lhs rhs : Var} {operator : Operator} :
    b.binary lhs operator rhs = .error misuse ↔ b.checkVisible [lhs, rhs] = .error misuse :=
  bind_pure_eq_error_iff

theorem call_eq_error_iff {function : Var} {arguments : List Var} :
    b.call function arguments = .error misuse ↔
      b.checkVisible (function :: arguments) = .error misuse :=
  bind_pure_eq_error_iff

theorem openLoop_eq_error_iff {head : LoopHead} :
    b.openLoop head = .error misuse ↔
      b.checkVisible [head.start, head.bound, head.step] = .error misuse :=
  bind_pure_eq_error_iff

theorem closeFunction_eq_error_iff {value : Option Var} :
    b.closeFunction value = .error misuse ↔ b.checkVisible value.toList = .error misuse := by
  cases value with
  | none => simp [closeFunction, checkVisible, pure, Except.pure]
  | some v => exact bind_pure_eq_error_iff

/-! ### What a block leaves behind -/

theorem view_closeLoop {index : Var} {head : LoopHead} (opening : b.Step (.beginFor index head) opened)
    (body : opened.Grows written) : written.closeLoop.view = b.view := by
  obtain ⟨statements, steps, -⟩ := body
  have inside : written.view.around = b.view.here :: b.view.around := by
    rw [steps.view, Scope.around_flattenAll, opening.view]
    rfl
  have closing : written.Step .endFor written.closeLoop := step_close (.inr rfl)
  rw [closing.view, Scope.after_close (.inr rfl) inside]

/-- Whole statements may add to the block that is being written, and leave all open blocks open. -/
theorem Grows.blocks (grown : b.Grows after) : b.scope <:+ after.scope ∧ after.enclosing = b.enclosing := by
  obtain ⟨statements, steps, -⟩ := grown
  obtain ⟨more, whole⟩ := Scope.afterAll_flattenAll statements b.view
  have view : after.view = { b.view with here := b.view.here ++ more } := steps.view.trans whole
  constructor
  · have here : after.scope.reverse = b.scope.reverse ++ more := congrArg Scope.here view
    rw [← List.reverse_prefix, here]
    exact List.prefix_append _ _
  · have around : after.enclosing.map List.reverse = b.enclosing.map List.reverse :=
      congrArg Scope.around view
    exact List.map_injective_iff.mpr List.reverse_injective around

theorem view_closeFunction {output : Var} {params : List Var} {signature : Signature} {value : Option Var}
    (opening : b.Step (.beginFunction output params signature) opened) (body : opened.Grows written)
    (closed : written.closeFunction value = .ok after) :
    after.view = { b.view with here := b.view.here ++ [output] } := by
  obtain ⟨statements, steps, -⟩ := body
  have inside : (written.view.afterAll (value.toList.map .ret)).around =
      (b.view.here ++ [output]) :: b.view.around := by
    -- What is given back is written before the block is left, and opens and closes nothing.
    have unchanged : (written.view.afterAll (value.toList.map .ret)).around = written.view.around := by
      cases value <;> rfl
    rw [unchanged, steps.view, Scope.around_flattenAll, opening.view]
    rfl
  rw [(steps_closeFunction closed).view, Scope.afterAll_append]
  exact Scope.after_close (.inl rfl) inside

/-- What was in scope is shown as before, for its types have not changed, and what has come into scope
comes after it. -/
theorem visible_append (before : b.Precedes after) (numbered : b.Numbered) {more : List Var}
    (vars : after.view.vars = b.view.vars ++ more) (ty : Ty) :
    after.visible ty = b.visible ty ++ more.filter fun v => (after.typeOf? v).any (·.fits ty) := by
  have same : ∀ v ∈ b.view.vars,
      ((after.typeOf? v).any (·.fits ty)) = ((b.typeOf? v).any (·.fits ty)) := by
    intro v inScope
    obtain ⟨own, typed⟩ := numbered.typed inScope
    rw [typed, before.typeOf?_eq typed]
  rw [visible, visible, inScope_eq_vars, inScope_eq_vars, vars, List.filter_append, List.filter_congr same]

/-! ### Whole blocks -/

theorem loop_eq_error_iff {head : LoopHead} {body : Var → Build Unit} {rng : Rng} :
    (Build.loopBlock head body (.done ())).run b rng = .error misuse ↔
      b.openLoop head = .error misuse ∨
        ∃ index opened, b.openLoop head = .ok (index, opened) ∧
          (body index).run opened rng = .error misuse := by
  cases opening : b.openLoop head with
  | error other => simp [Build.run, opening]
  | ok made =>
    obtain ⟨index, opened⟩ := made
    cases ran : (body index).run opened rng <;> simp [Build.run, opening, ran]

theorem function_eq_error_iff {signature : Signature} {body : List Var → Build (Option Var)} {rng : Rng}
    {output : Var} {params : List Var} (opening : b.openFunction signature = (output, params, opened)) :
    (Build.functionBlock signature body .done).run b rng = .error misuse ↔
      (body params).run opened rng = .error misuse ∨
        ∃ value written rest, (body params).run opened rng = .ok (value, written, rest) ∧
          written.closeFunction value = .error misuse := by
  cases ran : (body params).run opened rng with
  | error other => simp [Build.run, opening, ran]
  | ok outcome =>
    obtain ⟨value, written, rest⟩ := outcome
    cases closing : written.closeFunction value <;> simp [Build.run, opening, ran, closing]

theorem visible_loop (numbered : b.Numbered) {index : Var} {head : LoopHead}
    (opening : b.Step (.beginFor index head) opened) (body : opened.Grows written) (ty : Ty) :
    written.closeLoop.visible ty = b.visible ty := by
  have before := (grows_loop opening body).precedes
  have vars : written.closeLoop.view.vars = b.view.vars ++ [] := by
    rw [view_closeLoop opening body, List.append_nil]
  rw [visible_append before numbered vars, List.filter_nil, List.append_nil]

/-- The variable of a function is the next to be made, and has the type of its signature from then on. -/
theorem typeOf?_function {output : Var} {params : List Var} {signature : Signature}
    (opening : b.Step (.beginFunction output params signature) opened) (few : b.types.size < UInt32.size) :
    output = Var.ofIndex b.types.size ∧ opened.typeOf? output = some signature.ty := by
  have made := Var.length_first b.types.size
  have place : (Var.first opened.types.size)[b.types.size]? = some output := by
    rw [← opening.outputs, List.getElem?_append_right (Nat.le_of_eq made), made, Nat.sub_self]
    rfl
  have next := Var.eq_ofIndex_of_first place
  have number : output.index = b.types.toList.length := by
    rw [Array.length_toList]
    exact (Var.eq_ofIndex_iff few).mp next
  refine ⟨next, ?_⟩
  rw [← of?_types, opening.types, Types.of?, number, Types.added, List.getElem?_append_right (Nat.le_refl _),
    Nat.sub_self]
  rfl

theorem visible_function (numbered : b.Numbered) (few : b.types.size < UInt32.size) {output : Var}
    {params : List Var} {signature : Signature} {value : Option Var}
    (opening : b.Step (.beginFunction output params signature) opened) (body : opened.Grows written)
    (closing : written.closeFunction value = .ok after) :
    output ∉ b.inScope ∧
      ∀ ty, after.visible ty = b.visible ty ++ if signature.ty.fits ty then [output] else [] := by
  obtain ⟨next, typed⟩ := typeOf?_function opening few
  have before := (grows_function opening body closing).precedes
  have typed : after.typeOf? output = some signature.ty :=
    (body.precedes.trans (precedes_of_closeFunction closing)).typeOf?_eq typed
  have vars : after.view.vars = b.view.vars ++ [output] := by
    rw [view_closeFunction opening body closing]
    simp [Scope.vars]
  constructor
  · have fresh := Var.first_nodup (b.types.size + 1) few
    rw [Var.first_succ, List.nodup_append_comm, ← next] at fresh
    rw [inScope_eq_vars]
    exact fun inScope => (List.nodup_cons.mp fresh).1 (numbered.subset inScope)
  · intro ty
    rw [visible_append before numbered vars, List.filter_singleton, typed, Option.any_some, cond_eq_ite]

/-- What a builder shows and refuses, and what its blocks leave behind, judged by the code that it has
written. -/
structure GoesByCode (b : Builder) : Prop where
  typed : ∀ v ∈ b.inScope, ∃ ty, b.typeOf v = .ok ty
  ascending : ∀ ty, (b.visible ty).Pairwise fun u v => u.index < v.index
  visible : ∀ ty v, v ∈ b.visible ty ↔
    v ∈ b.program.scope.vars ∧ ∃ own, b.typeOf v = .ok own ∧ own.fits ty = true
  /-- There is a complaint exactly if an operand is not in scope. -/
  rejects : ∀ operands, (∃ misuse, b.program.Rejects operands misuse) ↔
    ∃ v ∈ operands, v ∉ b.program.scope.vars
  binary : ∀ lhs operator rhs misuse,
    b.binary lhs operator rhs = .error misuse ↔ b.program.Rejects [lhs, rhs] misuse
  call : ∀ function arguments misuse,
    b.call function arguments = .error misuse ↔ b.program.Rejects (function :: arguments) misuse
  /-- A loop goes wrong at its head or in its body. -/
  loop : ∀ head body rng misuse, (Build.loopBlock head body (.done ())).run b rng = .error misuse ↔
    b.program.Rejects [head.start, head.bound, head.step] misuse ∨
      ∃ index opened, b.openLoop head = .ok (index, opened) ∧
        (body index).run opened rng = .error misuse
  /-- A function goes wrong in its body or at what it gives back. -/
  function : ∀ signature body rng misuse output params opened,
    b.openFunction signature = (output, params, opened) →
      ((Build.functionBlock signature body .done).run b rng = .error misuse ↔
        (body params).run opened rng = .error misuse ∨
          ∃ value written rest, (body params).run opened rng = .ok (value, written, rest) ∧
            written.program.Rejects value.toList misuse)
  afterLoop : ∀ head body rng after rest,
    (Build.loopBlock head body (.done ())).run b rng = .ok ((), after, rest) →
      ∀ ty, after.visible ty = b.visible ty
  afterFunction : ∀ signature body rng output after rest,
    (Build.functionBlock signature body .done).run b rng = .ok (output, after, rest) →
      output ∉ b.inScope ∧
        ∀ ty, after.visible ty = b.visible ty ++ if signature.ty.fits ty then [output] else []

end Builder

namespace Build

open Builder

/-- At no moment, in whichever body, is anything in scope but what the code says. -/
theorem moments_goByCode {α : Type} (procedure : Build α) (builtins : Table Ty) (rng : Rng) {b : Builder}
    (moment : b ∈ procedure.moments (.start builtins) rng) (few : b.types.size < UInt32.size) :
    b.GoesByCode := by
  have met := procedure.precedes_of_mem_moments moment
  have view := met.view_eq_scope
  have numbered := met.numbered
  constructor
  case typed =>
    intro v inScope
    rw [inScope_eq_vars] at inScope
    simpa only [typeOf_eq_ok_iff] using numbered.typed inScope
  case ascending => exact fun ty => (numbered.ascending (Nat.le_of_lt few)).sublist (b.visible_sublist ty)
  case visible =>
    intro ty v
    simp only [mem_visible, view, typeOf_eq_ok_iff]
  case rejects => exact fun _ => Program.exists_rejects_iff
  case binary => exact fun _ _ _ _ => binary_eq_error_iff.trans (checkVisible_eq_error_iff view)
  case call => exact fun _ _ _ => call_eq_error_iff.trans (checkVisible_eq_error_iff view)
  case loop =>
    intro head body rng misuse
    rw [loop_eq_error_iff, openLoop_eq_error_iff, checkVisible_eq_error_iff view]
  case function =>
    intro signature body rng misuse output params opened opening
    have met := met.trans (b.step_openFunction signature).precedes
    rw [opening] at met
    simp only [function_eq_error_iff opening, closeFunction_eq_error_iff]
    refine or_congr_right (exists_congr fun value => exists_congr fun written => exists_congr fun rest =>
      and_congr_right fun ran => ?_)
    exact checkVisible_eq_error_iff (met.trans (run_grows _ ran).precedes).view_eq_scope
  case afterLoop =>
    intro head body rng after rest completed
    obtain ⟨index, opened, written, later, opening, wrote, ending⟩ := run_loopBlock_ok completed
    cases ending
    exact visible_loop numbered (step_openLoop opening) (run_grows _ wrote)
  case afterFunction =>
    intro signature body rng output after rest completed
    obtain ⟨value, written, later, closed, wrote, closing, ending⟩ := run_functionBlock_ok completed
    cases ending
    exact visible_function numbered few (b.step_openFunction signature) (run_grows _ wrote) closing

/-- The loop of `nestedBlocks`, before the one instruction in it. -/
def nestedBlocksInside : Builder where
  instrs :=
    #[.loadInteger ⟨0⟩ 1, .beginFunction ⟨1⟩ [⟨2⟩] ⟨[.integer], .anything⟩,
      .beginFor ⟨3⟩ ⟨⟨0⟩, .lessThan, ⟨0⟩, .add, ⟨0⟩⟩]
  types := #[.integer, .function [.integer] .anything, .integer, .integer]
  scope := [⟨3⟩]
  enclosing := [[⟨2⟩], [⟨1⟩, ⟨0⟩]]
  builtins := .empty

theorem nestedBlocksInside_mem_moments :
    nestedBlocksInside ∈ nestedBlocks.moments (.start .empty) (.ofSeed 0) :=
  .tail _ (.tail _ (.tail _ (.head _)))

theorem nestedBlocks_goesByCode :
    nestedBlocksInside ∈ nestedBlocks.moments (.start .empty) (.ofSeed 0) ∧
      nestedBlocksInside.types.size < UInt32.size ∧
      nestedBlocksInside.visible .integer = [⟨0⟩, ⟨2⟩, ⟨3⟩] ∧ nestedBlocksInside.GoesByCode := by
  have moment := nestedBlocksInside_mem_moments
  have few : nestedBlocksInside.types.size < UInt32.size := by decide
  exact ⟨moment, few, by decide, moments_goByCode nestedBlocks .empty (.ofSeed 0) moment few⟩

end Build

end EngineFuzz
