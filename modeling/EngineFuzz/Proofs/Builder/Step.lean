import EngineFuzz.Builder.Build
import EngineFuzz.Proofs.Program.Nesting
import EngineFuzz.Proofs.Program.Scope

/-!
Builders, one instruction at a time. `Builder.Step` says everything that an instruction does to a
builder, in terms of the instruction alone: what comes into scope, which numbers its variables have
and what their types are. Main statement: whatever a procedure does is a list of such steps, and the
instructions of the list are those of a tree.
-/

namespace EngineFuzz

namespace Builder

/-- The variables in scope, block by block, the oldest first in each. -/
def view (b : Builder) : Scope := ⟨b.scope.reverse, b.enclosing.map List.reverse⟩

theorem inScope_eq_vars (b : Builder) : b.inScope = b.view.vars := by
  simp [inScope, view, Scope.vars, List.reverse_flatten]

theorem of?_types (b : Builder) (v : Var) : Types.of? b.types.toList v = b.typeOf? v := by
  simp [Types.of?, typeOf?]

theorem typeOf_eq_ok_iff {b : Builder} {v : Var} {ty : Ty} : b.typeOf v = .ok ty ↔ b.typeOf? v = some ty := by
  rw [typeOf]
  split
  next known => simp [known]
  next unknown => simp [unknown]

theorem mem_visible {b : Builder} {v : Var} {ty : Ty} :
    v ∈ b.visible ty ↔ v ∈ b.view.vars ∧ ∃ own, b.typeOf? v = some own ∧ own.fits ty = true := by
  rw [visible, List.mem_filter, inScope_eq_vars, Option.any_eq_true]

theorem checkVisible_eq_ok_iff (b : Builder) (operands : List Var) :
    b.checkVisible operands = .ok () ↔ ∀ v ∈ operands, v ∈ b.view.vars := by
  induction operands with
  | nil => simp [checkVisible]
  | cons v operands ih =>
    simp only [checkVisible, isVisible, inScope_eq_vars, List.contains_iff_mem, List.forall_mem_cons]
    split
    next visible => simp only [ih, visible, true_and]
    next hidden => simp [hidden]

/-- All that `instr` does to a builder. -/
structure Step (b : Builder) (instr : Instr) (after : Builder) : Prop where
  code : after.program.instrs = b.program.instrs ++ [instr]
  builtins : after.builtins = b.builtins
  types : after.types.toList = b.types.toList ++ Types.added b.builtins b.types.toList instr
  view : after.view = b.view.after instr
  outputs : Var.first b.types.size ++ instr.outputs = Var.first after.types.size
  operands : ∀ v ∈ instr.operands, v ∈ b.view.vars

/-- What is in scope after a step that closes no block. -/
theorem Step.vars {b after : Builder} {instr : Instr} (step : b.Step instr after)
    (inside : instr.closesBlock = false) : after.view.vars = b.view.vars ++ instr.outputs :=
  step.view ▸ b.view.vars_after inside

/-- One step after the other. -/
inductive Steps : Builder → List Instr → Builder → Prop where
  | nil (b : Builder) : Steps b [] b
  | cons {b middle after : Builder} {instr : Instr} {instrs : List Instr}
      (step : b.Step instr middle) (rest : Steps middle instrs after) :
      Steps b (instr :: instrs) after

theorem Step.steps {b after : Builder} {instr : Instr} (step : b.Step instr after) :
    b.Steps [instr] after := .cons step (.nil after)

theorem Steps.append {b middle after : Builder} {first second : List Instr}
    (before : b.Steps first middle) (rest : middle.Steps second after) :
    b.Steps (first ++ second) after := by
  induction before with
  | nil => exact rest
  | cons step _ ih => exact .cons step (ih rest)

/-! ### The steps of a builder -/

/-- An instruction that opens no block and closes none, and whose one variable has type `ty`. -/
theorem step_declare {b : Builder} {instr : Instr} {ty : Ty}
    (output : instr.outputs = [(b.declare ty).1])
    (added : Types.added b.builtins b.types.toList instr = [ty])
    (flat : b.view.after instr = { b.view with here := b.view.here ++ instr.outputs })
    (operands : ∀ v ∈ instr.operands, v ∈ b.view.vars) :
    b.Step instr ((b.declare ty).2.emit instr) where
  code := by simp [program, emit, declare, fresh]
  builtins := rfl
  types := by simp [emit, declare, fresh, added]
  view := by
    rw [flat, output]
    simp [Builder.view, emit, declare, fresh]
  outputs := by
    have size : ((b.declare ty).2.emit instr).types.size = b.types.size + 1 := by
      simp [emit, declare, fresh]
    rw [size, Var.first_succ, output]
    rfl
  operands := operands

theorem step_loadInteger (b : Builder) (value : Int64) :
    b.Step (.loadInteger (b.loadInteger value).1 value) (b.loadInteger value).2 :=
  step_declare rfl rfl rfl (by simp [Instr.operands])

theorem step_loadBuiltin (b : Builder) (name : String) :
    b.Step (.loadBuiltin (b.loadBuiltin name).1 name) (b.loadBuiltin name).2 :=
  step_declare rfl rfl rfl (by simp [Instr.operands])

theorem step_binary {b after : Builder} {lhs output rhs : Var} {operator : Operator}
    (made : b.binary lhs operator rhs = .ok (output, after)) :
    b.Step (.binary output lhs operator rhs) after := by
  cases visible : b.checkVisible [lhs, rhs] with
  | error misuse => simp [binary, visible, bind, Except.bind] at made
  | ok =>
    simp only [binary, visible, bind, Except.bind, pure, Except.pure, Except.ok.injEq,
      Prod.mk.injEq] at made
    obtain ⟨rfl, rfl⟩ := made
    refine step_declare rfl ?_ rfl ((checkVisible_eq_ok_iff b _).mp visible)
    simp [Types.added, of?_types]

theorem step_call {b after : Builder} {output function : Var} {arguments : List Var}
    (made : b.call function arguments = .ok (output, after)) :
    b.Step (.call output function arguments) after := by
  cases visible : b.checkVisible (function :: arguments) with
  | error misuse => simp [call, visible, bind, Except.bind] at made
  | ok =>
    simp only [call, visible, bind, Except.bind, pure, Except.pure, Except.ok.injEq,
      Prod.mk.injEq] at made
    obtain ⟨rfl, rfl⟩ := made
    refine step_declare rfl ?_ rfl ((checkVisible_eq_ok_iff b _).mp visible)
    simp only [Types.added, of?_types, resultType]
    cases b.typeOf? function with
    | none => rfl
    | some ty => cases ty <;> rfl

theorem freshAll_snd (b : Builder) (tys : List Ty) :
    (b.freshAll tys).2 = { b with types := b.types ++ tys.toArray } := by
  induction tys generalizing b with
  | nil => simp [freshAll]
  | cons ty tys ih => simp [freshAll, ih, fresh]

/-- Variables made in a row have numbers in a row. -/
theorem first_freshAll (b : Builder) (tys : List Ty) :
    Var.first b.types.size ++ (b.freshAll tys).1 = Var.first (b.types.size + tys.length) := by
  induction tys generalizing b with
  | nil => simp [freshAll]
  | cons ty tys ih =>
    have later : Var.first b.types.size ++ [Var.ofIndex b.types.size] ++
        ((b.fresh ty).2.freshAll tys).1 = Var.first (b.types.size + 1 + tys.length) := by
      simpa [← Var.first_succ, fresh] using ih (b.fresh ty).2
    have total : b.types.size + (ty :: tys).length = b.types.size + 1 + tys.length := by
      simp only [List.length_cons]
      omega
    rw [total, ← later, List.append_assoc]
    rfl

theorem step_openFunction (b : Builder) (signature : Signature) :
    b.Step (.beginFunction (b.openFunction signature).1 (b.openFunction signature).2.1 signature)
      (b.openFunction signature).2.2 := by
  constructor
  · simp [openFunction, freshAll_snd, program, emit, enter, declare, fresh]
  · simp [openFunction, freshAll_snd, emit, enter, declare, fresh]
  · simp [openFunction, freshAll_snd, emit, enter, declare, fresh, Types.added]
  · simp [openFunction, freshAll_snd, Builder.view, Scope.after, emit, enter, declare, fresh]
  · have size : (b.openFunction signature).2.2.types.size =
        (b.declare signature.ty).2.types.size + signature.params.length := by
      simp [openFunction, freshAll_snd, emit, enter]
    have declared : (b.declare signature.ty).2.types.size = b.types.size + 1 := by
      simp [declare, fresh]
    rw [size, ← first_freshAll, declared, Var.first_succ, List.append_assoc]
    rfl
  · simp [Instr.operands]

/-- Leaving a block, and writing its end. -/
theorem step_close {b : Builder} {instr : Instr} (closing : instr = .endFunction ∨ instr = .endFor) :
    b.Step instr (b.leave.emit instr) := by
  have left : b.leave.program = b.program ∧ b.leave.builtins = b.builtins ∧
      b.leave.types = b.types := by
    unfold leave
    split <;> exact ⟨rfl, rfl, rfl⟩
  have scope : b.leave.view = b.view.after instr := by
    rcases closing with rfl | rfl <;> cases around : b.enclosing <;>
      simp [leave, around, Builder.view, Scope.after]
  have instrs : b.leave.instrs.toList = b.instrs.toList := congrArg Program.instrs left.1
  constructor
  · simp [program, emit, instrs]
  · exact left.2.1
  · rcases closing with rfl | rfl <;> simp [emit, left.2.2, Types.added]
  · exact scope
  · rcases closing with rfl | rfl <;> simp [emit, left.2.2, Instr.outputs]
  · rcases closing with rfl | rfl <;> simp [Instr.operands]

theorem steps_closeFunction {b after : Builder} {value : Option Var}
    (made : b.closeFunction value = .ok after) :
    b.Steps (value.toList.map .ret ++ [.endFunction]) after := by
  cases value with
  | none =>
    simp only [closeFunction, pure, Except.pure, Except.ok.injEq] at made
    exact made ▸ (step_close (.inl rfl)).steps
  | some v =>
    cases visible : b.checkVisible [v] with
    | error misuse => simp [closeFunction, visible, bind, Except.bind] at made
    | ok =>
      simp only [closeFunction, visible, bind, Except.bind, pure, Except.pure,
        Except.ok.injEq] at made
      have returning : b.Step (.ret v) (b.emit (.ret v)) := by
        constructor
        · simp [program, emit]
        · rfl
        · simp [emit, Types.added]
        · simp [Builder.view, emit, Scope.after, Instr.outputs]
        · simp [emit, Instr.outputs]
        · exact (checkVisible_eq_ok_iff b _).mp visible
      exact .cons returning (made ▸ (step_close (.inl rfl)).steps)

theorem step_openLoop {b after : Builder} {head : LoopHead} {index : Var}
    (made : b.openLoop head = .ok (index, after)) : b.Step (.beginFor index head) after := by
  cases visible : b.checkVisible [head.start, head.bound, head.step] with
  | error misuse => simp [openLoop, visible, bind, Except.bind] at made
  | ok =>
    simp only [openLoop, visible, bind, Except.bind, pure, Except.pure, Except.ok.injEq,
      Prod.mk.injEq] at made
    obtain ⟨rfl, rfl⟩ := made
    constructor
    · simp [program, emit, enter, fresh]
    · rfl
    · simp [emit, enter, fresh, Types.added]
    · simp [Builder.view, emit, enter, fresh, Scope.after]
    · have size : (b.types.push .integer).size = b.types.size + 1 := by simp
      simp only [fresh, enter, emit, size, Var.first_succ]
      rfl
    · exact (checkVisible_eq_ok_iff b _).mp visible

/-! ### Many steps -/

variable {b after : Builder} {instrs : List Instr}

theorem Steps.code (steps : b.Steps instrs after) :
    after.program.instrs = b.program.instrs ++ instrs := by
  induction steps with
  | nil => simp
  | cons step _ ih => rw [ih, step.code, List.append_assoc, List.singleton_append]

theorem Steps.view (steps : b.Steps instrs after) : after.view = b.view.afterAll instrs := by
  induction steps with
  | nil => rfl
  | cons step _ ih => rw [ih, step.view, Scope.afterAll, Scope.afterAll, List.foldl_cons]

theorem Steps.outputs (steps : b.Steps instrs after) :
    Var.first b.types.size ++ instrs.flatMap Instr.outputs = Var.first after.types.size := by
  induction steps with
  | nil => simp
  | cons step _ ih => rw [← ih, ← step.outputs, List.flatMap_cons, List.append_assoc]

/-- There are as many more variables as the code makes. -/
theorem Steps.types_size (steps : b.Steps instrs after) :
    after.types.size = b.types.size + (instrs.flatMap Instr.outputs).length := by
  have numbers := congrArg List.length steps.outputs
  rw [List.length_append, Var.length_first, Var.length_first] at numbers
  exact numbers.symm

theorem Steps.builtins (steps : b.Steps instrs after) : after.builtins = b.builtins := by
  induction steps with
  | nil => rfl
  | cons step _ ih => rw [ih, step.builtins]

theorem Steps.scoped (steps : b.Steps instrs after) :
    Program.scopedFrom b.view instrs = true := by
  induction steps with
  | nil => rfl
  | cons step _ ih =>
    rw [step.view] at ih
    simp only [Program.scopedFrom, ih, Bool.and_true, List.all_eq_true, List.contains_iff_mem]
    exact step.operands

/-- Types once given are kept. -/
theorem Steps.types_append (steps : b.Steps instrs after) :
    ∃ more, after.types.toList = b.types.toList ++ more := by
  induction steps with
  | nil => exact ⟨[], (List.append_nil _).symm⟩
  | cons step _ ih =>
    obtain ⟨more, types⟩ := ih
    exact ⟨_, by rw [types, step.types, List.append_assoc]⟩

/-- Every variable that has been made has a type. -/
theorem exists_type {v : Var} (made : v ∈ Var.first b.types.size) :
    ∃ ty, Types.of? b.types.toList v = some ty := by
  obtain ⟨index, below, rfl⟩ := List.mem_map.mp made
  have inside : (Var.ofIndex index).index < b.types.toList.length := by
    have wrapped : (Var.ofIndex index).index ≤ index := Nat.mod_le index _
    rw [Array.length_toList]
    exact Nat.lt_of_le_of_lt wrapped (List.mem_range.mp below)
  exact ⟨_, List.getElem?_eq_getElem inside⟩

theorem Steps.typed (steps : b.Steps instrs after) {v : Var} (made : v ∈ instrs.flatMap Instr.outputs) :
    ∃ ty, Types.of? after.types.toList v = some ty :=
  exists_type (steps.outputs ▸ List.mem_append_right _ made)

/-- Whether the variables in scope are different ones of those made. -/
def Numbered (b : Builder) : Prop := b.view.vars.Sublist (Var.first b.types.size)

theorem numbered_start (builtins : Table Ty) : (start builtins).Numbered := .refl _

theorem Steps.numbered (steps : b.Steps instrs after) (numbered : b.Numbered) : after.Numbered := by
  induction steps with
  | nil => exact numbered
  | @cons b middle after instr instrs step _ ih =>
    apply ih
    have brought : middle.view.vars.Sublist (b.view.vars ++ instr.outputs) :=
      step.view ▸ b.view.vars_after_sublist instr
    have made : (b.view.vars ++ instr.outputs).Sublist (Var.first b.types.size ++ instr.outputs) :=
      numbered.append (.refl _)
    rw [step.outputs] at made
    exact brought.trans made

/-! ### Whole statements -/

open Statement

/-- The steps from `b` to `after` write out a tree, and every return in it ends its function. -/
def Grows (b after : Builder) : Prop :=
  ∃ statements, b.Steps (flattenAll statements) after ∧
    Program.returnsLast (flattenAll statements) = true

theorem Grows.refl (b : Builder) : b.Grows b := ⟨[], .nil b, rfl⟩

theorem Grows.trans {middle : Builder} (first : b.Grows middle) (second : middle.Grows after) :
    b.Grows after := by
  obtain ⟨before, steps, last⟩ := first
  obtain ⟨rest, moreSteps, moreLast⟩ := second
  refine ⟨before ++ rest, ?_, ?_⟩
  · exact flattenAll_append before rest ▸ steps.append moreSteps
  · exact flattenAll_append before rest ▸ Program.returnsLast_append _ _ last moreLast

/-- Whole statements add to the block that is being written, and to no other. -/
theorem Grows.view (grown : b.Grows after) :
    ∃ more, after.view = { b.view with here := b.view.here ++ more } := by
  obtain ⟨statements, steps, -⟩ := grown
  rw [steps.view]
  exact Scope.afterAll_flattenAll statements b.view

theorem Step.grows {instr : Instr} (step : b.Step instr after)
    (flat : instr.opensBlock = false ∧ instr.closesBlock = false)
    (last : Program.returnsLast [instr] = true) : b.Grows after :=
  ⟨[.simple instr flat], step.steps, last⟩

/-- A function whose body is a tree is a tree. What it gives back is its last statement. -/
theorem grows_function {opened written : Builder} {output : Var} {params : List Var}
    {signature : Signature} {value : Option Var}
    (opening : b.Step (.beginFunction output params signature) opened) (body : opened.Grows written)
    (closing : written.closeFunction value = .ok after) : b.Grows after := by
  obtain ⟨statements, steps, last⟩ := body
  let returned : List Statement := value.toList.map fun v => .simple (.ret v) ⟨rfl, rfl⟩
  have flat : flattenAll returned = value.toList.map .ret := by cases value <;> rfl
  have whole : flattenAll [.function output params signature (statements ++ returned)] =
      [.beginFunction output params signature] ++
        (flattenAll statements ++ (value.toList.map .ret ++ [.endFunction])) := by
    simp [flattenAll, flatten, flattenAll_append, flat]
  refine ⟨[.function output params signature (statements ++ returned)], ?_, ?_⟩
  · exact whole ▸ opening.steps.append (steps.append (steps_closeFunction closing))
  · have ending : Program.returnsLast (value.toList.map .ret ++ [.endFunction]) = true := by
      cases value <;> rfl
    exact whole ▸ Program.returnsLast_append _ _ rfl (Program.returnsLast_append _ _ last ending)

theorem grows_loop {opened written : Builder} {index : Var} {head : LoopHead}
    (opening : b.Step (.beginFor index head) opened) (body : opened.Grows written) :
    b.Grows written.closeLoop := by
  obtain ⟨statements, steps, last⟩ := body
  have whole : flattenAll [.loop index head statements] =
      [.beginFor index head] ++ (flattenAll statements ++ [.endFor]) := by
    simp [flattenAll, flatten]
  refine ⟨[.loop index head statements], ?_, ?_⟩
  · exact whole ▸ opening.steps.append (steps.append (step_close (.inr rfl)).steps)
  · exact whole ▸ Program.returnsLast_append _ _ rfl (Program.returnsLast_append _ _ last rfl)

end Builder

namespace Build

open Builder

variable {α : Type} {b after : Builder} {rng rest : Rng} {result : α}

/-- A function that comes to its end: its body does, and it can be closed. -/
theorem run_functionBlock_ok {signature : Signature} {body : List Var → Build (Option Var)}
    {next : Var → Build α}
    (completed : (functionBlock signature body next).run b rng = .ok (result, after, rest)) :
    ∃ value written later closed,
      (body (b.openFunction signature).2.1).run (b.openFunction signature).2.2 rng =
        .ok (value, written, later) ∧
      written.closeFunction value = .ok closed ∧
      (next (b.openFunction signature).1).run closed later = .ok (result, after, rest) := by
  simp only [run] at completed
  split at completed
  · cases completed
  next wrote =>
    split at completed
    · cases completed
    next closing => exact ⟨_, _, _, _, wrote, closing, completed⟩

/-- A loop that comes to its end: it can be opened, and its body comes to its end. -/
theorem run_loopBlock_ok {head : LoopHead} {body : Var → Build Unit} {next : Build α}
    (completed : (loopBlock head body next).run b rng = .ok (result, after, rest)) :
    ∃ index opened written later, b.openLoop head = .ok (index, opened) ∧
      (body index).run opened rng = .ok ((), written, later) ∧
      next.run written.closeLoop later = .ok (result, after, rest) := by
  simp only [run] at completed
  split at completed
  · cases completed
  next opening =>
    split at completed
    · cases completed
    next wrote => exact ⟨_, _, _, _, opening, wrote, completed⟩

/-- Whatever a procedure adds to a program is a tree. -/
theorem run_grows (procedure : Build α)
    (completed : procedure.run b rng = .ok (result, after, rest)) : b.Grows after := by
  induction procedure generalizing b after rng rest with
  | done value =>
    simp only [run, Except.ok.injEq, Prod.mk.injEq] at completed
    exact completed.2.1 ▸ .refl b
  | loadInteger value next ih =>
    exact .trans ((b.step_loadInteger value).grows ⟨rfl, rfl⟩ rfl) (ih _ completed)
  | loadBuiltin name next ih =>
    exact .trans ((b.step_loadBuiltin name).grows ⟨rfl, rfl⟩ rfl) (ih _ completed)
  | binary lhs operator rhs next ih =>
    simp only [run] at completed
    split at completed
    · cases completed
    next made => exact .trans ((step_binary made).grows ⟨rfl, rfl⟩ rfl) (ih _ completed)
  | call function arguments next ih =>
    simp only [run] at completed
    split at completed
    · cases completed
    next made => exact .trans ((step_call made).grows ⟨rfl, rfl⟩ rfl) (ih _ completed)
  | functionBlock signature body next bodyIh nextIh =>
    obtain ⟨value, written, later, closed, wrote, closing, ending⟩ := run_functionBlock_ok completed
    have whole := grows_function (b.step_openFunction signature) (bodyIh _ wrote) closing
    exact whole.trans (nextIh _ ending)
  | loopBlock head body next bodyIh nextIh =>
    obtain ⟨index, opened, written, later, opening, wrote, ending⟩ := run_loopBlock_ok completed
    exact (grows_loop (step_openLoop opening) (bodyIh _ wrote)).trans (nextIh ending)
  | consult look next ih =>
    simp only [run] at completed
    split at completed
    · cases completed
    · exact ih _ completed

end Build

end EngineFuzz
