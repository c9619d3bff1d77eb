import EngineFuzz.Proofs.Builder.Step

/-!
How often a procedure changes the builder. Main statement: each change writes an instruction, and at most
three of them, so that the number of instructions tells whether there was any.
-/

namespace EngineFuzz

namespace Builder

/-- What `count` changes may have made of a builder. A change writes one instruction, or it is a block, which
has a start and an end and may give something back before its end. -/
def Changed (b : Builder) (count : Nat) (after : Builder) : Prop :=
  ∃ instrs, b.Steps instrs after ∧ count ≤ instrs.length ∧ instrs.length ≤ 3 * count

variable {b middle opened written after : Builder} {instr : Instr} {first second count : Nat}

theorem Changed.zero (b : Builder) : b.Changed 0 b := ⟨[], .nil b, Nat.le_refl 0, Nat.le_refl 0⟩

theorem Changed.add (before : b.Changed first middle) (rest : middle.Changed second after) :
    b.Changed (first + second) after := by
  obtain ⟨instrs, steps, atLeast, atMost⟩ := before
  obtain ⟨more, moreSteps, moreAtLeast, moreAtMost⟩ := rest
  refine ⟨instrs ++ more, steps.append moreSteps, ?_, ?_⟩ <;> rw [List.length_append] <;> omega

theorem Step.changed (step : b.Step instr after) : b.Changed 1 after :=
  ⟨[instr], step.steps, Nat.le_refl 1, by simp⟩

/-- A block is one change besides those in its body. -/
theorem changed_block {ending : List Instr} (opening : b.Step instr opened)
    (body : opened.Changed count written) (closing : written.Steps ending after)
    (short : 1 ≤ ending.length ∧ ending.length ≤ 2) : b.Changed (1 + count) after := by
  obtain ⟨instrs, steps, atLeast, atMost⟩ := body
  refine ⟨instr :: (instrs ++ ending), .cons opening (steps.append closing), ?_, ?_⟩ <;>
    rw [List.length_cons, List.length_append] <;> omega

theorem changed_function {output : Var} {params : List Var} {signature : Signature} {value : Option Var}
    (opening : b.Step (.beginFunction output params signature) opened)
    (body : opened.Changed count written) (closed : written.closeFunction value = .ok after) :
    b.Changed (1 + count) after :=
  changed_block opening body (steps_closeFunction closed) (by cases value <;> simp)

theorem changed_loop {index : Var} {head : LoopHead} (opening : b.Step (.beginFor index head) opened)
    (body : opened.Changed count written) : b.Changed (1 + count) written.closeLoop :=
  changed_block opening body (step_close (.inr rfl)).steps (by simp)

/-- Each instruction more is counted. -/
theorem Steps.size {instrs : List Instr} (steps : b.Steps instrs after) :
    after.instrs.size = b.instrs.size + instrs.length := by
  have code := congrArg List.length steps.code
  rwa [List.length_append, program, program, Array.length_toList, Array.length_toList] at code

theorem Changed.size_eq_iff (changed : b.Changed count after) :
    after.instrs.size = b.instrs.size ↔ count = 0 := by
  obtain ⟨instrs, steps, atLeast, atMost⟩ := changed
  have size := steps.size
  omega

/-- Without a change nothing about the builder is different. -/
theorem Changed.eq_of_zero (changed : b.Changed 0 after) : after = b := by
  obtain ⟨instrs, steps, -, atMost⟩ := changed
  obtain rfl := List.length_eq_zero_iff.mp (Nat.le_zero.mp atMost)
  cases steps
  rfl

end Builder

namespace Build

open Builder

/-- How often a procedure changes the builder, in the bodies of blocks too. After a misuse it does so no
more. -/
def changes : {α : Type} → Build α → Builder → Rng → Nat
  | _, done _, _, _ => 0
  | _, loadInteger value next, b, rng =>
    1 + (next (b.loadInteger value).1).changes (b.loadInteger value).2 rng
  | _, loadBuiltin name next, b, rng =>
    1 + (next (b.loadBuiltin name).1).changes (b.loadBuiltin name).2 rng
  | _, binary lhs operator rhs next, b, rng =>
    match b.binary lhs operator rhs with
    | .error _ => 0
    | .ok (output, after) => 1 + (next output).changes after rng
  | _, call function arguments next, b, rng =>
    match b.call function arguments with
    | .error _ => 0
    | .ok (output, after) => 1 + (next output).changes after rng
  | _, functionBlock signature body next, b, rng =>
    let (output, params, opened) := b.openFunction signature
    1 + (body params).changes opened rng +
      match (body params).run opened rng with
      | .error _ => 0
      | .ok (value, written, rng) =>
        match written.closeFunction value with
        | .error _ => 0
        | .ok closed => (next output).changes closed rng
  | _, loopBlock head body next, b, rng =>
    match b.openLoop head with
    | .error _ => 0
    | .ok (index, opened) =>
      1 + (body index).changes opened rng +
        match (body index).run opened rng with
        | .error _ => 0
        | .ok ((), written, rng) => next.changes written.closeLoop rng
  | _, consult look next, b, rng =>
    match look b rng with
    | .error _ => 0
    | .ok (found, rng) => (next found).changes b rng

variable {α : Type} {b after : Builder} {rng rest : Rng} {result : α}

theorem run_changed (procedure : Build α) (completed : procedure.run b rng = .ok (result, after, rest)) :
    b.Changed (procedure.changes b rng) after := by
  induction procedure generalizing b after rng rest with
  | done value =>
    cases completed
    exact .zero b
  | loadInteger value next ih => exact (b.step_loadInteger value).changed.add (ih _ completed)
  | loadBuiltin name next ih => exact (b.step_loadBuiltin name).changed.add (ih _ completed)
  | binary lhs operator rhs next ih =>
    simp only [run] at completed
    split at completed
    · cases completed
    next made =>
      simp only [changes, made]
      exact (step_binary made).changed.add (ih _ completed)
  | call function arguments next ih =>
    simp only [run] at completed
    split at completed
    · cases completed
    next made =>
      simp only [changes, made]
      exact (step_call made).changed.add (ih _ completed)
  | functionBlock signature body next bodyIh nextIh =>
    obtain ⟨value, written, later, closed, wrote, closing, ending⟩ := run_functionBlock_ok completed
    simp only [changes, wrote, closing]
    exact (changed_function (b.step_openFunction signature) (bodyIh _ wrote) closing).add (nextIh _ ending)
  | loopBlock head body next bodyIh nextIh =>
    obtain ⟨index, opened, written, later, opening, wrote, ending⟩ := run_loopBlock_ok completed
    simp only [changes, opening, wrote]
    exact (changed_loop (step_openLoop opening) (bodyIh _ wrote)).add (nextIh ending)
  | consult look next ih =>
    simp only [run] at completed
    split at completed
    · cases completed
    next looked =>
      simp only [changes, looked]
      exact ih _ completed

end Build

end EngineFuzz
