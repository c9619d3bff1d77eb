import EngineFuzz.Proofs.Builder.Step
import EngineFuzz.Proofs.Program.Typing

/-!
The builders that a procedure passes through, inside its blocks as well as between them. Main statements:
each of them comes by steps of all those before it, and a procedure that comes to its end hands over the
last one.
-/

namespace EngineFuzz

namespace Builder

variable {b middle after : Builder}

/-- Whether some steps lead from one builder to the other. -/
def Precedes (b after : Builder) : Prop := ∃ instrs, b.Steps instrs after

theorem Precedes.refl (b : Builder) : b.Precedes b := ⟨[], .nil b⟩

theorem Precedes.trans (first : b.Precedes middle) (second : middle.Precedes after) : b.Precedes after := by
  obtain ⟨before, steps⟩ := first
  obtain ⟨rest, more⟩ := second
  exact ⟨before ++ rest, steps.append more⟩

theorem Step.precedes {instr : Instr} (step : b.Step instr after) : b.Precedes after :=
  ⟨[instr], step.steps⟩

theorem Grows.precedes (grown : b.Grows after) : b.Precedes after := by
  obtain ⟨statements, steps, -⟩ := grown
  exact ⟨_, steps⟩

theorem precedes_of_closeFunction {value : Option Var} (closed : b.closeFunction value = .ok after) :
    b.Precedes after :=
  ⟨_, steps_closeFunction closed⟩

theorem precedes_closeLoop (b : Builder) : b.Precedes b.closeLoop := (step_close (.inr rfl)).precedes

/-- A variable keeps its type. -/
theorem Precedes.typeOf?_eq (before : b.Precedes after) {v : Var} {ty : Ty}
    (typed : b.typeOf? v = some ty) : after.typeOf? v = some ty := by
  obtain ⟨instrs, steps⟩ := before
  obtain ⟨more, types⟩ := steps.types_append
  rw [← of?_types] at typed ⊢
  rw [types]
  exact Types.of?_append typed more

end Builder

namespace Build

open Builder

/-- The builders that a procedure meets, in order: the one before each of its steps, in the bodies of
blocks too, and the one at its end. After a misuse there are no more. -/
def moments : {α : Type} → Build α → Builder → Rng → List Builder
  | _, done _, b, _ => [b]
  | _, loadInteger value next, b, rng =>
    b :: (next (b.loadInteger value).1).moments (b.loadInteger value).2 rng
  | _, loadBuiltin name next, b, rng =>
    b :: (next (b.loadBuiltin name).1).moments (b.loadBuiltin name).2 rng
  | _, binary lhs operator rhs next, b, rng =>
    b ::
      match b.binary lhs operator rhs with
      | .error _ => []
      | .ok (output, after) => (next output).moments after rng
  | _, call function arguments next, b, rng =>
    b ::
      match b.call function arguments with
      | .error _ => []
      | .ok (output, after) => (next output).moments after rng
  | _, functionBlock signature body next, b, rng =>
    let (output, params, opened) := b.openFunction signature
    b :: ((body params).moments opened rng ++
      match (body params).run opened rng with
      | .error _ => []
      | .ok (value, written, rng) =>
        match written.closeFunction value with
        | .error _ => []
        | .ok closed => (next output).moments closed rng)
  | _, loopBlock head body next, b, rng =>
    b ::
      match b.openLoop head with
      | .error _ => []
      | .ok (index, opened) =>
        (body index).moments opened rng ++
          match (body index).run opened rng with
          | .error _ => []
          | .ok ((), written, rng) => next.moments written.closeLoop rng
  | _, consult look next, b, rng =>
    b ::
      match look b rng with
      | .error _ => []
      | .ok (found, rng) => (next found).moments b rng

variable {α : Type} {b m : Builder} {rng : Rng}

/-- The last builder that is met is the one that is handed over in the end. -/
theorem getLast?_moments (procedure : Build α) {result : α} {after : Builder} {rest : Rng}
    (completed : procedure.run b rng = .ok (result, after, rest)) :
    (procedure.moments b rng).getLast? = some after := by
  induction procedure generalizing b rng with
  | done value =>
    cases completed
    rfl
  | loadInteger value next ih =>
    simp only [run] at completed
    simp only [moments, List.getLast?_cons, ih _ completed, Option.getD_some]
  | loadBuiltin name next ih =>
    simp only [run] at completed
    simp only [moments, List.getLast?_cons, ih _ completed, Option.getD_some]
  | binary lhs operator rhs next ih =>
    simp only [run] at completed
    split at completed
    · cases completed
    next made =>
      simp only [moments, made, List.getLast?_cons, ih _ completed, Option.getD_some]
  | call function arguments next ih =>
    simp only [run] at completed
    split at completed
    · cases completed
    next made =>
      simp only [moments, made, List.getLast?_cons, ih _ completed, Option.getD_some]
  | functionBlock signature body next bodyIh nextIh =>
    obtain ⟨value, written, later, closed, wrote, closing, ending⟩ := run_functionBlock_ok completed
    simp only [moments, wrote, closing, List.getLast?_cons, List.getLast?_append, nextIh _ ending,
      Option.some_or, Option.getD_some]
  | loopBlock head body next bodyIh nextIh =>
    obtain ⟨index, opened, written, later, opening, wrote, ending⟩ := run_loopBlock_ok completed
    simp only [moments, opening, wrote, List.getLast?_cons, List.getLast?_append, nextIh ending,
      Option.some_or, Option.getD_some]
  | consult look next ih =>
    simp only [run] at completed
    split at completed
    · cases completed
    next looked =>
      simp only [moments, looked, List.getLast?_cons, ih _ completed, Option.getD_some]

/-- What is met comes of the first builder. -/
theorem precedes_of_mem_moments (procedure : Build α) (moment : m ∈ procedure.moments b rng) :
    b.Precedes m := by
  induction procedure generalizing b rng with
  | done value =>
    rw [moments, List.mem_singleton] at moment
    exact moment ▸ .refl b
  | loadInteger value next ih =>
    rw [moments, List.mem_cons] at moment
    rcases moment with rfl | later
    · exact .refl m
    · exact (b.step_loadInteger value).precedes.trans (ih _ later)
  | loadBuiltin name next ih =>
    rw [moments, List.mem_cons] at moment
    rcases moment with rfl | later
    · exact .refl m
    · exact (b.step_loadBuiltin name).precedes.trans (ih _ later)
  | binary lhs operator rhs next ih =>
    rw [moments, List.mem_cons] at moment
    rcases moment with rfl | later
    · exact .refl m
    · split at later
      · cases later
      next made => exact (step_binary made).precedes.trans (ih _ later)
  | call function arguments next ih =>
    rw [moments, List.mem_cons] at moment
    rcases moment with rfl | later
    · exact .refl m
    · split at later
      · cases later
      next made => exact (step_call made).precedes.trans (ih _ later)
  | functionBlock signature body next bodyIh nextIh =>
    rw [moments, List.mem_cons, List.mem_append] at moment
    have opening := (b.step_openFunction signature).precedes
    rcases moment with rfl | inside | later
    · exact .refl m
    · exact opening.trans (bodyIh _ inside)
    · split at later
      · cases later
      next wrote =>
        split at later
        · cases later
        next closing =>
          have block := (run_grows _ wrote).precedes.trans (precedes_of_closeFunction closing)
          exact opening.trans (block.trans (nextIh _ later))
  | loopBlock head body next bodyIh nextIh =>
    rw [moments, List.mem_cons] at moment
    rcases moment with rfl | moment
    · exact .refl m
    · split at moment
      · cases moment
      next opened =>
        have opening := (step_openLoop opened).precedes
        rcases List.mem_append.mp moment with inside | later
        · exact opening.trans (bodyIh _ inside)
        · split at later
          · cases later
          next wrote =>
            have block := (run_grows _ wrote).precedes.trans (precedes_closeLoop _)
            exact opening.trans (block.trans (nextIh later))
  | consult look next ih =>
    rw [moments, List.mem_cons] at moment
    rcases moment with rfl | later
    · exact .refl m
    · split at later
      · cases later
      · exact ih _ later

theorem moments_eq_cons (procedure : Build α) (b : Builder) (rng : Rng) :
    procedure.moments b rng = b :: (procedure.moments b rng).tail := by
  cases procedure <;> rw [moments, List.tail_cons]

theorem pairwise_of_tail (procedure : Build α) (later : (procedure.moments b rng).tail.Pairwise Precedes) :
    (procedure.moments b rng).Pairwise Precedes := by
  rw [procedure.moments_eq_cons b rng]
  refine .cons (fun m member => ?_) later
  have moment : m ∈ procedure.moments b rng := List.mem_of_mem_tail member
  exact procedure.precedes_of_mem_moments moment

theorem precedes_last {met : List Builder} (ordered : met.Pairwise Precedes) {last : Builder}
    (ending : met.getLast? = some last) (member : m ∈ met) : m.Precedes last := by
  obtain ⟨before, rfl⟩ := List.getLast?_eq_some_iff.mp ending
  rcases List.mem_append.mp member with earlier | same
  · exact (List.pairwise_append.mp ordered).2.2 m earlier last List.mem_cons_self
  · exact List.mem_singleton.mp same ▸ .refl m

/-- Each builder comes of all those before it: what follows a block comes of its end, which comes of all that
is met in its body. -/
theorem moments_pairwise (procedure : Build α) (b : Builder) (rng : Rng) :
    (procedure.moments b rng).Pairwise Precedes := by
  induction procedure generalizing b rng with
  | done value => exact List.pairwise_singleton ..
  | loadInteger value next ih => exact pairwise_of_tail _ (ih ..)
  | loadBuiltin name next ih => exact pairwise_of_tail _ (ih ..)
  | binary lhs operator rhs next ih =>
    apply pairwise_of_tail
    rw [moments, List.tail_cons]
    split
    · exact .nil
    · exact ih ..
  | call function arguments next ih =>
    apply pairwise_of_tail
    rw [moments, List.tail_cons]
    split
    · exact .nil
    · exact ih ..
  | functionBlock signature body next bodyIh nextIh =>
    apply pairwise_of_tail
    rw [moments, List.tail_cons]
    refine List.pairwise_append.mpr ⟨bodyIh .., ?_, fun inner inside outer later => ?_⟩
    · split
      · exact .nil
      · split
        · exact .nil
        · exact nextIh ..
    · split at later
      · cases later
      next wrote =>
        split at later
        · cases later
        next closing =>
          have block := precedes_last (bodyIh ..) (getLast?_moments _ wrote) inside
          exact block.trans ((precedes_of_closeFunction closing).trans (precedes_of_mem_moments _ later))
  | loopBlock head body next bodyIh nextIh =>
    apply pairwise_of_tail
    rw [moments, List.tail_cons]
    split
    · exact .nil
    · refine List.pairwise_append.mpr ⟨bodyIh .., ?_, fun inner inside outer later => ?_⟩
      · split
        · exact .nil
        · exact nextIh ..
      · split at later
        · cases later
        next wrote =>
          have block := precedes_last (bodyIh ..) (getLast?_moments _ wrote) inside
          exact block.trans ((precedes_closeLoop _).trans (precedes_of_mem_moments _ later))
  | consult look next ih =>
    apply pairwise_of_tail
    rw [moments, List.tail_cons]
    split
    · exact .nil
    · exact ih ..

end Build

end EngineFuzz
