import EngineFuzz.Generator.Basic
import EngineFuzz.Proofs.Builder.Changes
import EngineFuzz.Proofs.Random.Draw

/-!
Skips. Main statement: a generator that is let to skip has left the builder as it was, and one that reports
a skip after a change, wherever it was made, is found out by the two numbers that are compared.
-/

namespace EngineFuzz

namespace Generator

open Build Builder

variable {g : Generator} {b after : Builder} {rng later rest : Rng} {inputs : List Var} {progress : Progress}

/-- Inputs that are drawn are as many as asked for, and each fits its type. -/
theorem fitting_of_resolve {tys : List Ty} (resolved : resolve b tys rng = (some inputs, later)) :
    List.Forall₂ (fun v ty => v ∈ b.visible ty) inputs tys :=
  List.forall₂_map_right_iff.mp (Draw.forall₂_of_pickEach (congrArg Prod.fst resolved))

/-- What a generator does is what its procedure does. -/
theorem runWith_ok (ran : g.runWith inputs b rng = .ok (progress, after, rest)) :
    (g.procedure inputs).run b rng = .ok (progress, after, rest) := by
  unfold runWith at ran
  split at ran
  · split at ran
    · cases ran
    next emitted =>
      cases ran
      exact emitted
    next skipped =>
      split at ran
      · cases ran
        exact skipped
      · cases ran
  · cases ran

/-- Code that a procedure adds is what the generator adds. -/
theorem run_of_emitted (resolved : resolve b g.inputs rng = (some inputs, later))
    (done : (g.procedure inputs).run b later = .ok (.emitted, after, rest)) :
    g.run b rng = .ok (.emitted, after, rest) := by
  have enough : inputs.length = g.inputs.length := (fitting_of_resolve resolved).length_eq
  simp only [run, resolved, runWith, if_pos enough, done]

/-- A skip that a procedure reports is granted if it has changed nothing, and only then. -/
theorem runWith_of_skipped (enough : inputs.length = g.inputs.length)
    (skipped : (g.procedure inputs).run b rng = .ok (.skipped, after, rest)) :
    g.runWith inputs b rng =
      if (g.procedure inputs).changes b rng = 0 then .ok (.skipped, b, rest)
      else .error (.falseSkip g.name) := by
  have changed := run_changed _ skipped
  rw [runWith, if_pos enough, skipped]
  by_cases none : (g.procedure inputs).changes b rng = 0
  · rw [none] at changed
    obtain rfl := changed.eq_of_zero
    rw [if_pos none]
    exact if_pos ⟨rfl, rfl⟩
  · rw [if_neg none]
    exact if_neg fun same => none (changed.size_eq_iff.mp same.1)

theorem eq_of_runWith_skipped (ran : g.runWith inputs b rng = .ok (.skipped, after, rest)) : after = b := by
  have skipped := runWith_ok ran
  have enough : inputs.length = g.inputs.length := by
    by_contra wrong
    rw [runWith, if_neg wrong] at ran
    cases ran
  rw [runWith_of_skipped enough skipped] at ran
  split at ran <;> cases ran
  rfl

theorem runWith_eq_falseSkip_iff (enough : inputs.length = g.inputs.length)
    (skipped : (g.procedure inputs).run b rng = .ok (.skipped, after, rest)) :
    g.runWith inputs b rng = .error (.falseSkip g.name) ↔ 0 < (g.procedure inputs).changes b rng := by
  rw [runWith_of_skipped enough skipped, Nat.pos_iff_ne_zero]
  split
  next none => simp [none]
  next some => simp [some]

/-- What may come of a generator that skips. -/
structure SkipsCleanly (g : Generator) (b : Builder) (rng : Rng) : Prop where
  run : ∀ after rest, g.run b rng = .ok (.skipped, after, rest) → after = b
  runWith : ∀ inputs after rest, g.runWith inputs b rng = .ok (.skipped, after, rest) → after = b
  /-- The numbers of instructions and of variables tell whether there was a change. -/
  counted : ∀ inputs progress after rest, (g.procedure inputs).run b rng = .ok (progress, after, rest) →
    (after.instrs.size = b.instrs.size ∧ after.types.size = b.types.size ↔
      (g.procedure inputs).changes b rng = 0)
  /-- A skip that is reported is refused exactly if there was a change. -/
  refused : ∀ inputs after rest, inputs.length = g.inputs.length →
    (g.procedure inputs).run b rng = .ok (.skipped, after, rest) →
      (g.runWith inputs b rng = .error (.falseSkip g.name) ↔ 0 < (g.procedure inputs).changes b rng)
  /-- The same, for inputs that are drawn. -/
  refusedDrawn : ∀ inputs later after rest, resolve b g.inputs rng = (some inputs, later) →
    (g.procedure inputs).run b later = .ok (.skipped, after, rest) →
      (g.run b rng = .error (.falseSkip g.name) ↔ 0 < (g.procedure inputs).changes b later)

theorem skips_leave_no_trace (g : Generator) (b : Builder) (rng : Rng) : g.SkipsCleanly b rng := by
  constructor
  case run =>
    intro after rest ran
    unfold run at ran
    split at ran
    · exact eq_of_runWith_skipped ran
    · cases ran
      rfl
  case runWith => exact fun inputs after rest => eq_of_runWith_skipped
  case counted =>
    intro inputs progress after rest ran
    have changed := run_changed _ ran
    constructor
    · exact fun same => changed.size_eq_iff.mp same.1
    · intro none
      rw [none] at changed
      obtain rfl := changed.eq_of_zero
      exact ⟨rfl, rfl⟩
  case refused => exact fun inputs after rest => runWith_eq_falseSkip_iff
  case refusedDrawn =>
    intro inputs later after rest resolved skipped
    have enough := (fitting_of_resolve resolved).length_eq
    rw [Generator.run, resolved]
    exact runWith_eq_falseSkip_iff enough skipped

/-- Writes into a loop in a function, and reports that it has done nothing. -/
def buried : Generator where
  name := "BuriedGenerator"
  inputs := [.integer]
  procedure
    | bound :: _ =>
      .functionBlock ⟨[], .anything⟩
        (fun _ => .loopBlock { start := bound, comparison := .lessThan, bound, operator := .add, step := bound }
          (fun index => .binary index .add bound fun _ => .done ()) (.done none))
        fun _ => .done .skipped
    | [] => .done .skipped

def oneInteger : Builder := ((Builder.start .empty).loadInteger 1).2

theorem buried_is_refused :
    (∃ after, (buried.procedure [⟨0⟩]).run oneInteger (.ofSeed 0) = .ok (.skipped, after, .ofSeed 0)) ∧
      (buried.procedure [⟨0⟩]).changes oneInteger (.ofSeed 0) = 3 ∧
      buried.runWith [⟨0⟩] oneInteger (.ofSeed 0) = .error (.falseSkip "BuriedGenerator") := by
  have skipped : ∃ after,
      (buried.procedure [⟨0⟩]).run oneInteger (.ofSeed 0) = .ok (.skipped, after, .ofSeed 0) := ⟨_, rfl⟩
  have changes : (buried.procedure [⟨0⟩]).changes oneInteger (.ofSeed 0) = 3 := rfl
  obtain ⟨after, ran⟩ := skipped
  have refused := (skips_leave_no_trace buried oneInteger (.ofSeed 0)).refused [⟨0⟩] after (.ofSeed 0) rfl ran
  exact ⟨⟨after, ran⟩, changes, refused.mpr (by rw [changes]; decide)⟩

end Generator

end EngineFuzz
