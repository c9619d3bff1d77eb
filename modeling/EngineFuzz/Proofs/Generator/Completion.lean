import EngineFuzz.Proofs.Builder.Offer
import EngineFuzz.Proofs.Generator.Snippet

/-!
Known generators come to their end. Every operand that they use is in scope where they use it, and so no
builder refuses to go on after them, whatever is in it and whatever is drawn. Each lemma on a procedure says
as well when it has nothing to work with.
-/

namespace EngineFuzz

namespace Build

open Builder

variable {α β : Type} {b : Builder} {rng : Rng} {lhs rhs function : Var} {arguments : List Var}

/-- Whether a procedure ends without a misuse, and ends in a way that `post` allows. -/
def Ends (procedure : Build α) (b : Builder) (rng : Rng) (post : α → Builder → Prop) : Prop :=
  ∃ result after rest, procedure.run b rng = .ok (result, after, rest) ∧ post result after

theorem Ends.bind {procedure : Build α} {next : α → Build β} {middle : α → Builder → Prop}
    {post : β → Builder → Prop} (first : procedure.Ends b rng middle)
    (then_ends : ∀ value between later, middle value between → (next value).Ends between later post) :
    (procedure >>= next).Ends b rng post := by
  obtain ⟨value, between, later, ran, holds⟩ := first
  obtain ⟨result, after, rest, done, reached⟩ := then_ends value between later holds
  refine ⟨result, after, rest, ?_, reached⟩
  rw [run_bind, ran]
  exact done

theorem Ends.mono {procedure : Build α} {post weaker : α → Builder → Prop} (ends : procedure.Ends b rng post)
    (weakens : ∀ result after, post result after → weaker result after) : procedure.Ends b rng weaker := by
  obtain ⟨result, after, rest, ran, reached⟩ := ends
  exact ⟨result, after, rest, ran, weakens result after reached⟩

theorem ends_pure {post : α → Builder → Prop} {value : α} (reached : post value b) :
    (pure value : Build α).Ends b rng post := ⟨value, b, rng, rfl, reached⟩

theorem ends_consult {look : Builder → Rng → Except Misuse (α × Rng)} {found : α} {rest : Rng}
    (looked : look b rng = .ok (found, rest)) :
    (consult look .done).Ends b rng fun result after => result = found ∧ after = b := by
  refine ⟨found, b, rest, ?_, rfl, rfl⟩
  simp only [run, looked]

theorem ends_draw (d : Draw α) : (draw d).Ends b rng fun _ after => after = b :=
  ⟨_, b, _, rfl, rfl⟩

theorem ends_pick {γ : Type} (xs : List γ) :
    (draw (Draw.pick xs)).Ends b rng fun found after => after = b ∧ (found = none ↔ xs = []) :=
  ⟨_, b, _, rfl, rfl, Draw.pick_eq_none_iff⟩

theorem ends_addInteger (value : Int64) :
    (addInteger value).Ends b rng fun output after => b.Step (.loadInteger output value) after :=
  ⟨_, _, _, rfl, b.step_loadInteger value⟩

theorem ends_addBuiltin (name : String) :
    (addBuiltin name).Ends b rng fun output after => b.Step (.loadBuiltin output name) after :=
  ⟨_, _, _, rfl, b.step_loadBuiltin name⟩

theorem ends_addBinary (operator : Operator) (left : lhs ∈ b.view.vars) (right : rhs ∈ b.view.vars) :
    (addBinary lhs operator rhs).Ends b rng fun output after =>
      b.Step (.binary output lhs operator rhs) after := by
  have visible : b.checkVisible [lhs, rhs] = .ok () :=
    (checkVisible_eq_ok_iff b _).mpr (by simp [left, right])
  have ran : ∃ output after rest, (addBinary lhs operator rhs).run b rng = .ok (output, after, rest) := by
    simp [addBinary, run, Builder.binary, visible, Bind.bind, Except.bind, Pure.pure, Except.pure]
  obtain ⟨output, after, rest, ran⟩ := ran
  exact ⟨output, after, rest, ran, step_addBinary ran⟩

theorem ends_addCall (callee : function ∈ b.view.vars) (passed : ∀ v ∈ arguments, v ∈ b.view.vars) :
    (addCall function arguments).Ends b rng fun output after =>
      b.Step (.call output function arguments) after := by
  have visible : b.checkVisible (function :: arguments) = .ok () :=
    (checkVisible_eq_ok_iff b _).mpr (List.forall_mem_cons.mpr ⟨callee, passed⟩)
  have ran : ∃ output after rest, (addCall function arguments).run b rng = .ok (output, after, rest) := by
    simp [addCall, run, Builder.call, visible, Bind.bind, Except.bind, Pure.pure, Except.pure]
  obtain ⟨output, after, rest, ran⟩ := ran
  exact ⟨output, after, rest, ran, step_addCall ran⟩

/-- What is given back at the end of a function has to be in scope there. -/
theorem ends_addFunction {signature : Signature} {body : List Var → Build (Option Var)}
    (body_ends : ∀ output params opened, b.Step (.beginFunction output params signature) opened →
      (body params).Ends opened rng fun value written => ∀ v ∈ value, v ∈ written.view.vars) :
    (addFunction signature body).Ends b rng fun _ _ => True := by
  obtain ⟨value, written, rest, ran, inScope⟩ := body_ends _ _ _ (b.step_openFunction signature)
  have closes : ∃ after, written.closeFunction value = .ok after := by
    cases value with
    | none => exact ⟨_, rfl⟩
    | some v =>
      have visible : written.checkVisible [v] = .ok () :=
        (checkVisible_eq_ok_iff written _).mpr (List.forall_mem_singleton.mpr (inScope v rfl))
      simp [closeFunction, visible, Bind.bind, Except.bind, Pure.pure, Except.pure]
  obtain ⟨after, closed⟩ := closes
  refine ⟨(b.openFunction signature).1, after, rest, ?_, trivial⟩
  simp only [addFunction, run, ran, closed]

theorem ends_loopBlock {head : LoopHead} {body : Var → Build Unit}
    (operands : ∀ v ∈ [head.start, head.bound, head.step], v ∈ b.view.vars)
    (body_ends : ∀ index opened, b.Step (.beginFor index head) opened →
      (body index).Ends opened rng fun _ _ => True) :
    (loopBlock head body (.done ())).Ends b rng fun _ _ => True := by
  have visible : b.checkVisible [head.start, head.bound, head.step] = .ok () :=
    (checkVisible_eq_ok_iff b _).mpr operands
  have opens : ∃ index opened, b.openLoop head = .ok (index, opened) := by
    simp [openLoop, visible, Bind.bind, Except.bind, Pure.pure, Except.pure]
  obtain ⟨index, opened, opening⟩ := opens
  obtain ⟨_, written, rest, ran, -⟩ := body_ends index opened (step_openLoop opening)
  refine ⟨(), written.closeLoop, rest, ?_, trivial⟩
  simp only [run, opening, ran]

/-- The three numbers of the head are in scope once they are made, and so is everything else, in the body
as well. -/
theorem ends_addCountingLoop {count : Build Int64} {body : Var → Build Unit}
    (quiet : ∀ b rng, count.Ends b rng fun _ after => after = b)
    (body_ends : ∀ index opened rng, index ∈ opened.view.vars →
      (∀ v ∈ b.view.vars, v ∈ opened.view.vars) → (body index).Ends opened rng fun _ _ => True) :
    (addCountingLoop count body).Ends b rng fun _ _ => True := by
  unfold addCountingLoop
  refine (ends_addInteger 0).bind fun start one _ starting => ?_
  refine (quiet one _).bind fun value same _ unchanged => ?_
  subst unchanged
  refine (ends_addInteger value).bind fun bound two _ bounding => ?_
  refine (ends_addInteger 1).bind fun step three _ stepping => ?_
  have vars : three.view.vars = b.view.vars ++ [start] ++ [bound] ++ [step] := by
    rw [stepping.vars rfl, bounding.vars rfl, starting.vars rfl]
    rfl
  apply ends_loopBlock
  · simp [vars]
  · intro index opened opening
    have inside : opened.view.vars = three.view.vars ++ [index] := opening.vars rfl
    apply body_ends
    · simp [inside]
    · intro v member
      simp [inside, vars, member]

/-- Arguments for a function in scope can be looked for, and those that are found are in scope. -/
theorem ends_pickArguments (callable : function ∈ b.visible .anyFunction) :
    (Build.pickArguments function).Ends b rng fun found after =>
      after = b ∧ (found = none ↔ b.LacksArguments function) ∧
        ∀ arguments ∈ found, b.Picks function arguments := by
  obtain ⟨-, own, typed, -⟩ := mem_visible.mp callable
  have typed := typeOf_eq_ok_iff.mpr typed
  obtain ⟨found, rest, looked⟩ := exists_pickArguments typed rng
  refine (ends_consult looked).mono fun result after same => ?_
  obtain ⟨rfl, unchanged⟩ := same
  refine ⟨unchanged, pickArguments_lacking_iff typed looked, ?_⟩
  rintro arguments rfl
  exact picks_of_pickArguments looked

end Build

namespace Generator

open Build Builder

variable {b : Builder} {inputs : List Var} {lhs rhs function : Var}

theorem integer_ends (rng : Rng) :
    (integer.procedure inputs).Ends b rng fun progress _ => progress = .emitted := by
  simp only [integer]
  refine (ends_draw drawInteger).bind fun value same later unchanged => ?_
  exact (ends_addInteger value).bind fun _ _ _ _ => ends_pure rfl

theorem builtin_ends (rng : Rng) :
    (builtin.procedure inputs).Ends b rng fun progress _ => progress = .skipped ↔ b.builtins.names = [] := by
  simp only [builtin]
  refine (ends_consult rfl).bind fun names same later consulted => ?_
  obtain ⟨rfl, rfl⟩ := consulted
  refine (ends_pick _).bind fun picked unchanged rest found => ?_
  cases picked with
  | none => exact ends_pure (iff_of_true rfl (found.2.mp rfl))
  | some name =>
    refine (ends_addBuiltin name).bind fun _ _ _ _ => ends_pure (iff_of_false (by decide) fun empty => ?_)
    cases found.2.mpr empty

theorem binaryOperation_ends (left : lhs ∈ b.view.vars) (right : rhs ∈ b.view.vars) (rng : Rng) :
    (binaryOperation.procedure [lhs, rhs]).Ends b rng fun progress _ => progress = .emitted := by
  simp only [binaryOperation]
  refine (ends_draw _).bind fun operator same later unchanged => ?_
  subst unchanged
  exact (ends_addBinary operator left right).bind fun _ _ _ _ => ends_pure rfl

/-- The constant and the first parameter are in scope at the end of the function. -/
theorem functionDefinition_ends (rng : Rng) :
    (functionDefinition.procedure inputs).Ends b rng fun progress _ => progress = .emitted := by
  simp only [functionDefinition]
  refine (ends_draw _).bind fun arity same later unchanged => ?_
  refine (ends_draw drawInteger).bind fun value again rest stays => ?_
  refine Ends.bind (ends_addFunction fun output params opened opening => ?_) fun _ _ _ _ => ends_pure rfl
  refine (ends_addInteger value).bind fun constant loaded _ loading => ?_
  have constantInScope : constant ∈ loaded.view.vars := by simp [loading.vars rfl, Instr.outputs]
  cases params with
  | nil => exact ends_pure (by simpa using constantInScope)
  | cons first others =>
    have firstInScope : first ∈ loaded.view.vars := by
      simp [loading.vars rfl, opening.vars rfl, Instr.outputs]
    refine (ends_addBinary .add firstInScope constantInScope).bind fun sum summed _ summing => ?_
    exact ends_pure (by simp [summing.vars rfl, Instr.outputs])

/-- Whatever is done with the arguments that are picked, nothing is done only where there are none. -/
theorem ends_usingArguments {use : List Var → Build Progress} {rng : Rng}
    (callable : function ∈ b.visible .anyFunction)
    (uses : ∀ arguments later, b.Picks function arguments →
      (use arguments).Ends b later fun progress _ => progress = .emitted) :
    (do
      match ← Build.pickArguments function with
      | some arguments => use arguments
      | none => return .skipped : Build Progress).Ends b rng
      fun progress _ => progress = .skipped ↔ b.LacksArguments function := by
  refine (ends_pickArguments callable).bind fun found same later picked => ?_
  obtain ⟨rfl, lacking, picks⟩ := picked
  cases found with
  | none => exact ends_pure (iff_of_true rfl (lacking.mp rfl))
  | some arguments =>
    refine (uses arguments later (picks arguments rfl)).mono fun progress after emitted => ?_
    subst emitted
    refine iff_of_false (by decide) fun lacks => ?_
    cases lacking.mpr lacks

theorem functionCall_ends (callable : function ∈ b.visible .anyFunction) (rng : Rng) :
    (functionCall.procedure [function]).Ends b rng
      fun progress _ => progress = .skipped ↔ b.LacksArguments function := by
  refine ends_usingArguments callable fun arguments later picks => ?_
  have callee := (mem_visible.mp callable).1
  exact (ends_addCall callee picks.inScope).bind fun _ _ _ _ => ends_pure rfl

theorem forLoop_ends (rng : Rng) :
    (forLoop.procedure inputs).Ends b rng fun progress _ => progress = .emitted := by
  simp only [forLoop]
  refine Ends.bind (ends_addCountingLoop (fun _ _ => ends_draw _) fun index opened later inScope _ => ?_)
    fun _ _ _ _ => ends_pure rfl
  exact (ends_addBinary .mul inScope inScope).bind fun _ _ _ _ => ends_pure trivial

/-- What is in scope before the loop is so in its body: the function can be called there. -/
theorem optimizedCall_ends (callable : function ∈ b.visible .anyFunction) (rng : Rng) :
    (optimizedCall.procedure [function]).Ends b rng
      fun progress _ => progress = .skipped ↔ b.LacksArguments function := by
  refine ends_usingArguments callable fun arguments later picks => ?_
  refine Ends.bind (ends_addCountingLoop (fun _ _ => ends_pure rfl) fun index opened _ _ kept => ?_)
    fun _ _ _ _ => ends_pure rfl
  have callee := kept function (mem_visible.mp callable).1
  have passed : ∀ v ∈ arguments, v ∈ opened.view.vars := fun v member => kept v (picks.inScope v member)
  exact (ends_addCall callee passed).bind fun _ _ _ _ => ends_pure trivial

/-- The procedure of a known generator ends if its inputs fit. -/
theorem procedure_ends {g : Generator} (known : g ∈ Generator.known)
    (fitting : List.Forall₂ (fun v ty => v ∈ b.visible ty) inputs g.inputs) (rng : Rng) :
    (g.procedure inputs).Ends b rng fun _ _ => True := by
  have weaken {post : Progress → Builder → Prop} (ends : (g.procedure inputs).Ends b rng post) :
      (g.procedure inputs).Ends b rng fun _ _ => True := ends.mono fun _ _ _ => trivial
  rcases mem_known.mp known with rfl | rfl | rfl | rfl | rfl | rfl | rfl
  · exact weaken (integer_ends rng)
  · exact weaken (builtin_ends rng)
  · obtain ⟨lhs, rhs, rfl, left, right⟩ := exists_pair_of_fitting fitting
    exact weaken (binaryOperation_ends (mem_visible.mp left).1 (mem_visible.mp right).1 rng)
  · exact weaken (functionDefinition_ends rng)
  · obtain ⟨function, rfl, callable⟩ := exists_one_of_fitting fitting
    exact weaken (functionCall_ends callable rng)
  · exact weaken (forLoop_ends rng)
  · obtain ⟨function, rfl, callable⟩ := exists_one_of_fitting fitting
    exact weaken (optimizedCall_ends callable rng)

/-- A known generator runs to its end on every builder. It is never given too few inputs, and when it
reports a skip it has added nothing. -/
theorem run_of_known {g : Generator} (known : g ∈ Generator.known) (b : Builder) (rng : Rng) :
    ∃ progress after rest, g.run b rng = .ok (progress, after, rest) := by
  unfold run
  split
  next inputs later resolved =>
    have fitting := fitting_of_resolve resolved
    obtain ⟨progress, after, rest, done, -⟩ := procedure_ends known fitting later
    unfold runWith
    rw [if_pos fitting.length_eq, done]
    cases progress with
    | emitted => exact ⟨.emitted, after, rest, rfl⟩
    | skipped =>
      have unchanged : after = b := by
        cases procedure_adds known fitting done
        rfl
      subst unchanged
      exact ⟨.skipped, after, rest, if_pos ⟨rfl, rfl⟩⟩
  next rest _ => exact ⟨.skipped, b, rest, rfl⟩

end Generator

end EngineFuzz
