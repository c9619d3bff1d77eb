import EngineFuzz.Profile.Known
import EngineFuzz.Proofs.Builder.Arguments
import EngineFuzz.Proofs.Generator.Skip

/-!
What the known generators do. Each of them adds a snippet of one of few forms, or nothing at all. The
parts that procedures are made of are opened up one by one, and the generators put together from them.
-/

namespace EngineFuzz

/-- A loop that counts by ones. -/
def countingLoop (start bound step index : Var) (count : Int64) (body : List Instr) : List Instr :=
  [.loadInteger start 0, .loadInteger bound count, .loadInteger step 1,
    .beginFor index { start, comparison := .lessThan, bound, operator := .add, step }] ++
  (body ++ [.endFor])

/-- The code that a known generator may add to `b`. -/
inductive Snippet (b : Builder) : List Instr → Prop where
  | integer (output : Var) (value : Int64) (drawn : ∃ rng, value = (Generator.drawInteger rng).1) :
      Snippet b [.loadInteger output value]
  | builtin (output : Var) (name : String) : Snippet b [.loadBuiltin output name]
  | binary (output lhs rhs : Var) (operator : Operator) : Snippet b [.binary output lhs operator rhs]
  | constantFunction (output constant : Var) (arity : Nat) (params : List Var) (value : Int64)
      (drawn : ∃ rng, value = (Generator.drawInteger rng).1) :
      Snippet b
        [.beginFunction output params ⟨List.replicate arity .anything, .anything⟩,
          .loadInteger constant value, .ret constant, .endFunction]
  | sumFunction (output first constant sum : Var) (arity : Nat) (params : List Var) (value : Int64)
      (drawn : ∃ rng, value = (Generator.drawInteger rng).1) :
      Snippet b
        [.beginFunction output params ⟨List.replicate arity .anything, .anything⟩,
          .loadInteger constant value, .binary sum first .add constant, .ret sum, .endFunction]
  | call (output function : Var) (arguments : List Var) (callable : function ∈ b.visible .anyFunction)
      (picks : b.Picks function arguments) : Snippet b [.call output function arguments]
  | loop (start bound step index square : Var) (count : Int64)
      (drawn : ∃ offset : Fin 16, count = Int64.ofInt (1 + offset.val)) :
      Snippet b (countingLoop start bound step index count [.binary square index .mul index])
  | callLoop (start bound step index output function : Var) (arguments : List Var)
      (callable : function ∈ b.visible .anyFunction) (picks : b.Picks function arguments) :
      Snippet b (countingLoop start bound step index 100 [.call output function arguments])

/-- A loop has four instructions before its body and one after it, and every other snippet is shorter. -/
theorem Snippet.length {b : Builder} {instrs : List Instr} (snippet : Snippet b instrs) :
    1 ≤ instrs.length ∧ instrs.length ≤ 6 := by
  cases snippet <;> simp [countingLoop]

/-- What a known generator makes of `b`. -/
inductive Adds (b : Builder) : Progress → Builder → Prop where
  | nothing : Adds b .skipped b
  | code {instrs : List Instr} {after : Builder} (snippet : Snippet b instrs) (steps : b.Steps instrs after) :
      Adds b .emitted after

namespace Build

open Builder

variable {α β : Type} {b after : Builder} {rng rest : Rng} {output : Var}

theorem run_bind (procedure : Build α) (next : α → Build β) (b : Builder) (rng : Rng) :
    (procedure >>= next).run b rng =
      match procedure.run b rng with
      | .error misuse => .error misuse
      | .ok (result, after, rest) => (next result).run after rest := by
  have same : procedure >>= next = procedure.bind next := rfl
  rw [same]
  induction procedure generalizing b rng with
  | done value => rfl
  | loadInteger value more ih => exact ih _ next _ _ rfl
  | loadBuiltin name more ih => exact ih _ next _ _ rfl
  | binary lhs operator rhs more ih =>
    simp only [bind, run]
    split
    · rfl
    · exact ih _ next _ _ rfl
  | call function arguments more ih =>
    simp only [bind, run]
    split
    · rfl
    · exact ih _ next _ _ rfl
  | functionBlock signature body more _ ih =>
    simp only [bind, run]
    split
    · rfl
    · split
      · rfl
      · exact ih _ next _ _ rfl
  | loopBlock head body more _ ih =>
    simp only [bind, run]
    split
    · rfl
    · split
      · rfl
      · exact ih next _ _ rfl
  | consult look more ih =>
    simp only [bind, run]
    split
    · rfl
    · exact ih _ next _ _ rfl

/-- What runs to its end did so part by part. -/
theorem run_bind_ok {procedure : Build α} {next : α → Build β} {result : β}
    (ran : (procedure >>= next).run b rng = .ok (result, after, rest)) :
    ∃ value middle later, procedure.run b rng = .ok (value, middle, later) ∧
      (next value).run middle later = .ok (result, after, rest) := by
  rw [run_bind] at ran
  split at ran
  · cases ran
  next value middle later first => exact ⟨value, middle, later, first, ran⟩

theorem run_consult_ok {look : Builder → Rng → Except Misuse (α × Rng)} {found : α}
    (ran : (consult look .done).run b rng = .ok (found, after, rest)) :
    after = b ∧ look b rng = .ok (found, rest) := by
  simp only [run] at ran
  split at ran
  · cases ran
  next looked =>
    cases ran
    exact ⟨rfl, looked⟩

/-- What a draw gives, and leaves of the stream, is the draw's result on the stream as it stood. -/
theorem run_draw_ok {d : Draw α} {found : α} (ran : (draw d).run b rng = .ok (found, after, rest)) :
    after = b ∧ found = (d rng).1 ∧ rest = (d rng).2 := by
  obtain ⟨same, looked⟩ := run_consult_ok ran
  have drawn : d rng = (found, rest) := Except.ok.inj looked
  exact ⟨same, (congrArg Prod.fst drawn).symm, (congrArg Prod.snd drawn).symm⟩

theorem step_addInteger {value : Int64}
    (ran : (addInteger value).run b rng = .ok (output, after, rest)) :
    b.Step (.loadInteger output value) after := by
  cases ran
  exact b.step_loadInteger value

theorem rest_addInteger {value : Int64} (ran : (addInteger value).run b rng = .ok (output, after, rest)) :
    rest = rng := by
  cases ran
  rfl

theorem step_addBuiltin {name : String}
    (ran : (addBuiltin name).run b rng = .ok (output, after, rest)) :
    b.Step (.loadBuiltin output name) after := by
  cases ran
  exact b.step_loadBuiltin name

theorem step_addBinary {lhs rhs : Var} {operator : Operator}
    (ran : (addBinary lhs operator rhs).run b rng = .ok (output, after, rest)) :
    b.Step (.binary output lhs operator rhs) after := by
  simp only [addBinary, run] at ran
  split at ran
  · cases ran
  next made =>
    cases ran
    exact step_binary made

theorem rest_addBinary {lhs rhs : Var} {operator : Operator}
    (ran : (addBinary lhs operator rhs).run b rng = .ok (output, after, rest)) : rest = rng := by
  simp only [addBinary, run] at ran
  split at ran
  · cases ran
  · cases ran
    rfl

theorem step_addCall {function : Var} {arguments : List Var}
    (ran : (addCall function arguments).run b rng = .ok (output, after, rest)) :
    b.Step (.call output function arguments) after := by
  simp only [addCall, run] at ran
  split at ran
  · cases ran
  next made =>
    cases ran
    exact step_call made

theorem rest_addCall {function : Var} {arguments : List Var}
    (ran : (addCall function arguments).run b rng = .ok (output, after, rest)) : rest = rng := by
  simp only [addCall, run] at ran
  split at ran
  · cases ran
  · cases ran
    rfl

theorem run_addFunction_ok {signature : Signature} {body : List Var → Build (Option Var)}
    (ran : (addFunction signature body).run b rng = .ok (output, after, rest)) :
    ∃ params opened value written, b.Step (.beginFunction output params signature) opened ∧
      (body params).run opened rng = .ok (value, written, rest) ∧
      written.Steps (value.toList.map .ret ++ [.endFunction]) after := by
  obtain ⟨value, written, later, closed, wrote, closing, ending⟩ := run_functionBlock_ok ran
  cases ending
  exact ⟨_, _, value, written, b.step_openFunction signature, wrote, steps_closeFunction closing⟩

/-- A loop whose count is settled without a change to the program. The stream that is left is the one that
its body starts with. -/
theorem run_addCountingLoop_ok {count : Build Int64} {settled : Int64 → Rng → Prop} {body : Var → Build Unit}
    (quiet : ∀ b value after later, count.run b rng = .ok (value, after, later) →
      after = b ∧ settled value later)
    (ran : (addCountingLoop count body).run b rng = .ok ((), after, rest)) :
    ∃ start bound step index value opened later written, settled value later ∧
      b.Steps [.loadInteger start 0, .loadInteger bound value, .loadInteger step 1,
        .beginFor index { start, comparison := .lessThan, bound, operator := .add, step }] opened ∧
      (body index).run opened later = .ok ((), written, rest) ∧ written.Step .endFor after := by
  unfold addCountingLoop at ran
  obtain ⟨start, one, _, startRan, restRan⟩ := run_bind_ok ran
  obtain ⟨value, same, _, countRan, restRan⟩ := run_bind_ok restRan
  obtain rfl := rest_addInteger startRan
  obtain ⟨unchanged, small⟩ := quiet _ _ _ _ countRan
  obtain ⟨bound, two, _, boundRan, restRan⟩ := run_bind_ok restRan
  obtain ⟨step, three, _, stepRan, loopRan⟩ := run_bind_ok restRan
  obtain rfl := rest_addInteger boundRan
  obtain rfl := rest_addInteger stepRan
  obtain ⟨index, opened, written, later, opening, bodyRan, ending⟩ := run_loopBlock_ok loopRan
  cases ending
  refine ⟨start, bound, step, index, value, opened, _, written, small, ?_, bodyRan, ?_⟩
  · subst unchanged
    exact .cons (step_addInteger startRan) (.cons (step_addInteger boundRan)
      (.cons (step_addInteger stepRan) (step_openLoop opening).steps))
  · exact step_close (.inr rfl)

end Build

namespace Generator

open Build

variable {b after : Builder} {rng rest : Rng} {inputs : List Var} {progress : Progress}

theorem integer_adds (ran : (integer.procedure inputs).run b rng = .ok (progress, after, rest)) :
    Adds b progress after := by
  simp only [integer] at ran
  obtain ⟨value, same, _, drawRan, addRan⟩ := run_bind_ok ran
  obtain ⟨output, added, _, intRan, doneRan⟩ := run_bind_ok addRan
  obtain ⟨rfl, drawn, -⟩ := run_draw_ok drawRan
  cases doneRan
  exact .code (.integer output value ⟨_, drawn⟩) (step_addInteger intRan).steps

theorem builtin_adds (ran : (builtin.procedure inputs).run b rng = .ok (progress, after, rest)) :
    Adds b progress after := by
  simp only [builtin] at ran
  obtain ⟨names, same, _, namesRan, pickRan⟩ := run_bind_ok ran
  obtain ⟨picked, unchanged, _, drawRan, addRan⟩ := run_bind_ok pickRan
  obtain ⟨rfl, -⟩ := run_consult_ok namesRan
  obtain ⟨rfl, -⟩ := run_consult_ok drawRan
  cases picked with
  | none =>
    cases addRan
    exact .nothing
  | some name =>
    obtain ⟨output, added, _, loadRan, doneRan⟩ := run_bind_ok addRan
    cases doneRan
    exact .code (.builtin output name) (step_addBuiltin loadRan).steps

theorem binaryOperation_adds
    (ran : (binaryOperation.procedure inputs).run b rng = .ok (progress, after, rest)) :
    Adds b progress after := by
  simp only [binaryOperation] at ran
  split at ran
  next lhs rhs =>
    obtain ⟨operator, same, _, drawRan, addRan⟩ := run_bind_ok ran
    obtain ⟨output, added, _, binaryRan, doneRan⟩ := run_bind_ok addRan
    obtain ⟨rfl, -⟩ := run_consult_ok drawRan
    cases doneRan
    exact .code (.binary output lhs rhs operator) (step_addBinary binaryRan).steps
  · cases ran
    exact .nothing

theorem functionDefinition_adds
    (ran : (functionDefinition.procedure inputs).run b rng = .ok (progress, after, rest)) :
    Adds b progress after := by
  simp only [functionDefinition] at ran
  obtain ⟨arity, same, _, arityRan, valueRan⟩ := run_bind_ok ran
  obtain ⟨value, unchanged, _, drawRan, functionRan⟩ := run_bind_ok valueRan
  obtain ⟨output, added, _, blockRan, doneRan⟩ := run_bind_ok functionRan
  obtain ⟨rfl, -⟩ := run_consult_ok arityRan
  obtain ⟨rfl, drawn, -⟩ := run_draw_ok drawRan
  cases doneRan
  obtain ⟨params, opened, result, written, opening, bodyRan, closing⟩ := run_addFunction_ok blockRan
  obtain ⟨constant, loaded, _, intRan, tailRan⟩ := run_bind_ok bodyRan
  have loading := step_addInteger intRan
  cases params with
  | nil =>
    cases tailRan
    exact .code (.constantFunction output constant arity [] value ⟨_, drawn⟩)
      (.cons opening (.cons loading closing))
  | cons first others =>
    obtain ⟨sum, summed, _, sumRan, doneRan⟩ := run_bind_ok tailRan
    cases doneRan
    exact .code (.sumFunction output first constant sum arity (first :: others) value ⟨_, drawn⟩)
      (.cons opening (.cons loading (.cons (step_addBinary sumRan) closing)))

/-- Whatever is done with picked arguments, or nothing where there are none. -/
theorem pickArguments_adds {function : Var} {use : List Var → Build Progress}
    (uses : ∀ arguments later, b.Picks function arguments →
      (use arguments).run b later = .ok (progress, after, rest) → Adds b progress after)
    (ran : (do
        match ← Build.pickArguments function with
        | some arguments => use arguments
        | none => return .skipped : Build Progress).run b rng = .ok (progress, after, rest)) :
    Adds b progress after := by
  obtain ⟨picked, same, later, pickRan, useRan⟩ := run_bind_ok ran
  obtain ⟨rfl, drawn⟩ := run_consult_ok pickRan
  cases picked with
  | none =>
    cases useRan
    exact .nothing
  | some arguments => exact uses arguments later (Builder.picks_of_pickArguments drawn) useRan

theorem functionCall_adds (callable : ∀ v ∈ inputs, v ∈ b.visible .anyFunction)
    (ran : (functionCall.procedure inputs).run b rng = .ok (progress, after, rest)) :
    Adds b progress after := by
  simp only [functionCall] at ran
  split at ran
  next function =>
    refine pickArguments_adds (fun arguments later picks callRan => ?_) ran
    obtain ⟨output, added, _, addRan, doneRan⟩ := run_bind_ok callRan
    cases doneRan
    exact .code (.call output function arguments (callable function (by simp)) picks)
      (step_addCall addRan).steps
  · cases ran
    exact .nothing

/-- A loop is always added, and nothing is drawn but its count. -/
theorem forLoop_ok (ran : (forLoop.procedure inputs).run b rng = .ok (progress, after, rest)) :
    progress = .emitted ∧ rest = (drawLoopCount rng).2 ∧
      ∃ start bound step index square count, (∃ offset : Fin 16, count = Int64.ofInt (1 + offset.val)) ∧
        b.Steps (countingLoop start bound step index count [.binary square index .mul index]) after := by
  simp only [forLoop] at ran
  obtain ⟨_, looped, _, loopRan, doneRan⟩ := run_bind_ok ran
  cases doneRan
  have quiet : ∀ b value after later, (Build.draw drawLoopCount).run b rng = .ok (value, after, later) →
      after = b ∧ (∃ offset : Fin 16, value = Int64.ofInt (1 + offset.val)) ∧
        later = (drawLoopCount rng).2 := by
    intro b value after later drawRan
    obtain ⟨same, drawn, left⟩ := run_draw_ok drawRan
    exact ⟨same, ⟨_, drawn⟩, left⟩
  obtain ⟨start, bound, step, index, count, opened, later, written, ⟨drawn, left⟩, opening, bodyRan, closing⟩ :=
    run_addCountingLoop_ok quiet loopRan
  obtain ⟨square, multiplied, _, squareRan, bodyDone⟩ := run_bind_ok bodyRan
  cases bodyDone
  have unread : rest = later := rest_addBinary squareRan
  exact ⟨rfl, unread.trans left, start, bound, step, index, square, count, drawn,
    opening.append (.cons (step_addBinary squareRan) closing.steps)⟩

theorem forLoop_adds (ran : (forLoop.procedure inputs).run b rng = .ok (progress, after, rest)) :
    Adds b progress after := by
  obtain ⟨rfl, -, start, bound, step, index, square, count, drawn, steps⟩ := forLoop_ok ran
  exact .code (.loop start bound step index square count drawn) steps

theorem optimizedCall_adds (callable : ∀ v ∈ inputs, v ∈ b.visible .anyFunction)
    (ran : (optimizedCall.procedure inputs).run b rng = .ok (progress, after, rest)) :
    Adds b progress after := by
  simp only [optimizedCall] at ran
  split at ran
  next function =>
    refine pickArguments_adds (fun arguments later picks callRan => ?_) ran
    obtain ⟨_, looped, _, loopRan, doneRan⟩ := run_bind_ok callRan
    cases doneRan
    have quiet : ∀ b value after rest,
        (return 100 : Build Int64).run b later = .ok (value, after, rest) → after = b ∧ value = 100 := by
      intro b value after rest returned
      cases returned
      exact ⟨rfl, rfl⟩
    obtain ⟨start, bound, step, index, count, opened, _, written, rfl, opening, bodyRan, closing⟩ :=
      run_addCountingLoop_ok quiet loopRan
    obtain ⟨output, called, _, addRan, bodyDone⟩ := run_bind_ok bodyRan
    cases bodyDone
    exact .code
      (.callLoop start bound step index output function arguments (callable function (by simp)) picks)
      (opening.append (.cons (step_addCall addRan) closing.steps))
  · cases ran
    exact .nothing

/-- A generator runs its procedure on inputs that fit, or has found none. -/
theorem run_ok {g : Generator} (ran : g.run b rng = .ok (progress, after, rest)) :
    (progress = .skipped ∧ after = b) ∨
      ∃ inputs later, List.Forall₂ (fun v ty => v ∈ b.visible ty) inputs g.inputs ∧
        (g.procedure inputs).run b later = .ok (progress, after, rest) := by
  unfold run at ran
  split at ran
  next inputs later resolved =>
    exact .inr ⟨inputs, later, fitting_of_resolve resolved, runWith_ok ran⟩
  · cases ran
    exact .inl ⟨rfl, rfl⟩

theorem exists_one_of_fitting {ty : Ty}
    (fitting : List.Forall₂ (fun v ty => v ∈ b.visible ty) inputs [ty]) :
    ∃ v, inputs = [v] ∧ v ∈ b.visible ty := by
  cases fitting with
  | cons first none =>
    cases none
    exact ⟨_, rfl, first⟩

/-- Inputs that fit two types are two variables. -/
theorem exists_pair_of_fitting {first second : Ty}
    (fitting : List.Forall₂ (fun v ty => v ∈ b.visible ty) inputs [first, second]) :
    ∃ lhs rhs, inputs = [lhs, rhs] ∧ lhs ∈ b.visible first ∧ rhs ∈ b.visible second := by
  cases fitting with
  | cons left others =>
    obtain ⟨rhs, rfl, right⟩ := exists_one_of_fitting others
    exact ⟨_, rhs, rfl, left, right⟩

/-- Inputs of a known generator that asks for a function are functions. -/
theorem callable_of_fitting {g : Generator}
    (fitting : List.Forall₂ (fun v ty => v ∈ b.visible ty) inputs g.inputs) (one : g.inputs = [.anyFunction]) :
    ∀ v ∈ inputs, v ∈ b.visible .anyFunction := by
  obtain ⟨function, rfl, callable⟩ := exists_one_of_fitting (one ▸ fitting)
  exact List.forall_mem_singleton.mpr callable

theorem mem_known {g : Generator} : g ∈ Generator.known ↔ g = integer ∨ g = builtin ∨ g = binaryOperation ∨
    g = functionDefinition ∨ g = functionCall ∨ g = forLoop ∨ g = optimizedCall := by
  simp only [Generator.known, base, List.map, List.cons_append, List.nil_append, List.mem_cons,
    List.not_mem_nil, or_false]

/-- What the procedure of a known generator does with inputs that fit. -/
theorem procedure_adds {g : Generator} (known : g ∈ Generator.known)
    (fitting : List.Forall₂ (fun v ty => v ∈ b.visible ty) inputs g.inputs)
    (done : (g.procedure inputs).run b rng = .ok (progress, after, rest)) : Adds b progress after := by
  rcases mem_known.mp known with rfl | rfl | rfl | rfl | rfl | rfl | rfl
  · exact integer_adds done
  · exact builtin_adds done
  · exact binaryOperation_adds done
  · exact functionDefinition_adds done
  · exact functionCall_adds (callable_of_fitting fitting rfl) done
  · exact forLoop_adds done
  · exact optimizedCall_adds (callable_of_fitting fitting rfl) done

theorem adds_of_known {g : Generator} (known : g ∈ Generator.known)
    (ran : g.run b rng = .ok (progress, after, rest)) : Adds b progress after := by
  rcases run_ok ran with ⟨rfl, rfl⟩ | ⟨inputs, later, fitting, done⟩
  · exact .nothing
  · exact procedure_adds known fitting done

end Generator

end EngineFuzz
