import EngineFuzz.Proofs.Session.Turns

/-!
Calls in drafts of known generators. Main statement: they are typed, and as long as there are numbers for all
variables, a function whose signature is not known is passed no variable twice. Without that bound it can be:
there are streams that make a draft of any number of loops and a call with the variables made just before and
just after them, which have the same number if the loops use up all others.
-/

namespace EngineFuzz

namespace Setup

/-- A program made with known generators alone is typed, by the types that its builder has given. As long
as there are numbers for all variables, none is passed twice where the signature is not known. -/
theorem draft_isTyped (setup : Setup) (config : SessionConfig) (rng : Rng) (draft : Draft)
    (known : ∀ entry ∈ setup.registry.entries, entry.1 ∈ Generator.known)
    (made : setup.draft config rng = .ok draft) :
    ∃ sketch, setup.sketch config rng = .ok sketch ∧ draft = sketch.draft ∧
      draft.program.IsTyped sketch.builder.types.toList ∧
      (sketch.builder.types.size ≤ UInt32.size → draft.program.PassesOnce sketch.builder.types.toList) := by
  obtain ⟨sketch, sketched, rfl⟩ := exists_extend_of_draft made
  have typed : sketch.builder.program.IsTyped sketch.builder.types.toList := (sketch_isTyped known sketched).fits
  exact ⟨sketch, sketched, rfl, typed, typed.passesOnce⟩

/-- A target with a function that is not known any better, and all the known generators. -/
def loose : Setup where
  profile := { Profile.v8 with builtins := .ofList [("gc", Profile.noArguments), ("print", .anyFunction)] }
  registry := ⟨.ofList (Generator.known.map fun generator => (generator, 1))⟩
  classifier := .standard

/-- A call of a function of the program, which is passed one variable three times, and in a loop one of a
function that is not known, which is not. -/
theorem loose_draft_isTyped : (∀ entry ∈ loose.registry.entries, entry.1 ∈ Generator.known) ∧
    ∃ draft sketch, loose.draft eightParts (.ofSeed 299) = .ok draft ∧
      loose.sketch eightParts (.ofSeed 299) = .ok sketch ∧ sketch.builder.types.size ≤ UInt32.size ∧
      .call ⟨7⟩ ⟨0⟩ [⟨6⟩, ⟨6⟩, ⟨6⟩] ∈ draft.program.instrs ∧ .call ⟨12⟩ ⟨6⟩ [⟨0⟩, ⟨7⟩] ∈ draft.program.instrs ∧
      draft.program.IsTyped sketch.builder.types.toList ∧
      draft.program.PassesOnce sketch.builder.types.toList := by
  have known : ∀ entry ∈ loose.registry.entries, entry.1 ∈ Generator.known := by
    have entries : loose.registry.entries = Generator.known.map fun generator => (generator, 1) := rfl
    rw [entries]
    exact List.forall_mem_map.mpr fun generator member => member
  have calls : ((loose.draft eightParts (.ofSeed 299)).map fun draft => decide
      (.call ⟨7⟩ ⟨0⟩ [⟨6⟩, ⟨6⟩, ⟨6⟩] ∈ draft.program.instrs ∧
        .call ⟨12⟩ ⟨6⟩ [⟨0⟩, ⟨7⟩] ∈ draft.program.instrs)).toOption = some true := by decide +kernel
  have size : ((loose.sketch eightParts (.ofSeed 299)).map fun sketch =>
      sketch.builder.types.size).toOption = some 24 := by decide +kernel
  obtain ⟨draft, made⟩ := exists_of_isOk
    (by decide +kernel : (loose.draft eightParts (.ofSeed 299)).isOk = true)
  obtain ⟨sketch, sketched, -, typed, once⟩ := draft_isTyped loose eightParts _ draft known made
  rw [made] at calls
  rw [sketched] at size
  have exactly : sketch.builder.types.size = 24 := Option.some.inj size
  have few : sketch.builder.types.size ≤ UInt32.size := by
    rw [exactly]
    decide
  obtain ⟨own, unknown⟩ := of_decide_eq_true (Option.some.inj calls)
  exact ⟨known, draft, sketch, made, sketched, few, own, unknown, typed, once few⟩

end Setup

/-! ### A draft of loops -/

namespace Builder

variable {b : Builder}

/-- Everything in scope has a type, and so may stand where anything may. -/
theorem Numbered.visible_anything (numbered : b.Numbered) : b.visible .anything = b.inScope := by
  rw [Builder.visible, List.filter_eq_self]
  intro v member
  rw [inScope_eq_vars] at member
  obtain ⟨ty, typed⟩ := numbered.typed member
  simp only [typed, Option.any_some, ty.fits_anything]

end Builder

namespace Generator

open Build Builder

variable {b : Builder} {rng : Rng} {function first last : Var} {others middle : List Var}

/-- Two zeros are read for the count of a loop. The loop makes five variables. -/
theorem exists_forLoop (b : Builder) (words : List UInt32) (rng : Rng) :
    ∃ after, forLoop.run b (rng.ahead (0 :: 0 :: words)) = .ok (.emitted, after, rng.ahead words) ∧
      b.Grows after ∧ after.types.size = b.types.size + 5 := by
  have ends : (forLoop.procedure []).Ends b (rng.ahead (0 :: 0 :: words)) fun progress _ =>
    progress = .emitted := forLoop_ends _
  obtain ⟨progress, after, rest, done, rfl⟩ := ends
  obtain ⟨-, rfl, start, bound, step, index, square, count, -, steps⟩ := forLoop_ok done
  have counted : Draw.below64 16 (by decide) (rng.ahead (0 :: 0 :: words)) = (0, rng.ahead words) :=
    Draw.below64_ahead (by decide) words (by decide)
  have left : (drawLoopCount (rng.ahead (0 :: 0 :: words))).2 = rng.ahead words := by
    simp only [drawLoopCount, Draw.integer, Bind.bind, StateT.bind, counted]
    rfl
  rw [left] at done
  exact ⟨after, run_of_emitted rfl done, run_grows _ done, steps.types_size⟩

theorem builtin_run (declared : b.builtins = printer) (words : List UInt32) :
    builtin.run b (rng.ahead (0 :: words)) = .ok (.emitted, (b.loadBuiltin "print").2, rng.ahead words) := by
  have names : b.builtins.names = ["print"] := by
    rw [declared]
    rfl
  have resolved : resolve b builtin.inputs (rng.ahead (0 :: words)) = (some [], rng.ahead (0 :: words)) := rfl
  refine run_of_emitted resolved ?_
  simp only [builtin, run_bind, Build.builtinNames, Build.draw, Build.run, names, Draw.pick_zero]
  rfl

theorem exists_functionCall (callable : b.visible .anyFunction = function :: others)
    (typed : b.typeOf function = .ok .anyFunction)
    (candidates : b.candidates function .anything = first :: (middle ++ [last])) (words : List UInt32)
    (rng : Rng) :
    ∃ output after,
      functionCall.run b (rng.ahead (0 :: 0 :: 0xC0000000 :: 0 :: 0 :: words)) =
        .ok (.emitted, after, rng.ahead words) ∧
      b.Step (.call output function [last, first]) after := by
  have resolved : resolve b functionCall.inputs (rng.ahead (0 :: 0 :: 0xC0000000 :: 0 :: 0 :: words)) =
      (some [function], rng.ahead (0 :: 0xC0000000 :: 0 :: 0 :: words)) := by
    have one : resolve b functionCall.inputs = Draw.pickEach [b.visible .anyFunction] := rfl
    rw [one, Draw.pickEach_singleton, callable, Draw.pick_zero]
    rfl
  have two : Draw.below64 3 (by decide) (rng.ahead (0 :: 0xC0000000 :: 0 :: 0 :: words)) =
      (2, rng.ahead (0 :: 0 :: words)) := Draw.below64_ahead (by decide) _ (by decide)
  have any : b.pickAny function (rng.ahead (0 :: 0xC0000000 :: 0 :: 0 :: words)) =
      ([last, first], rng.ahead words) := by
    simp only [pickAny, candidates, Bind.bind, StateT.bind, two]
    exact Draw.sample_zero first last middle words
  have picked := pickArguments_of_unknown typed rfl (rng.ahead (0 :: 0xC0000000 :: 0 :: 0 :: words))
  rw [any] at picked
  have picks := picks_of_pickArguments picked
  have member : function ∈ b.visible .anyFunction := callable ▸ List.mem_cons_self
  have ends : (addCall function [last, first]).Ends b (rng.ahead words) fun output after =>
    b.Step (.call output function [last, first]) after :=
      ends_addCall (mem_visible.mp member).1 picks.inScope
  obtain ⟨output, after, rest, called, step⟩ := ends
  obtain rfl := rest_addCall called
  refine ⟨output, after, run_of_emitted resolved ?_, step⟩
  simp only [functionCall, run_bind, Build.pickArguments, Build.run, picked, called]
  rfl

end Generator

namespace Setup

open Builder

variable {config : SessionConfig} {sketch : Sketch} {rng : Rng}

/-- A target with a function that is not known any better, and programs of loops and calls of it. -/
def looping : Setup where
  profile := { Profile.v8 with builtins := Build.printer }
  registry := ⟨.ofList [(.forLoop, 1), (.builtin, 1), (.functionCall, 1)]⟩
  classifier := .standard

theorem looping_isSummed : looping.registry.generators.IsSummed := Urn.isSummed_ofList _

theorem looping_heavy : 0 < looping.registry.generators.total := by decide

/-- The second word decides which generator is drawn. -/
theorem looping_draw {high weight : UInt32} {generator : Generator}
    (fairly : Draw.fair looping.registry.generators.total (high.toUInt64 <<< 32).toBitVec = true)
    (there : looping.registry.entries[Urn.scan
      (Draw.scaled _ looping_heavy (high.toUInt64 <<< 32).toBitVec) looping.registry.entries]? =
        some (generator, weight)) (words : List UInt32) :
    looping.registry.draw (rng.ahead (0 :: high :: words)) = (.ok generator, rng.ahead words) := by
  have joined : high.toUInt64 <<< 32 ||| (0 : UInt32).toUInt64 = high.toUInt64 <<< 32 := UInt64.or_zero
  rw [← joined] at fairly there
  exact looping_isSummed.draw_of_roll (Draw.below64_ahead looping_heavy words fairly) there

/-- What is drawn for a global. -/
def globalWords : List UInt32 := [0, 0x60000000, 0]

/-- For a call of the first function in scope with the last candidate and the first. -/
def callWords : List UInt32 := [0, 0xC0000000, 0, 0, 0xC0000000, 0, 0]

/-- For two globals, loops, one more global, and a call. -/
def loopingWords (count : Nat) : List UInt32 :=
  globalWords ++ (globalWords ++ (.replicate (4 * count) 0 ++ (globalWords ++ callWords)))

/-- Room for these and no more. -/
def loopingConfig (count : Nat) : SessionConfig :=
  { SessionConfig.standard with programSize := count + 4, maxSkips := 1 }

theorem looping_extend_builtin {sketch : Sketch} (declared : sketch.builder.builtins = Build.printer)
    (goes : sketch.IsOpen config) (words : List UInt32) :
    looping.extend config sketch (rng.ahead (globalWords ++ words)) =
      looping.extend config (sketch.next (sketch.builder.loadBuiltin "print").2 .emitted) (rng.ahead words) := by
  have drawn : looping.registry.draw (rng.ahead (globalWords ++ words)) =
      (.ok .builtin, rng.ahead (0 :: words)) := looping_draw (by decide) rfl (0 :: words)
  exact extend_of_turn goes (turn_of_run drawn (Generator.builtin_run declared words))

/-- Loops one after the other, as long as there is room. -/
theorem looping_extend_loops (count : Nat) (room : sketch.emitted + count ≤ config.programSize)
    (patient : sketch.skipped < config.maxSkips) (words : List UInt32) (rng : Rng) :
    ∃ b, looping.extend config sketch (rng.ahead (.replicate (4 * count) 0 ++ words)) =
        looping.extend config ⟨b, sketch.emitted + count, sketch.skipped⟩ (rng.ahead words) ∧
      sketch.builder.Grows b ∧ b.types.size = sketch.builder.types.size + 5 * count := by
  induction count generalizing sketch with
  | zero => exact ⟨sketch.builder, rfl, .refl _, rfl⟩
  | succ count ih =>
    let later : List UInt32 := .replicate (4 * count) 0 ++ words
    have ahead : List.replicate (4 * (count + 1)) 0 ++ words = 0 :: 0 :: 0 :: 0 :: later := rfl
    obtain ⟨b, ran, grown, size⟩ := Generator.exists_forLoop sketch.builder later rng
    have drawn : looping.registry.draw (rng.ahead (0 :: 0 :: 0 :: 0 :: later)) =
        (.ok .forLoop, rng.ahead (0 :: 0 :: later)) := looping_draw (by decide) rfl _
    have turned := turn_of_run drawn ran
    have goes : sketch.IsOpen config := ⟨by omega, patient⟩
    have next : (sketch.next b .emitted).emitted + count ≤ config.programSize := by
      simp only [Sketch.next]
      omega
    obtain ⟨last, extended, more, total⟩ := ih next patient
    refine ⟨last, ?_, grown.trans more, ?_⟩
    · rw [ahead, extend_of_turn goes turned, extended]
      have counted : sketch.emitted + 1 + count = sketch.emitted + (count + 1) := by omega
      simp only [Sketch.next, counted]
    · simp only [Sketch.next] at total
      omega

/-- The builder before the loops. -/
def loopingHead : Builder where
  instrs := #[.loadBuiltin ⟨0⟩ "print", .loadBuiltin ⟨1⟩ "print"]
  types := #[.anyFunction, .anyFunction]
  scope := [⟨1⟩, ⟨0⟩]
  enclosing := []
  builtins := Build.printer

theorem loopingHead_numbered : loopingHead.Numbered := by
  have first := (start Build.printer).step_loadBuiltin "print"
  have second := ((start Build.printer).loadBuiltin "print").2.step_loadBuiltin "print"
  exact (first.steps.append second.steps).numbered (numbered_start Build.printer)

/-- The loops keep the two globals in scope, and what comes after them takes the next number. -/
theorem looping_inScope {b : Builder} (grown : loopingHead.Grows b) :
    ∃ more, (b.loadBuiltin "print").2.inScope = ⟨0⟩ :: ⟨1⟩ :: (more ++ [.ofIndex b.types.size]) := by
  obtain ⟨more, view⟩ := grown.view
  have number : (b.loadBuiltin "print").1 = .ofIndex b.types.size := rfl
  refine ⟨more, ?_⟩
  rw [inScope_eq_vars, (b.step_loadBuiltin "print").vars rfl, view, Instr.outputs, number]
  simp [Scope.vars, Builder.view, loopingHead]

theorem looping_candidates {b : Builder} (before : loopingHead.Precedes b) {more : List Var} {last : Var}
    (inScope : b.inScope = ⟨0⟩ :: ⟨1⟩ :: (more ++ [last])) (other : last ≠ ⟨0⟩) :
    b.typeOf? ⟨0⟩ = some .anyFunction ∧ (∃ others, b.visible .anyFunction = ⟨0⟩ :: others) ∧
      ∃ middle, b.candidates ⟨0⟩ .anything = ⟨1⟩ :: (middle ++ [last]) := by
  have callee : b.typeOf? ⟨0⟩ = some .anyFunction := before.typeOf?_eq rfl
  have numbered : b.Numbered := by
    obtain ⟨instrs, steps⟩ := before
    exact steps.numbered loopingHead_numbered
  refine ⟨callee, ?_, more.filter (· != ⟨0⟩), ?_⟩
  · rw [Builder.visible, inScope]
    exact ⟨_, List.filter_cons_of_pos (by simp [callee, Ty.fits])⟩
  · rw [Builder.candidates, numbered.visible_anything, inScope]
    simp [other]

/-- The first global is called with the last variable in scope and the second. -/
theorem exists_looping_turn_call {sketch : Sketch} (before : loopingHead.Precedes sketch.builder)
    {more : List Var} {last : Var} (inScope : sketch.builder.inScope = ⟨0⟩ :: ⟨1⟩ :: (more ++ [last]))
    (other : last ≠ ⟨0⟩) (rng : Rng) :
    ∃ output after,
      looping.turn sketch (rng.ahead callWords) = .ok (sketch.next after .emitted, rng.ahead []) ∧
      sketch.builder.Step (.call output ⟨0⟩ [last, ⟨1⟩]) after ∧ after.typeOf? ⟨0⟩ = some .anyFunction := by
  obtain ⟨callee, ⟨others, callable⟩, middle, candidates⟩ := looping_candidates before inScope other
  obtain ⟨output, after, ran, step⟩ :=
    Generator.exists_functionCall callable (typeOf_eq_ok_iff.mpr callee) candidates [] rng
  have drawn : looping.registry.draw (rng.ahead callWords) =
      (.ok .functionCall, rng.ahead [0, 0, 0xC0000000, 0, 0]) := looping_draw (by decide) rfl _
  exact ⟨output, after, turn_of_run drawn ran, step, step.precedes.typeOf?_eq callee⟩

/-- With any number of loops between them, the second global and the third are passed to the first. -/
theorem looping_sketch (count : Nat) (other : Var.ofIndex (2 + 5 * count) ≠ ⟨0⟩) (rng : Rng) :
    ∃ sketch output, looping.sketch (loopingConfig count) (rng.ahead (loopingWords count)) = .ok sketch ∧
      .call output ⟨0⟩ [.ofIndex (2 + 5 * count), ⟨1⟩] ∈ sketch.builder.program.instrs ∧
      sketch.builder.typeOf? ⟨0⟩ = some .anyFunction := by
  let config := loopingConfig count
  have room {b : Builder} {emitted : Nat} (less : emitted < count + 4) :
      (Sketch.mk b emitted 0).IsOpen config := ⟨less, Nat.one_pos⟩
  let head : Sketch := ⟨loopingHead, 2, 0⟩
  have fits : head.emitted + count ≤ config.programSize := by
    simp only [head, config, loopingConfig]
    omega
  obtain ⟨b, extended, grown, size⟩ :=
    looping_extend_loops count fits Nat.one_pos (globalWords ++ callWords) rng
  have size : b.types.size = 2 + 5 * count := size
  have declared : b.builtins = Build.printer := by
    obtain ⟨statements, steps, -⟩ := grown
    exact steps.builtins
  obtain ⟨more, inScope⟩ := looping_inScope grown
  rw [size] at inScope
  let last : Sketch := ⟨(b.loadBuiltin "print").2, 2 + count + 1, 0⟩
  have before : loopingHead.Precedes last.builder :=
    grown.precedes.trans (b.step_loadBuiltin "print").precedes
  obtain ⟨output, after, turned, step, typed⟩ := exists_looping_turn_call before inScope other rng
  have code : .call output ⟨0⟩ [.ofIndex (2 + 5 * count), ⟨1⟩] ∈ after.program.instrs := by
    rw [step.code]
    exact List.mem_append_right _ List.mem_cons_self
  refine ⟨last.next after .emitted, output, ?_, code, typed⟩
  calc looping.sketch config (rng.ahead (loopingWords count))
    _ = looping.extend config ⟨((start Build.printer).loadBuiltin "print").2, 1, 0⟩
          (rng.ahead (globalWords ++ (.replicate (4 * count) 0 ++ (globalWords ++ callWords)))) :=
      looping_extend_builtin rfl (room (by omega)) _
    _ = looping.extend config head (rng.ahead (.replicate (4 * count) 0 ++ (globalWords ++ callWords))) :=
      looping_extend_builtin rfl (room (by omega)) _
    _ = looping.extend config ⟨b, 2 + count, 0⟩ (rng.ahead (globalWords ++ callWords)) := extended
    _ = looping.extend config last (rng.ahead callWords) := looping_extend_builtin declared (room (by omega)) _
    _ = looping.extend config (last.next after .emitted) (rng.ahead []) :=
      extend_of_turn (room (by omega)) turned
    _ = .ok (last.next after .emitted) := by
      apply extend_of_done
      simp only [Sketch.IsOpen, Sketch.next, last, config, loopingConfig]
      omega

/-- As many loops as use up all numbers but the first two, and the first one again. -/
def wrappingLoops : Nat := 858993459

def wrappingStream : Rng := (Rng.ofSeed 0).ahead (loopingWords wrappingLoops)

/-- After these loops the third global gets the number of the second, and so one variable is passed twice to
a function whose signature is not known. -/
theorem looping_draft_repeats :
    (∀ entry ∈ looping.registry.entries, entry.1 ∈ Generator.known) ∧
    ∃ draft sketch output, looping.draft (loopingConfig wrappingLoops) wrappingStream = .ok draft ∧
      looping.sketch (loopingConfig wrappingLoops) wrappingStream = .ok sketch ∧
      .call output ⟨0⟩ [⟨1⟩, ⟨1⟩] ∈ draft.program.instrs ∧ sketch.builder.typeOf ⟨0⟩ = .ok .anyFunction ∧
      ¬ draft.program.PassesOnce sketch.builder.types.toList := by
  have known : ∀ entry ∈ looping.registry.entries, entry.1 ∈ Generator.known := by
    have entries : looping.registry.entries = [(.forLoop, 1), (.builtin, 1), (.functionCall, 1)] := rfl
    rw [entries]
    simp [Generator.mem_known]
  have again : Var.ofIndex (2 + 5 * wrappingLoops) = ⟨1⟩ := by
    have full : 2 + 5 * wrappingLoops = 1 + UInt32.size := by decide
    rw [full]
    exact Var.ofIndex_add_size 1
  obtain ⟨sketch, output, sketched, code, typed⟩ :=
    looping_sketch wrappingLoops (by rw [again]; decide) (.ofSeed 0)
  rw [again] at code
  have drafted := congrArg (Except.map Sketch.draft) sketched
  refine ⟨known, sketch.draft, sketch, output, drafted, sketched, code, typeOf_eq_ok_iff.mpr typed, ?_⟩
  intro once
  have different := once output ⟨0⟩ [⟨1⟩, ⟨1⟩] code ((of?_types ..).trans typed)
  simp at different

end Setup

end EngineFuzz
