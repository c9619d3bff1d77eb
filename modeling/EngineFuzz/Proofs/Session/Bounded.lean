import EngineFuzz.Proofs.Program.Bounded
import EngineFuzz.Proofs.Session.Typed

/-!
Programs made with known generators alone have bounded control flow and exact literals, as every snippet
has. Only the two snippets that are loops open a loop, and they load what its head needs themselves.
-/

namespace EngineFuzz

/-! ### Values that are drawn -/

theorem exact_edgeIntegers : ∀ value ∈ Generator.edgeIntegers, IsExact value := by
  have all : Generator.edgeIntegers.all (fun value => decide (IsExact value)) = true := by decide
  exact fun value member => of_decide_eq_true (List.all_eq_true.mp all value member)

/-- An edge integer or one from -256 to 256. -/
theorem exact_drawInteger (rng : Rng) : IsExact (Generator.drawInteger rng).1 := by
  have small : ∀ offset : Fin 513, IsExact (Int64.ofInt (-256 + offset.val)) := by
    intro offset
    have value : (Int64.ofInt (-256 + offset.val)).toInt = -256 + offset.val :=
      Int64.toInt_ofInt_of_le (by omega) (by omega)
    unfold IsExact
    omega
  have edge : ∀ rng, IsExact (Draw.element Generator.edgeIntegers (by decide) rng).1 :=
    fun rng => exact_edgeIntegers _ (List.getElem_mem _)
  cases tossed : Draw.coin rng with
  | mk heads rest =>
    cases heads with
    | true =>
      have drawn : Generator.drawInteger rng = Draw.element Generator.edgeIntegers (by decide) rest := by
        simp [Generator.drawInteger, bind, StateT.bind, tossed]
      exact drawn ▸ edge rest
    | false =>
      have drawn : (Generator.drawInteger rng).1 =
          Int64.ofInt (-256 + (Draw.below64 513 (by decide) rest).1.val) := by
        simp only [Generator.drawInteger, bind, StateT.bind, tossed]
        rfl
      exact drawn ▸ small _

/-! ### Snippets -/

variable {before : List Instr}

/-- A loop that counts to a small number and is written outside of all blocks. Its head finds what it
needs in the three loads before it; its body stands in the loop and in no function. -/
theorem boundedFrom_countingLoop (closed : Frames.afterAll [] before = [])
    {start bound step index : Var} {count : Int64} {body : Instr}
    (few : 1 ≤ count.toInt ∧ count.toInt ≤ 16 ∨ count.toInt = 100)
    (inside : ∀ inner, (Frames.afterAll [] inner).function? = none → body.IsBounded inner) :
    Program.BoundedFrom before (countingLoop start bound step index count [body]) := by
  have extended : ∀ more, Frames.afterAll [] (before ++ more) = Frames.afterAll [] more := by
    intro more
    rw [Frames.afterAll_append, closed]
  have exactZero : IsExact 0 := by decide
  have exactOne : IsExact 1 := by decide
  have exactCount : IsExact count := by
    unfold IsExact
    omega
  have head : LoopHead.IsBounded
      (before ++ [.loadInteger start 0] ++ [.loadInteger bound count] ++ [.loadInteger step 1])
      { start, comparison := .lessThan, bound, operator := .add, step } := by
    have one : Frames.afterAll [] (before ++ [.loadInteger start 0]) = [] := extended [_]
    have two : Frames.afterAll [] (before ++ [.loadInteger start 0] ++ [.loadInteger bound count]) = [] := by
      rw [List.append_assoc]
      exact extended [_, _]
    constructor
    · rfl
    · rfl
    · exact ⟨before, [.loadInteger bound count, .loadInteger step 1], by simp, closed⟩
    · exact ⟨count, few, _, [.loadInteger step 1], by simp, one⟩
    · exact ⟨_, [], rfl, two⟩
  refine ⟨exactZero, exactCount, exactOne, ⟨?_, head⟩, inside _ ?_, trivial, trivial⟩
  · simp only [List.append_assoc]
    exact extended [_, _, _]
  · simp only [List.append_assoc]
    exact congrArg Frames.function? (extended [_, _, _, _])

/-- Written outside of all blocks, a snippet keeps to the bounds. -/
theorem Snippet.boundedFrom {b : Builder} {instrs : List Instr} (snippet : Snippet b instrs)
    (closed : Frames.afterAll [] before = []) : Program.BoundedFrom before instrs := by
  cases snippet with
  | integer output value drawn =>
    obtain ⟨rng, rfl⟩ := drawn
    exact ⟨exact_drawInteger rng, trivial⟩
  | builtin => exact ⟨trivial, trivial⟩
  | binary => exact ⟨trivial, trivial⟩
  | constantFunction output constant arity params value drawn =>
    obtain ⟨rng, rfl⟩ := drawn
    exact ⟨closed, exact_drawInteger rng, trivial, trivial, trivial⟩
  | sumFunction output first constant sum arity params value drawn =>
    obtain ⟨rng, rfl⟩ := drawn
    exact ⟨closed, exact_drawInteger rng, trivial, trivial, trivial, trivial⟩
  | call output function arguments => exact ⟨congrArg Frames.function? closed, trivial⟩
  | loop start bound step index square count drawn =>
    refine boundedFrom_countingLoop closed (.inl ?_) fun _ _ => trivial
    obtain ⟨offset, rfl⟩ := drawn
    have value : (Int64.ofInt (1 + offset.val)).toInt = 1 + offset.val :=
      Int64.toInt_ofInt_of_le (by omega) (by omega)
    omega
  | callLoop start bound step index output function arguments =>
    exact boundedFrom_countingLoop closed (.inr rfl) fun _ outside => outside

/-! ### Programs -/

/-- A builder of a program that is bounded so far, with no block left open. -/
structure Builder.IsBounded (b : Builder) : Prop where
  closed : Frames.afterAll [] b.program.instrs = []
  bounded : Program.BoundedFrom [] b.program.instrs

theorem Builder.isBounded_start (builtins : Table Ty) : (start builtins).IsBounded := ⟨rfl, trivial⟩

theorem Adds.isBounded {b after : Builder} {progress : Progress} (adds : Adds b progress after)
    (bounded : b.IsBounded) : after.IsBounded := by
  cases adds with
  | nothing => exact bounded
  | @code instrs after snippet steps =>
    have code : after.program.instrs = b.program.instrs ++ instrs := steps.code
    constructor
    · rw [code, Frames.afterAll_append, bounded.closed, snippet.afterAll_frames]
    · rw [code]
      exact bounded.bounded.append (snippet.boundedFrom bounded.closed)

namespace Setup

theorem sketch_isBounded {setup : Setup} {config : SessionConfig} {rng : Rng} {sketch : Sketch}
    (known : ∀ entry ∈ setup.registry.entries, entry.1 ∈ Generator.known)
    (made : setup.sketch config rng = .ok sketch) : sketch.builder.IsBounded := by
  have kept : ∀ (sketch : Sketch) (progress : Progress) (b : Builder),
      Adds sketch.builder progress b → sketch.builder.IsBounded →
        (sketch.next b progress).builder.IsBounded := by
    intro sketch progress b adds bounded
    cases progress <;> exact adds.isBounded bounded
  exact extend_induction known kept (Builder.isBounded_start _) made

/-- Every program made with known generators alone is bounded, and each of its literals is the script
number that is read for it. -/
theorem draft_isBounded (setup : Setup) (config : SessionConfig) (rng : Rng) (draft : Draft)
    (known : ∀ entry ∈ setup.registry.entries, entry.1 ∈ Generator.known)
    (made : setup.draft config rng = .ok draft) :
    draft.program.IsBounded ∧ ∀ output value, .loadInteger output value ∈ draft.program.instrs →
      Double.nearest value.toInt.natAbs = value.toInt.natAbs := by
  unfold Setup.draft at made
  cases sketched : setup.sketch config rng with
  | error error => simp [sketched, Except.map] at made
  | ok sketch =>
    simp only [sketched, Except.map, Except.ok.injEq] at made
    subst made
    have bounded : sketch.draft.program.IsBounded :=
      Program.isBounded_of_boundedFrom (sketch_isBounded known sketched).bounded
    refine ⟨bounded, fun output value member => ?_⟩
    obtain ⟨before, after, split⟩ := List.append_of_mem member
    have small : IsExact value := bounded before _ after split
    exact small.nearest

/-- The generators that every target has, and the one that calls functions in loops. -/
def optimizing : Setup :=
  { usual with registry := ⟨.ofList (Generator.base ++ Profile.v8.added)⟩ }

/-- A function, two calls outside of loops, three in loops that count to a hundred, and a loop that counts
to a drawn number. -/
theorem optimizing_draft_isBounded :
    (∀ entry ∈ optimizing.registry.entries, entry.1 ∈ Generator.known) ∧
    ∃ draft, optimizing.draft eightParts (.ofSeed 3) = .ok draft ∧
      (draft.program.loops, draft.program.calls, draft.program.loopCalls.length) = (4, 5, 3) ∧
      draft.program.IsBounded := by
  have known : ∀ entry ∈ optimizing.registry.entries, entry.1 ∈ Generator.known := by
    have entries : optimizing.registry.entries = Generator.base ++ Profile.v8.added := rfl
    rw [entries]
    simp [Generator.base, Profile.v8, Generator.mem_known]
  have parts : ((optimizing.draft eightParts (.ofSeed 3)).map fun draft =>
      (draft.program.loops, draft.program.calls, draft.program.loopCalls.length)).toOption =
        some (4, 5, 3) := by decide +kernel
  obtain ⟨draft, made⟩ := exists_of_isOk
    (by decide +kernel : (optimizing.draft eightParts (.ofSeed 3)).isOk = true)
  rw [made] at parts
  have bounded := (draft_isBounded optimizing eightParts _ draft known made).1
  exact ⟨known, draft, made, Option.some.inj parts, bounded⟩

end Setup

end EngineFuzz
