import EngineFuzz.Proofs.Generator.Completion
import EngineFuzz.Proofs.Generator.Registry
import EngineFuzz.Proofs.Session.Typed

/-!
How long it takes to make a draft, and how long the draft gets. In every turn one generator is selected, and
one of two counters goes up. Main statement: there are as many turns as the counters add up to, exactly one of
the counters has come to its limit at the end, and known generators have added one to six instructions for
each turn that emitted.
-/

namespace EngineFuzz

namespace Sketch

/-- Whether a sketch is still to be gone on with. -/
def IsOpen (sketch : Sketch) (config : SessionConfig) : Prop :=
  sketch.emitted < config.programSize ∧ sketch.skipped < config.maxSkips

/-- Whether no counter is past its limit, and one of them not even there. -/
def IsWithin (sketch : Sketch) (config : SessionConfig) : Prop :=
  sketch.emitted ≤ config.programSize ∧ sketch.skipped ≤ config.maxSkips ∧
    (sketch.emitted < config.programSize ∨ sketch.skipped < config.maxSkips)

variable {sketch : Sketch} {config : SessionConfig}

theorem IsOpen.isWithin_next (goes : sketch.IsOpen config) (b : Builder) (progress : Progress) :
    (sketch.next b progress).IsWithin config := by
  obtain ⟨small, patient⟩ := goes
  cases progress <;> simp only [next, IsWithin] <;> omega

theorem counters_next (sketch : Sketch) (b : Builder) (progress : Progress) :
    (sketch.next b progress).emitted + (sketch.next b progress).skipped =
      sketch.emitted + sketch.skipped + 1 := by
  cases progress <;> simp only [next] <;> omega

/-- Which limit a sketch has come to when it is done. -/
theorem IsWithin.limit (within : sketch.IsWithin config) (done : ¬ sketch.IsOpen config) :
    sketch.emitted = config.programSize ∧ sketch.skipped < config.maxSkips ∨
      sketch.skipped = config.maxSkips ∧ sketch.emitted < config.programSize := by
  unfold IsWithin at within
  unfold IsOpen at done
  omega

end Sketch

namespace Setup

/-- One turn: a generator is selected, and run. -/
def turn (setup : Setup) (sketch : Sketch) (rng : Rng) : Except SessionError (Sketch × Rng) :=
  match setup.registry.draw rng with
  | (.error error, _) => .error (.noneDrawn error)
  | (.ok generator, rng) =>
    match generator.run sketch.builder rng with
    | .error misuse => .error (.misuse misuse)
    | .ok (progress, b, rng) => .ok (sketch.next b progress, rng)

/-- Turns one after the other, whether or not the sketch is done. -/
def turns (setup : Setup) : (count : Nat) → Sketch → Rng → Except SessionError (Sketch × Rng)
  | 0, sketch, rng => .ok (sketch, rng)
  | count + 1, sketch, rng =>
    match setup.turn sketch rng with
    | .error error => .error error
    | .ok (sketch, rng) => setup.turns count sketch rng

/-- Whether no generator that is selected before the sketch is done misuses the builder. -/
def IsCalm (setup : Setup) (config : SessionConfig) (sketch : Sketch) (rng : Rng) : Prop :=
  ∀ count between later generator rest, setup.turns count sketch rng = .ok (between, later) →
    between.IsOpen config → setup.registry.draw later = (.ok generator, rest) →
      ∃ result, generator.run between.builder rest = .ok result

/-- Whether a sketch is done after so many turns, and not before. -/
structure IsDoneAfter (setup : Setup) (config : SessionConfig) (sketch : Sketch) (rng : Rng) (count : Nat)
    (last : Sketch) : Prop where
  turns : ∃ rest, setup.turns count sketch rng = .ok (last, rest)
  before : ∀ fewer < count, ∃ between later,
    setup.turns fewer sketch rng = .ok (between, later) ∧ between.IsOpen config
  after : ¬ last.IsOpen config

variable {setup : Setup} {config : SessionConfig} {sketch after last : Sketch} {rng later rest : Rng}
  {count : Nat}

/-! ### Turns -/

theorem turn_of_run {generator : Generator} {progress : Progress} {b : Builder}
    (drawn : setup.registry.draw rng = (.ok generator, later))
    (ran : generator.run sketch.builder later = .ok (progress, b, rest)) :
    setup.turn sketch rng = .ok (sketch.next b progress, rest) := by
  simp only [turn, drawn, ran]

theorem exists_next_of_turn (turned : setup.turn sketch rng = .ok (after, rest)) :
    ∃ b progress, after = sketch.next b progress := by
  unfold turn at turned
  split at turned
  · cases turned
  · split at turned
    · cases turned
    next progress b _ _ =>
      cases turned
      exact ⟨b, progress, rfl⟩

theorem turns_succ (turned : setup.turn sketch rng = .ok (after, later)) (count : Nat) :
    setup.turns (count + 1) sketch rng = setup.turns count after later := by
  rw [turns, turned]

/-- Each turn counts, as an emission or as a skip. -/
theorem counters_turns (turned : setup.turns count sketch rng = .ok (last, rest)) :
    last.emitted + last.skipped = sketch.emitted + sketch.skipped + count := by
  induction count generalizing sketch rng with
  | zero =>
    cases turned
    rfl
  | succ count ih =>
    cases first : setup.turn sketch rng with
    | error error =>
      rw [turns, first] at turned
      cases turned
    | ok result =>
      obtain ⟨after, later⟩ := result
      obtain ⟨b, progress, rfl⟩ := exists_next_of_turn first
      rw [turns_succ first] at turned
      rw [ih turned, Sketch.counters_next]
      omega

theorem IsCalm.of_turn (calm : setup.IsCalm config sketch rng)
    (turned : setup.turn sketch rng = .ok (after, later)) : setup.IsCalm config after later := by
  intro count between last generator rest done
  exact calm (count + 1) between last generator rest (by rw [turns_succ turned, done])

/-- Known generators are fit for every builder. -/
theorem isCalm_of_known (known : ∀ entry ∈ setup.registry.entries, entry.1 ∈ Generator.known)
    (config : SessionConfig) (sketch : Sketch) (rng : Rng) : setup.IsCalm config sketch rng := by
  intro count between later generator rest _ _ drawn
  obtain ⟨weight, member⟩ := Urn.mem_of_draw drawn
  obtain ⟨progress, b, last, ran⟩ := Generator.run_of_known (known _ member) between.builder rest
  exact ⟨_, ran⟩

/-! ### The loop -/

/-- What is true of a sketch that is done, and is true before a turn if it is after it, is true of all
sketches that come to be done. -/
@[elab_as_elim]
theorem turn_induction {motive : Sketch → Rng → Prop} (made : setup.extend config sketch rng = .ok last)
    (done : ∀ rng, ¬ last.IsOpen config → motive last rng)
    (turned : ∀ sketch rng after later, sketch.IsOpen config → setup.turn sketch rng = .ok (after, later) →
      motive after later → motive sketch rng) : motive sketch rng := by
  fun_induction setup.extend config sketch rng with
  | case1 => cases made
  | case2 => cases made
  | case3 sketch rng more generator later drawn b rest ran ih =>
    exact turned sketch rng _ rest more (turn_of_run drawn ran) (ih made)
  | case4 sketch rng more generator later drawn b rest ran ih =>
    exact turned sketch rng _ rest more (turn_of_run drawn ran) (ih made)
  | case5 sketch rng closed =>
    cases made
    exact done rng closed

/-- A turn is all that is done at once. -/
theorem extend_of_turn (goes : sketch.IsOpen config) (turned : setup.turn sketch rng = .ok (after, later)) :
    setup.extend config sketch rng = setup.extend config after later := by
  unfold Sketch.IsOpen at goes
  rw [extend, if_pos goes]
  unfold turn at turned
  cases drawn : setup.registry.draw rng with
  | mk found given =>
    rw [drawn] at turned
    cases found with
    | error error => cases turned
    | ok generator =>
      dsimp only at turned ⊢
      cases ran : generator.run sketch.builder given with
      | error misuse =>
        rw [ran] at turned
        cases turned
      | ok made =>
        obtain ⟨progress, b, left⟩ := made
        rw [ran] at turned
        cases turned
        cases progress <;> rfl

theorem extend_of_done (done : ¬ sketch.IsOpen config) : setup.extend config sketch rng = .ok sketch := by
  unfold Sketch.IsOpen at done
  rw [extend, if_neg done]

theorem IsDoneAfter.cons (goes : sketch.IsOpen config) (turned : setup.turn sketch rng = .ok (after, later))
    (done : setup.IsDoneAfter config after later count last) :
    setup.IsDoneAfter config sketch rng (count + 1) last where
  turns := by
    rw [turns_succ turned]
    exact done.turns
  before := by
    intro fewer below
    cases fewer with
    | zero => exact ⟨sketch, rng, rfl, goes⟩
    | succ fewer =>
      rw [turns_succ turned]
      exact done.before fewer (by omega)
  after := done.after

theorem isDoneAfter_of_extend (made : setup.extend config sketch rng = .ok last) :
    ∃ count, setup.IsDoneAfter config sketch rng count last := by
  refine turn_induction made ?done fun sketch rng after later goes turned done => ?turned
  case done =>
    intro rng closed
    exact ⟨0, ⟨rng, rfl⟩, fun fewer below => absurd below (Nat.not_lt_zero fewer), closed⟩
  case turned =>
    obtain ⟨count, done⟩ := done
    exact ⟨count + 1, .cons goes turned done⟩

theorem isWithin_of_extend (within : sketch.IsWithin config)
    (made : setup.extend config sketch rng = .ok last) : last.IsWithin config := by
  revert within
  refine turn_induction made (fun _ _ within => within) fun sketch rng after later goes turned kept _ => ?_
  obtain ⟨b, progress, rfl⟩ := exists_next_of_turn turned
  exact kept (goes.isWithin_next b progress)

/-- Where there is always something to select, only a generator can keep a sketch from being done. -/
theorem exists_extend (sound : setup.registry.IsSound) (heavy : setup.registry.totalWeight ≠ 0)
    (calm : setup.IsCalm config sketch rng) : ∃ last, setup.extend config sketch rng = .ok last := by
  fun_induction setup.extend config sketch rng with
  | case1 sketch rng more error later failed =>
    obtain ⟨entry, -, rest, drawn⟩ := sound.exists_draw heavy rng
    cases failed.symm.trans drawn
  | case2 sketch rng more generator later drawn misuse failed =>
    obtain ⟨result, ran⟩ := calm 0 sketch rng generator later rfl more drawn
    cases failed.symm.trans ran
  | case3 sketch rng more generator later drawn b rest ran ih => exact ih (calm.of_turn (turn_of_run drawn ran))
  | case4 sketch rng more generator later drawn b rest ran ih => exact ih (calm.of_turn (turn_of_run drawn ran))
  | case5 sketch rng done => exact ⟨sketch, rfl⟩

end Setup

/-! ### Drafts -/

/-- Between one and six instructions for each emission. -/
def Draft.IsSized (draft : Draft) : Prop :=
  draft.emitted ≤ draft.program.size ∧ draft.program.size ≤ 6 * draft.emitted

theorem Draft.IsSized.isEmpty {draft : Draft} (sized : draft.IsSized) (none : draft.emitted = 0) :
    draft.program = .empty := by
  obtain ⟨-, few⟩ := sized
  rw [none, Program.size] at few
  have empty : draft.program.instrs = [] := List.length_eq_zero_iff.mp (Nat.le_zero.mp few)
  rw [Program.empty, ← empty]

theorem Adds.isSized {sketch : Sketch} {progress : Progress} {b : Builder}
    (adds : Adds sketch.builder progress b) (sized : sketch.draft.IsSized) :
    (sketch.next b progress).draft.IsSized := by
  cases adds with
  | nothing => exact sized
  | @code instrs _ snippet steps =>
    have size : b.program.size = sketch.builder.program.size + instrs.length := by
      rw [Program.size, Program.size, steps.code, List.length_append]
    obtain ⟨some, few⟩ := snippet.length
    simp only [Draft.IsSized, Sketch.draft, Sketch.next, size] at sized ⊢
    omega

namespace Setup

variable {setup : Setup} {config : SessionConfig} {rng : Rng} {draft : Draft}

/-- A sketch that nothing has been added to. -/
def blank (setup : Setup) : Sketch := ⟨setup.profile.builder, 0, 0⟩

/-- How a draft is made: by how many turns, and to which limit. -/
structure Completes (setup : Setup) (config : SessionConfig) (rng : Rng) (draft : Draft) : Prop where
  made : setup.draft config rng = .ok draft
  turns : ∃ last, draft = last.draft ∧
    setup.IsDoneAfter config setup.blank rng (draft.emitted + draft.skipped) last
  limit : draft.emitted = config.programSize ∧ draft.skipped < config.maxSkips ∨
    draft.skipped = config.maxSkips ∧ draft.emitted < config.programSize

/-- A draft is what there is of a sketch that is done. -/
theorem exists_extend_of_draft (made : setup.draft config rng = .ok draft) :
    ∃ last, setup.extend config setup.blank rng = .ok last ∧ draft = last.draft := by
  have grown : setup.draft config rng = (setup.extend config setup.blank rng).map Sketch.draft := rfl
  rw [grown] at made
  cases sketched : setup.extend config setup.blank rng with
  | error error =>
    rw [sketched] at made
    cases made
  | ok last =>
    rw [sketched] at made
    exact ⟨last, rfl, (Except.ok.inj made).symm⟩

theorem completes_of_draft (sized : config.programSize ≠ 0) (made : setup.draft config rng = .ok draft) :
    setup.Completes config rng draft := by
  obtain ⟨last, sketched, rfl⟩ := exists_extend_of_draft made
  obtain ⟨count, done⟩ := isDoneAfter_of_extend sketched
  have counters : last.emitted + last.skipped = 0 + 0 + count := by
    obtain ⟨rest, turned⟩ := done.turns
    exact counters_turns turned
  have same : last.draft.emitted + last.draft.skipped = count := by
    simp only [Sketch.draft, counters, Nat.zero_add]
  have start : setup.blank.IsWithin config := ⟨Nat.zero_le _, Nat.zero_le _, .inl (Nat.pos_of_ne_zero sized)⟩
  exact {
    made := made
    turns := ⟨last, rfl, same ▸ done⟩
    limit := (isWithin_of_extend start sketched).limit done.after }

theorem isSized_of_draft (known : ∀ entry ∈ setup.registry.entries, entry.1 ∈ Generator.known)
    (made : setup.draft config rng = .ok draft) : draft.IsSized := by
  obtain ⟨last, sketched, rfl⟩ := exists_extend_of_draft made
  have blank : setup.blank.draft.IsSized := ⟨Nat.le_refl 0, Nat.le_refl 0⟩
  exact extend_induction known (fun _ _ _ adds sized => adds.isSized sized) blank sketched

/-- A draft is made if its generators let it, by one turn for each emission and each skip. With known
generators it always is, and its size is told by its emissions. -/
theorem drafts_reach_limits (setup : Setup) (config : SessionConfig) (rng : Rng) (edits : List Registry.Edit)
    (built : setup.registry = .ofEdits edits) (heavy : setup.registry.totalWeight ≠ 0)
    (sized : config.programSize ≠ 0) :
    (setup.IsCalm config setup.blank rng → ∃ draft, setup.Completes config rng draft) ∧
    ((∀ entry ∈ setup.registry.entries, entry.1 ∈ Generator.known) →
      ∃ draft, setup.Completes config rng draft ∧ draft.IsSized ∧
        (draft.emitted = 0 → draft.program = .empty)) := by
  have sound : setup.registry.IsSound := built ▸ Registry.isSound_ofEdits edits
  have completes (calm : setup.IsCalm config setup.blank rng) : ∃ draft, setup.Completes config rng draft := by
    obtain ⟨last, grown⟩ := exists_extend sound heavy calm
    have made : setup.draft config rng = .ok last.draft := congrArg (Except.map Sketch.draft) grown
    exact ⟨last.draft, completes_of_draft sized made⟩
  refine ⟨completes, fun known => ?_⟩
  obtain ⟨draft, complete⟩ := completes (isCalm_of_known known config setup.blank rng)
  have bounded := isSized_of_draft known complete.made
  exact ⟨draft, complete, bounded, bounded.isEmpty⟩

/-- A target with the usual generators and the one that calls functions in loops. -/
def crowded : Setup := { usual with registry := .ofEdits [.addAll (Generator.base ++ Profile.v8.added)] }

/-- A target whose only generator needs integers, which there will never be. -/
def barren : Setup := { usual with registry := .ofEdits [.add .binaryOperation 1] }

/-- One program reaches its size, with as many skips as emissions. The other is given up with nothing in it. -/
theorem crowded_and_barren :
    (∃ draft, crowded.Completes eightParts (.ofSeed 4) draft ∧
      (draft.emitted, draft.skipped, draft.program.size) = (8, 8, 32) ∧ draft.IsSized) ∧
    ∃ draft, barren.Completes eightParts (.ofSeed 4) draft ∧ (draft.emitted, draft.skipped) = (0, 64) ∧
      draft.program = .empty := by
  constructor
  · have known : ∀ entry ∈ crowded.registry.entries, entry.1 ∈ Generator.known := by
      have entries : crowded.registry.entries = Generator.base ++ Profile.v8.added := by rfl
      rw [entries]
      simp [Generator.base, Profile.v8, Generator.mem_known]
    have parts : ((crowded.draft eightParts (.ofSeed 4)).map fun draft =>
        (draft.emitted, draft.skipped, draft.program.size)).toOption = some (8, 8, 32) := by decide +kernel
    obtain ⟨draft, complete, bounded, -⟩ :=
      (drafts_reach_limits crowded eightParts (.ofSeed 4) _ rfl (by decide) (by decide)).2 known
    rw [complete.made] at parts
    exact ⟨draft, complete, Option.some.inj parts, bounded⟩
  · have known : ∀ entry ∈ barren.registry.entries, entry.1 ∈ Generator.known := by
      have entries : barren.registry.entries = [(.binaryOperation, 1)] := rfl
      rw [entries]
      simp [Generator.mem_known]
    have parts : ((barren.draft eightParts (.ofSeed 4)).map fun draft =>
        (draft.emitted, draft.skipped)).toOption = some (0, 64) := by decide +kernel
    obtain ⟨draft, complete, -, empty⟩ :=
      (drafts_reach_limits barren eightParts (.ofSeed 4) _ rfl (by decide) (by decide)).2 known
    rw [complete.made] at parts
    have counts := Option.some.inj parts
    exact ⟨draft, complete, counts, empty (congrArg Prod.fst counts)⟩

end Setup

end EngineFuzz
