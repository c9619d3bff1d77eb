import EngineFuzz.Proofs.Profile.Layering
import EngineFuzz.Proofs.Session.Merge
import EngineFuzz.Proofs.Session.Scripts
import EngineFuzz.Proofs.Session.Turns

/-!
How sessions fail. With known generators the settings are to blame, or a registry that nothing can be
drawn from, and nothing has been run by then. Main statement: a session ends with an error in these
cases and in no other, and never over a registry that a profile has been able to make.
-/

namespace EngineFuzz

namespace Setup

variable {σ : Type} {setup : Setup} {config : SessionConfig} {runner : Runner σ}

/-- Where no skip is allowed the empty program is left as it is, and nothing is drawn. -/
theorem draftFor_ok (sound : setup.registry.IsSound)
    (known : ∀ entry ∈ setup.registry.entries, entry.1 ∈ Generator.known)
    (fed : config.maxSkips ≠ 0 → setup.registry.totalWeight ≠ 0) (number iteration : Nat) :
    ∃ draft, setup.draftFor config number iteration = .ok draft := by
  unfold draftFor draft sketch
  generalize Rng.forProgram config.seed number.toUInt64 iteration.toUInt64 = rng
  have made : ∃ sketch, setup.extend config ⟨setup.profile.builder, 0, 0⟩ rng = .ok sketch := by
    by_cases unasked : config.maxSkips = 0
    · unfold extend
      simp [unasked]
    · exact exists_extend sound (fed unasked) (isCalm_of_known known config _ rng)
  obtain ⟨sketch, made⟩ := made
  exact ⟨sketch.draft, by rw [made]; rfl⟩

theorem draftFor_of_weightless (sound : setup.registry.IsSound) (sized : config.programSize ≠ 0)
    (asked : config.maxSkips ≠ 0) (light : setup.registry.totalWeight = 0) (number iteration : Nat) :
    setup.draftFor config number iteration = .error (.noneDrawn setup.registry.drawError) := by
  have more : 0 < config.programSize ∧ 0 < config.maxSkips :=
    ⟨Nat.pos_of_ne_zero sized, Nat.pos_of_ne_zero asked⟩
  unfold draftFor draft sketch extend
  rw [if_pos more, sound.draw_of_weightless light]
  rfl

end Setup

/-- A worker goes through its iterations if each has a draft. -/
theorem Worker.exists_iterate {σ : Type} {setup : Setup} {config : SessionConfig} {runner : Runner σ}
    (drafts : ∀ number iteration, ∃ draft, setup.draftFor config number iteration = .ok draft)
    (iteration : Nat) (worker : Worker) (state : σ) (count : Nat) :
    ∃ after later, iterate setup config runner iteration worker state count = (.ok after, later) := by
  induction count generalizing iteration worker state with
  | zero => exact ⟨worker, state, rfl⟩
  | succ count ih =>
    obtain ⟨draft, drawn⟩ := drafts worker.number iteration
    simp only [iterate, step, drawn]
    exact ih ..

namespace Setup

variable {σ : Type} {setup : Setup} {config : SessionConfig} {runner : Runner σ}

/-- Whether a worker has to draw, and cannot. -/
def IsStarved (setup : Setup) (config : SessionConfig) : Prop :=
  0 < config.iterations ∧ 0 < config.maxSkips ∧ setup.registry.totalWeight = 0

theorem work_ok (sound : setup.registry.IsSound)
    (known : ∀ entry ∈ setup.registry.entries, entry.1 ∈ Generator.known)
    (fed : ¬ setup.IsStarved config) (runner : Runner σ) (number : Nat) (state : σ) :
    ∃ report later, setup.work config runner number state = (.ok report, later) := by
  have goes : ∃ worker later,
      Worker.iterate setup config runner 0 (.start number) state config.iterations = (.ok worker, later) := by
    by_cases idle : config.iterations = 0
    · exact ⟨.start number, state, by rw [idle]; rfl⟩
    · refine Worker.exists_iterate (draftFor_ok sound known fun asked light => ?_) ..
      exact fed ⟨Nat.pos_of_ne_zero idle, Nat.pos_of_ne_zero asked, light⟩
  obtain ⟨worker, later, gone⟩ := goes
  exact ⟨worker.report, later, by rw [work, gone]⟩

/-- The first iteration fails before there is a script to run. -/
theorem work_of_starved (sound : setup.registry.IsSound) (sized : config.programSize ≠ 0)
    (starved : setup.IsStarved config) (number : Nat) (state : σ) :
    setup.work config runner number state = (.error (.noneDrawn setup.registry.drawError), state) := by
  obtain ⟨busy, asked, light⟩ := starved
  obtain ⟨count, same⟩ := Nat.exists_eq_succ_of_ne_zero (Nat.ne_of_gt busy)
  have none := draftFor_of_weightless sound sized (Nat.ne_of_gt asked) light
  simp only [work, same, Nat.succ_eq_add_one, Worker.iterate, Worker.step, none]

/-- In what a session ends, by its settings and its registry alone. -/
structure Settles (setup : Setup) (config : SessionConfig) (result : Except SessionError Report) :
    Prop where
  noProgramSize : result = .error .noProgramSize ↔ config.programSize = 0
  noWorkers : result = .error .noWorkers ↔ config.programSize ≠ 0 ∧ config.workers = 0
  noneDrawn : ∀ error, result = .error (.noneDrawn error) ↔ config.programSize ≠ 0 ∧
    config.workers ≠ 0 ∧ setup.IsStarved config ∧ error = setup.registry.drawError
  /-- No builder is ever misused. -/
  noMisuse : ∀ misuse, result ≠ .error (.misuse misuse)
  ok : (∃ report, result = .ok report) ↔
    config.programSize ≠ 0 ∧ config.workers ≠ 0 ∧ ¬ setup.IsStarved config

theorem settles_of_check {result : Except SessionError Report}
    (refused : ∀ error, config.check = .error error → result = .error error)
    (fails : config.check = .ok () → setup.IsStarved config →
      result = .error (.noneDrawn setup.registry.drawError))
    (succeeds : config.check = .ok () → ¬ setup.IsStarved config → ∃ report, result = .ok report) :
    setup.Settles config result := by
  by_cases sized : config.programSize = 0
  · rw [refused .noProgramSize (if_pos sized)]
    constructor <;> simp [sized]
  by_cases manned : config.workers = 0
  · rw [refused .noWorkers (by simp [SessionConfig.check, sized, manned])]
    constructor <;> simp [sized, manned]
  have valid : config.check = .ok () := SessionConfig.check_eq_ok_iff.mpr ⟨sized, manned⟩
  by_cases starved : setup.IsStarved config
  · rw [fails valid starved]
    constructor <;> simp [sized, manned, starved, eq_comm]
  · obtain ⟨report, done⟩ := succeeds valid starved
    rw [done]
    constructor <;> simp [sized, manned, starved]

theorem run_settles (sound : setup.registry.IsSound)
    (known : ∀ entry ∈ setup.registry.entries, entry.1 ∈ Generator.known) (state : σ) :
    setup.Settles config (setup.run config runner state).1 := by
  apply settles_of_check
  · intro error refused
    simp only [run, refused]
  · intro valid starved
    simp only [run, valid, work_of_starved sound (SessionConfig.check_eq_ok_iff.mp valid).1 starved]
  · intro valid fed
    obtain ⟨report, later, worked⟩ := work_ok sound known fed runner 0 state
    exact ⟨report, by simp only [run, valid, worked]⟩

theorem runAll_settles (sound : setup.registry.IsSound)
    (known : ∀ entry ∈ setup.registry.entries, entry.1 ∈ Generator.known) (states : Nat → σ) :
    setup.Settles config (setup.runAll config runner states).1 := by
  apply settles_of_check
  · intro error refused
    simp only [runAll, refused]
  · intro valid starved
    -- The worker that fails first is the first of them.
    obtain ⟨sized, manned⟩ := SessionConfig.check_eq_ok_iff.mp valid
    obtain ⟨others, crew⟩ := Nat.exists_eq_succ_of_ne_zero manned
    rw [runAll_of_valid setup runner states valid, crew, List.range_succ_eq_map, List.map_cons,
      work_of_starved sound sized starved]
    rfl
  · intro valid fed
    have each : ∀ number, ∃ report, (setup.work config runner number (states number)).1 = .ok report := by
      intro number
      obtain ⟨report, later, worked⟩ := work_ok sound known fed runner number (states number)
      exact ⟨report, by rw [worked]⟩
    choose part worked using each
    exact ⟨_, runAll_of_works valid fun number _ => worked number⟩

/-- Settings with which no session has a result. -/
def IsHopeless (setup : Setup) (config : SessionConfig) : Prop :=
  config.programSize = 0 ∨ config.workers = 0 ∨ setup.IsStarved config

theorem Settles.isHopeless {result : Except SessionError Report} {error : SessionError}
    (settles : setup.Settles config result) (failed : result = .error error) : setup.IsHopeless config := by
  by_contra hopeful
  rw [IsHopeless, not_or, not_or] at hopeful
  obtain ⟨report, done⟩ := settles.ok.mpr hopeful
  cases failed.symm.trans done

theorem work_of_isHopeless (sound : setup.registry.IsSound) (hopeless : setup.IsHopeless config)
    (valid : config.check = .ok ()) (number : Nat) (state : σ) :
    (setup.work config runner number state).2 = state := by
  obtain ⟨sized, manned⟩ := SessionConfig.check_eq_ok_iff.mp valid
  rcases hopeless with unsized | deserted | starved
  · exact absurd unsized sized
  · exact absurd deserted manned
  · rw [work_of_starved sound sized starved]

/-- A session that fails leaves its runner alone. -/
theorem run_of_isHopeless (sound : setup.registry.IsSound) (hopeless : setup.IsHopeless config)
    (runner : Runner σ) (state : σ) : (setup.run config runner state).2 = state := by
  unfold run
  split
  · rfl
  next valid => exact work_of_isHopeless sound hopeless valid 0 state

theorem runAll_of_isHopeless (sound : setup.registry.IsSound) (hopeless : setup.IsHopeless config)
    (runner : Runner σ) (states : Nat → σ) :
    (setup.runAll config runner states).2 = (List.range config.workers).map states := by
  unfold runAll
  split
  · rfl
  next valid =>
    simp only [List.map_map]
    exact List.map_congr_left fun number _ => work_of_isHopeless sound hopeless valid number (states number)

/-- A session with known generators fails for its settings or for a registry that nothing can be drawn
from, and then it has run nothing. Over a registry that a profile has made it never does, whatever is
drawn. -/
theorem sessions_settle (setup : Setup) (config : SessionConfig) (runner : Runner σ) (state : σ)
    (states : Nat → σ) (edits : List Registry.Edit) (made : setup.registry = .ofEdits edits)
    (known : ∀ entry ∈ setup.registry.entries, entry.1 ∈ Generator.known) :
    setup.Settles config (setup.run config runner state).1 ∧
    setup.Settles config (setup.runAll config runner states).1 ∧
    (∀ error, (setup.run config runner state).1 = .error error →
      (setup.run config runner state).2 = state ∧ setup.scriptsRun config runner state = []) ∧
    (∀ error, (setup.runAll config runner states).1 = .error error →
      (setup.runAll config runner states).2 = (List.range config.workers).map states ∧
        ∀ scripts ∈ setup.scriptsRunAll config runner states, scripts = []) ∧
    ∀ (layer : Profile) (registry : Registry), (∀ entry ∈ layer.added, entry.1 ∈ Generator.known) →
      layer.registryOver setup.registry = .ok registry →
      config.programSize ≠ 0 → config.workers ≠ 0 →
        (∃ report, ({ setup with registry }.run config runner state).1 = .ok report) ∧
        ∃ report, ({ setup with registry }.runAll config runner states).1 = .ok report := by
  have sound : setup.registry.IsSound := made ▸ Registry.isSound_ofEdits edits
  have one : setup.Settles config (setup.run config runner state).1 := run_settles sound known state
  have all : setup.Settles config (setup.runAll config runner states).1 := runAll_settles sound known states
  refine ⟨one, all, ?_, ?_, ?_⟩
  · intro error failed
    have hopeless := one.isHopeless failed
    refine ⟨run_of_isHopeless sound hopeless runner state, ?_⟩
    rw [scriptsRun, run_of_isHopeless sound hopeless]
    rfl
  · intro error failed
    have hopeless := all.isHopeless failed
    refine ⟨runAll_of_isHopeless sound hopeless runner states, ?_⟩
    rw [scriptsRunAll, runAll_of_isHopeless sound hopeless, List.map_map]
    exact List.forall_mem_map.mpr fun number _ => rfl
  · intro layer registry added layered sized manned
    obtain ⟨soundOver, heavy, entries⟩ := Profile.fed_of_registryOver sound layered
    have knownOver : ∀ entry ∈ registry.entries, entry.1 ∈ Generator.known := by
      intro entry member
      rcases Profile.mem_of_mem_layered (entries ▸ member) with new | old
      · exact added entry new
      · exact known entry old
    have fed : ¬ ({ setup with registry } : Setup).IsStarved config := fun starved => heavy starved.2.2
    have succeeds := And.intro sized (And.intro manned fed)
    exact ⟨(run_settles soundOver knownOver state).ok.mpr succeeds,
      (runAll_settles soundOver knownOver states).ok.mpr succeeds⟩

/-- A target with one generator, which is never drawn. -/
def famished : Setup := { usual with registry := .ofEdits [.add .integer 0] }

theorem famished_settles :
    famished.run shortSession oneMoreEdge 0 = (.error (.noneDrawn (.weightless 1)), 0) ∧
    famished.scriptsRun shortSession oneMoreEdge 0 = [] ∧
    ∃ registry, Profile.v8.registryOver famished.registry = .ok registry ∧
      ∃ report, ({ famished with registry }.runAll shortSession oneMoreEdge id).1 = .ok report := by
  have known : ∀ entry ∈ famished.registry.entries, entry.1 ∈ Generator.known := by
    have entries : famished.registry.entries = [(.integer, 0)] := rfl
    rw [entries]
    simp [Generator.mem_known]
  obtain ⟨settles, -, untouched, -, layers⟩ :=
    sessions_settle famished shortSession oneMoreEdge 0 id [.add .integer 0] rfl known
  have starved : famished.IsStarved shortSession := by
    unfold IsStarved
    decide +kernel
  have failed := (settles.noneDrawn _).mpr ⟨by decide, by decide, starved, rfl⟩
  obtain ⟨same, none⟩ := untouched _ failed
  obtain ⟨registry, layered⟩ := exists_of_isOk
    (by decide +kernel : (Profile.v8.registryOver famished.registry).isOk = true)
  have added : ∀ entry ∈ Profile.v8.added, entry.1 ∈ Generator.known := by
    simp [Profile.v8, Generator.mem_known]
  exact ⟨Prod.ext failed same, none, registry, layered,
    (layers .v8 registry added layered (by decide) (by decide)).2⟩

end Setup

end EngineFuzz
