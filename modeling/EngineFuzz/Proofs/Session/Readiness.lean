import EngineFuzz.Profile.Known
import EngineFuzz.Session.Readiness

/-!
The test at the start, by what comes of its runs. Whatever the target answers, the empty program and the crash
tests have a course that they would take if all of them were run. Main statement: the test runs the first part
of this course, as far as the first run that is not as it has to be, and its result tells which that is.
-/

namespace EngineFuzz.Readiness

/-- A crash test and what comes of it. -/
structure Trial where
  snippet : String
  outcome : Outcome

/-- Whether the target does not crash. -/
def Trial.isSurvived (trial : Trial) : Bool := !trial.outcome.isCrash

/-- What comes of the empty program and then of the crash tests. -/
structure Course where
  clean : Outcome
  trials : List Trial

variable {σ : Type}

/-- What comes of crash tests one after the other, whatever it is. -/
def trials (profile : Profile) (classifier : Classifier) (runner : Runner σ) :
    List String → σ → List Trial
  | [], _ => []
  | snippet :: snippets, state =>
    let (execution, next) := runner state (profile.embed snippet)
    ⟨snippet, classifier.classify execution.raw⟩ :: trials profile classifier runner snippets next

def course (profile : Profile) (classifier : Classifier) (runner : Runner σ) (state : σ) : Course :=
  let (execution, next) := runner state (profile.embed "")
  ⟨classifier.classify execution.raw, trials profile classifier runner profile.crashTests next⟩

/-- A note of a run: its script and its outcome. -/
def note (classifier : Classifier) (script : String) (execution : Execution) : String × Outcome :=
  (script, classifier.classify execution.raw)

/-- What there is to be noted of crash tests. -/
def notes (profile : Profile) (trials : List Trial) : List (String × Outcome) :=
  trials.map fun trial => (profile.embed trial.snippet, trial.outcome)

/-- The trials up to the first that the target survives. -/
def made (trials : List Trial) : List Trial := trials.take (trials.findIdx Trial.isSurvived + 1)

def verdict (trials : List Trial) : Except ReadinessError Unit :=
  match trials.find? Trial.isSurvived with
  | none => .ok ()
  | some trial => .error (.undetected trial.snippet trial.outcome)

/-- Whether the target survives the crash test at `i`, and none before. -/
def FailsAt (trials : List Trial) (i : Nat) (trial : Trial) : Prop :=
  trials[i]? = some trial ∧ trial.outcome.isCrash = false ∧
    ∀ earlier ∈ trials.take i, earlier.outcome.isCrash = true

namespace Course

/-- The notes of all runs of a course. -/
def runs (course : Course) (profile : Profile) : List (String × Outcome) :=
  (profile.embed "", course.clean) :: notes profile course.trials

/-- The notes of the runs that are made. -/
def calls (course : Course) (profile : Profile) : List (String × Outcome) :=
  (profile.embed "", course.clean) ::
    if course.clean = .succeeded then notes profile (made course.trials) else []

def result (course : Course) : Except ReadinessError Unit :=
  if course.clean = .succeeded then verdict course.trials else .error (.unclean course.clean)

end Course

/-- What a test has to come to, and after which runs, given the course it would take. -/
structure IsSettled (profile : Profile) (course : Course) (result : Except ReadinessError Unit)
    (calls : List (String × Outcome)) : Prop where
  snippets : course.trials.map Trial.snippet = profile.crashTests
  order : calls <+: course.runs profile
  ready : result = .ok () ↔
    course.clean = .succeeded ∧ ∀ trial ∈ course.trials, trial.outcome.isCrash = true
  calls_ready : result = .ok () → calls.length = 1 + profile.crashTests.length
  unclean : ∀ outcome, result = .error (.unclean outcome) ↔
    course.clean = outcome ∧ outcome ≠ .succeeded
  calls_unclean : ∀ outcome, result = .error (.unclean outcome) → calls.length = 1
  undetected : ∀ snippet outcome, result = .error (.undetected snippet outcome) ↔
    course.clean = .succeeded ∧ ∃ i, FailsAt course.trials i ⟨snippet, outcome⟩
  calls_undetected : ∀ i trial, course.clean = .succeeded → FailsAt course.trials i trial →
    calls.length = 2 + i

/-! ### The runs that are made -/

variable (profile : Profile) (classifier : Classifier) (runner : Runner σ)

theorem made_cons (trial : Trial) (trials : List Trial) :
    made (trial :: trials) = trial :: if trial.isSurvived then [] else made trials := by
  rw [made, List.findIdx_cons]
  cases trial.isSurvived <;> rfl

theorem map_snippet_trials (snippets : List String) (state : σ) :
    (trials profile classifier runner snippets state).map Trial.snippet = snippets := by
  induction snippets generalizing state with
  | nil => rfl
  | cons snippet snippets ih => rw [trials, List.map_cons, ih]

/-- The verdict on the crash tests is given by their outcomes alone. -/
theorem checkSnippets_fst (snippets : List String) (state : σ) :
    (checkSnippets profile classifier runner snippets state).1 =
      verdict (trials profile classifier runner snippets state) := by
  induction snippets generalizing state with
  | nil => rfl
  | cons snippet snippets ih =>
    cases ran : runner state (profile.embed snippet) with
    | mk execution next =>
      cases crash : (classifier.classify execution.raw).isCrash with
      | true =>
        simp only [checkSnippets, outcome, trials, verdict, ran, List.find?_cons, Trial.isSurvived, crash, if_true,
          Bool.not_true]
        exact ih next
      | false =>
        simp [checkSnippets, outcome, trials, verdict, ran, Trial.isSurvived, crash]

/-- A runner that takes notes has one of each crash test that is made, and nothing else is changed by it. -/
theorem checkSnippets_noting (snippets : List String) (state : σ) (before : List (String × Outcome)) :
    checkSnippets profile classifier (runner.noting (note classifier)) snippets (state, before) =
      ((checkSnippets profile classifier runner snippets state).1,
        (checkSnippets profile classifier runner snippets state).2,
        (notes profile (made (trials profile classifier runner snippets state))).reverse ++ before) := by
  induction snippets generalizing state before with
  | nil => rfl
  | cons snippet snippets ih =>
    cases ran : runner state (profile.embed snippet) with
    | mk execution next =>
      cases crash : (classifier.classify execution.raw).isCrash with
      | true =>
        simp [checkSnippets, outcome, trials, made_cons, ran, Runner.noting, Trial.isSurvived, crash, ih, notes, note]
      | false =>
        simp [checkSnippets, outcome, trials, made_cons, ran, Runner.noting, Trial.isSurvived, crash, notes, note]

theorem check_fst (state : σ) :
    (check profile classifier runner state).1 = (course profile classifier runner state).result := by
  cases ran : runner state (profile.embed "") with
  | mk execution next =>
    by_cases clean : classifier.classify execution.raw = .succeeded
    · simp [check, outcome, course, Course.result, ran, clean, checkSnippets_fst]
    · simp [check, outcome, course, Course.result, ran, clean]

/-- The whole test, with a runner that takes notes. -/
theorem check_noting (state : σ) :
    check profile classifier (runner.noting (note classifier)) (state, []) =
      ((check profile classifier runner state).1, (check profile classifier runner state).2,
        ((course profile classifier runner state).calls profile).reverse) := by
  cases ran : runner state (profile.embed "") with
  | mk execution next =>
    by_cases clean : classifier.classify execution.raw = .succeeded
    · simp [check, outcome, course, Course.calls, ran, Runner.noting, note, clean, checkSnippets_noting]
    · simp [check, outcome, course, Course.calls, ran, Runner.noting, note, clean]

/-! ### What they come to -/

variable {trials : List Trial} {trial : Trial} {i : Nat}

theorem failsAt_iff : FailsAt trials i trial ↔
    trials.findIdx Trial.isSurvived = i ∧ trials[i]? = some trial := by
  constructor
  · rintro ⟨found, survived, crashing⟩
    obtain ⟨inside, rfl⟩ := List.getElem?_eq_some_iff.mp found
    refine ⟨(List.findIdx_eq inside).mpr ⟨?_, fun j before => ?_⟩, found⟩
    · rw [Trial.isSurvived, survived, Bool.not_false]
    · have crash := crashing trials[j] (List.mem_take_iff_getElem.mpr ⟨j, by omega, rfl⟩)
      rw [Trial.isSurvived, crash, Bool.not_true]
  · rintro ⟨rfl, found⟩
    obtain ⟨inside, rfl⟩ := List.getElem?_eq_some_iff.mp found
    refine ⟨found, ?_, fun earlier member => ?_⟩
    · have survived := List.findIdx_getElem (w := inside)
      rwa [Trial.isSurvived, Bool.not_eq_true'] at survived
    · obtain ⟨j, before, rfl⟩ := List.mem_take_iff_getElem.mp member
      have crash := List.not_of_lt_findIdx (by omega : j < trials.findIdx Trial.isSurvived)
      rwa [Trial.isSurvived, Bool.not_eq_false'] at crash

/-- The survivor that is found is the first. -/
theorem find?_isSurvived_eq_some_iff :
    trials.find? Trial.isSurvived = some trial ↔ ∃ i, FailsAt trials i trial := by
  simp only [failsAt_iff, List.find?_eq_getElem?_findIdx, exists_eq_left']

theorem find?_isSurvived_eq_none_iff :
    trials.find? Trial.isSurvived = none ↔ ∀ trial ∈ trials, trial.outcome.isCrash = true := by
  simp [Trial.isSurvived]

theorem verdict_eq_ok_iff :
    verdict trials = .ok () ↔ ∀ trial ∈ trials, trial.outcome.isCrash = true := by
  rw [← find?_isSurvived_eq_none_iff, verdict]
  cases trials.find? Trial.isSurvived <;> simp

theorem verdict_eq_error_iff {error : ReadinessError} : verdict trials = .error error ↔
    ∃ i trial, FailsAt trials i trial ∧ error = .undetected trial.snippet trial.outcome := by
  rw [exists_comm]
  simp only [exists_and_right, ← find?_isSurvived_eq_some_iff, verdict]
  cases trials.find? Trial.isSurvived <;> simp [eq_comm]

theorem made_of_crashing (crashing : ∀ trial ∈ trials, trial.outcome.isCrash = true) :
    made trials = trials := by
  have none : trials.findIdx Trial.isSurvived = trials.length :=
    List.findIdx_eq_length.mpr fun trial member => by
      rw [Trial.isSurvived, crashing trial member, Bool.not_true]
  rw [made, none, List.take_of_length_le (Nat.le_succ _)]

theorem length_made_of_failsAt (fails : FailsAt trials i trial) : (made trials).length = i + 1 := by
  obtain ⟨first, found⟩ := failsAt_iff.mp fails
  obtain ⟨inside, -⟩ := List.getElem?_eq_some_iff.mp found
  rw [made, first, List.length_take, Nat.min_eq_left inside]

theorem length_notes (profile : Profile) (trials : List Trial) : (notes profile trials).length = trials.length :=
  List.length_map _

/-- A course that begins well is settled by its crash tests. -/
theorem Course.isSettled_of_clean {course : Course} {profile : Profile} (clean : course.clean = .succeeded)
    (snippets : course.trials.map Trial.snippet = profile.crashTests) :
    IsSettled profile course (verdict course.trials)
      ((profile.embed "", course.clean) :: notes profile (made course.trials)) where
  snippets := snippets
  order := List.cons_prefix_cons.mpr ⟨rfl, (List.take_prefix _ _).map _⟩
  ready := by rw [verdict_eq_ok_iff, and_iff_right clean]
  calls_ready := by
    intro ready
    rw [made_of_crashing (verdict_eq_ok_iff.mp ready), List.length_cons, length_notes, ← snippets, List.length_map,
      Nat.add_comm]
  unclean := by
    intro outcome
    rw [verdict_eq_error_iff, clean]
    constructor
    · rintro ⟨i, trial, -, same⟩
      cases same
    · rintro ⟨rfl, other⟩
      exact absurd rfl other
  calls_unclean := by
    intro outcome unclean
    obtain ⟨i, trial, -, same⟩ := verdict_eq_error_iff.mp unclean
    cases same
  undetected := by
    intro snippet outcome
    rw [verdict_eq_error_iff, and_iff_right clean]
    constructor
    · rintro ⟨i, trial, fails, same⟩
      cases same
      exact ⟨i, fails⟩
    · rintro ⟨i, fails⟩
      exact ⟨i, _, fails, rfl⟩
  calls_undetected := by
    intro i trial _ fails
    rw [List.length_cons, length_notes, length_made_of_failsAt fails, Nat.add_comm 2]

theorem Course.isSettled {course : Course} {profile : Profile}
    (snippets : course.trials.map Trial.snippet = profile.crashTests) :
    IsSettled profile course course.result (course.calls profile) := by
  by_cases clean : course.clean = .succeeded
  · rw [result, calls, if_pos clean, if_pos clean]
    exact isSettled_of_clean clean snippets
  · rw [result, calls, if_neg clean, if_neg clean]
    exact {
      snippets := snippets
      order := List.cons_prefix_cons.mpr ⟨rfl, List.nil_prefix⟩
      ready := by simp [clean]
      calls_ready := by simp
      unclean := by
        intro outcome
        simp only [Except.error.injEq, ReadinessError.unclean.injEq]
        exact (and_iff_left_of_imp fun same => same ▸ clean).symm
      calls_unclean := fun _ _ => rfl
      undetected := by simp [clean]
      calls_undetected := fun _ _ succeeded => absurd succeeded clean }

/-- The test runs its scripts in order as far as it has to, and comes to what they tell. -/
theorem check_isSettled (state : σ) :
    ∃ calls, check profile classifier (runner.noting (note classifier)) (state, []) =
        ((check profile classifier runner state).1, (check profile classifier runner state).2, calls.reverse) ∧
      IsSettled profile (course profile classifier runner state) (check profile classifier runner state).1 calls := by
  refine ⟨_, check_noting profile classifier runner state, ?_⟩
  rw [check_fst]
  exact Course.isSettled (map_snippet_trials profile classifier runner profile.crashTests _)

/-- A target that crashes once. -/
def crashesOnce : Runner Nat := fun count _ =>
  (⟨if count = 1 then { RawRun.blank with signal := some 11 } else .clean, []⟩, count + 1)

example : check { Profile.v8 with crashTests := ["%Crash()", "%Crash()", "%Abort()"] } .standard crashesOnce 0 =
    (.error (.undetected "%Crash()" .succeeded), 3) := by rfl

end EngineFuzz.Readiness
