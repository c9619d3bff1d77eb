import EngineFuzz.Outcome.Classifier
import EngineFuzz.Proofs.Text.Lines

/-!
What a run is classified as, told by what can be seen on its outputs as wholes. Main statement: the rules of
precedence hold for every run, and what is quoted of a script error is the first line that tells of one.
-/

namespace EngineFuzz

/-- Whether a text stands anywhere on one of the outputs. -/
def RawRun.Prints (run : RawRun) (text : String) : Prop :=
  text.toList <:+: run.stderr.toList ∨ text.toList <:+: run.stdout.toList

def RawRun.Fails (run : RawRun) : Prop := ∃ status, run.exitStatus = some status ∧ status ≠ 0

namespace Classifier

def IsLate (c : Classifier) (run : RawRun) : Prop :=
  run.timedOut = true ∨
    ∃ budget, c.timeout = some budget ∧ budget.nanoseconds ≤ run.elapsed.nanoseconds

/-- Whether a run that was not late crashed, and how. A signal goes before a status. -/
def Crashes (c : Classifier) (run : RawRun) : Termination → Prop
  | .signal number => run.signal = some number
  | .exit status =>
    run.signal = none ∧ run.exitStatus = some status ∧ status ≠ 0 ∧ run.Prints c.crashMarker

def Complains (c : Classifier) (run : RawRun) : Prop := ∃ marker ∈ c.errorMarkers, run.Prints marker

/-- Whether a line, or a part of one, has an error marker in it. -/
def IsMarked (c : Classifier) (line : List Char) : Prop :=
  ∃ marker ∈ c.errorMarkers, marker.toList <:+: line

/-- What is told of a run with an error marker on its outputs. -/
structure Quotes (c : Classifier) (run : RawRun) (diagnostic : String) : Prop where
  /-- It is the first line with an error marker, all of standard error before standard output, without the
  white space around it. -/
  line : ∃ errors prints before line after left right,
    Text.HasLines run.stderr.toList errors ∧ Text.HasLines run.stdout.toList prints ∧
      errors ++ prints = before ++ line :: after ∧ (∀ earlier ∈ before, ¬ c.IsMarked earlier) ∧
      c.IsMarked line ∧ line = left ++ diagnostic.toList ++ right ∧
      ∀ blank ∈ left ++ right, Text.isBlank blank = true
  marked : c.IsMarked diagnostic.toList
  whole : '\n' ∉ diagnostic.toList
  trimmed : Text.IsTrimmed diagnostic.toList

/-- The rules of precedence: a timeout, a crash, a script error, success. -/
structure IsSettled (c : Classifier) (run : RawRun) (outcome : Outcome) : Prop where
  timedOut : outcome = .timedOut ↔ c.IsLate run
  crashed : ∀ termination, outcome = .crashed termination ↔ ¬ c.IsLate run ∧ c.Crashes run termination
  failed : (∃ diagnostic, outcome = .failed diagnostic) ↔
    ¬ c.IsLate run ∧ (∀ termination, ¬ c.Crashes run termination) ∧ (c.Complains run ∨ run.Fails)
  succeeded : outcome = .succeeded ↔
    ¬ c.IsLate run ∧ (∀ termination, ¬ c.Crashes run termination) ∧ ¬ c.Complains run ∧ ¬ run.Fails
  quoted : ∀ diagnostic, outcome = .failed diagnostic → c.Complains run → c.Quotes run diagnostic
  told : ∀ diagnostic, outcome = .failed diagnostic → ¬ c.Complains run →
    ∃ status, run.exitStatus = some status ∧ status ≠ 0 ∧
      diagnostic = "exit status " ++ status.toInt.repr

variable {c : Classifier} {run : RawRun}

theorem timesOut_iff : c.timesOut run = true ↔ c.IsLate run := by
  rw [timesOut, Bool.or_eq_true, Option.any_eq_true, IsLate]
  simp only [decide_eq_true_eq]

theorem hasCrashMarker_iff : c.hasCrashMarker run = true ↔ run.Prints c.crashMarker := by
  rw [hasCrashMarker, Bool.or_eq_true, Text.contains, Text.contains, Text.occursIn_iff, Text.occursIn_iff,
    RawRun.Prints]

theorem hasErrorMarker_iff {line : List Char} : c.hasErrorMarker line = true ↔ c.IsMarked line := by
  simp only [hasErrorMarker, List.any_eq_true, Text.occursIn_iff, IsMarked]

theorem exitStatus_of_status_ne_zero (failed : status run ≠ 0) : run.exitStatus = some (status run) := by
  cases exited : run.exitStatus with
  | none =>
    rw [status, exited] at failed
    exact absurd rfl failed
  | some number => rw [status, exited, Option.getD_some]

theorem status_ne_zero_iff : status run ≠ 0 ↔ run.Fails := by
  constructor
  · exact fun failed => ⟨status run, exitStatus_of_status_ne_zero failed, failed⟩
  · rintro ⟨number, exited, failed⟩
    rwa [status, exited, Option.getD_some]

/-! ### Markers in lines -/

/-- A marker stands on one of the outputs exactly if it stands in one of their lines. -/
theorem complains_iff (marks : ∀ marker ∈ c.errorMarkers, Text.IsMark marker.toList) :
    c.Complains run ↔ ∃ line ∈ Text.lines run.stderr ++ Text.lines run.stdout, c.IsMarked line := by
  have printed : ∀ marker ∈ c.errorMarkers, run.Prints marker ↔
      ∃ line ∈ Text.lines run.stderr ++ Text.lines run.stdout, marker.toList <:+: line := by
    intro marker member
    obtain ⟨filled, noFeed, noReturn, -⟩ := marks marker member
    rw [RawRun.Prints, (Text.hasLines_lines run.stderr).infix_iff filled noFeed noReturn,
      (Text.hasLines_lines run.stdout).infix_iff filled noFeed noReturn]
    simp only [List.mem_append, or_and_right, exists_or]
  constructor
  · rintro ⟨marker, member, prints⟩
    obtain ⟨line, there, found⟩ := (printed marker member).mp prints
    exact ⟨line, there, marker, member, found⟩
  · rintro ⟨line, there, marker, member, found⟩
    exact ⟨marker, member, (printed marker member).mpr ⟨line, there, found⟩⟩

theorem errorLine?_eq_none_iff (marks : ∀ marker ∈ c.errorMarkers, Text.IsMark marker.toList) :
    c.errorLine? run = none ↔ ¬ c.Complains run := by
  rw [complains_iff marks, errorLine?, List.find?_eq_none]
  simp only [hasErrorMarker_iff, not_exists, not_and]

/-- Trimming takes nothing of a marker away. -/
theorem IsMarked.trim (marks : ∀ marker ∈ c.errorMarkers, Text.IsMark marker.toList) {line : List Char}
    (marked : c.IsMarked line) : c.IsMarked (Text.trim line) := by
  obtain ⟨marker, member, found⟩ := marked
  exact ⟨marker, member, (marks marker member).infix_trim_iff.mpr found⟩

theorem quotes_of_errorLine? (marks : ∀ marker ∈ c.errorMarkers, Text.IsMark marker.toList)
    {line : List Char} (found : c.errorLine? run = some line) :
    c.Quotes run (String.ofList (Text.trim line)) := by
  obtain ⟨here, before, after, split, earlier⟩ := List.find?_eq_some_iff_append.mp found
  have marked : c.IsMarked line := hasErrorMarker_iff.mp here
  obtain ⟨trimmed, left, right, cut, blank⟩ := Text.trim_spec line
  have errors := Text.hasLines_lines run.stderr
  have prints := Text.hasLines_lines run.stdout
  have whole : '\n' ∉ line := by
    have member : line ∈ Text.lines run.stderr ++ Text.lines run.stdout := by simp [split]
    exact (List.mem_append.mp member).elim (errors.whole line) (prints.whole line)
  constructor
  · refine ⟨_, _, before, line, after, left, right, errors, prints, split, fun l member => ?_, marked, ?_, blank⟩
    · rw [← hasErrorMarker_iff]
      simpa using earlier l member
    · rwa [String.toList_ofList]
  · rw [String.toList_ofList]
    exact marked.trim marks
  · rw [String.toList_ofList]
    rw [cut] at whole
    exact fun feed => whole (List.mem_append_left _ (List.mem_append_right _ feed))
  · rwa [String.toList_ofList]

/-! ### The rules -/

/-- The rule that settles a run, of those in order the first to apply. -/
inductive Ruling (c : Classifier) (run : RawRun) : Outcome → Prop where
  | late (late : c.IsLate run) : Ruling c run .timedOut
  | crash {termination : Termination} (inTime : ¬ c.IsLate run) (crash : c.Crashes run termination) :
      Ruling c run (.crashed termination)
  | complaint {diagnostic : String} (inTime : ¬ c.IsLate run)
      (survived : ∀ termination, ¬ c.Crashes run termination) (complains : c.Complains run)
      (quotes : c.Quotes run diagnostic) : Ruling c run (.failed diagnostic)
  | status {status : Int32} (inTime : ¬ c.IsLate run) (survived : ∀ termination, ¬ c.Crashes run termination)
      (quiet : ¬ c.Complains run) (exited : run.exitStatus = some status) (failed : status ≠ 0) :
      Ruling c run (.failed ("exit status " ++ status.toInt.repr))
  | success (inTime : ¬ c.IsLate run) (survived : ∀ termination, ¬ c.Crashes run termination)
      (quiet : ¬ c.Complains run) (well : ¬ run.Fails) : Ruling c run .succeeded

theorem classify_ruling (marks : ∀ marker ∈ c.errorMarkers, Text.IsMark marker.toList) :
    c.Ruling run (c.classify run) := by
  unfold classify
  split
  next late => exact .late (timesOut_iff.mp late)
  next early =>
    have inTime : ¬ c.IsLate run := fun late => early (timesOut_iff.mpr late)
    split
    next number killed => exact .crash inTime killed
    next unharmed =>
      split
      next crash =>
        have exited := exitStatus_of_status_ne_zero crash.1
        exact .crash inTime ⟨unharmed, exited, crash.1, hasCrashMarker_iff.mp crash.2⟩
      next calm =>
        have survived : ∀ termination, ¬ c.Crashes run termination := by
          rintro (number | number) crashed
          · rw [Crashes, unharmed] at crashed
            cases crashed
          · obtain ⟨-, exited, failed, prints⟩ := crashed
            exact calm ⟨status_ne_zero_iff.mpr ⟨number, exited, failed⟩, hasCrashMarker_iff.mpr prints⟩
        split
        next line found =>
          have complains : c.Complains run := by
            by_contra quiet
            rw [(errorLine?_eq_none_iff marks).mpr quiet] at found
            cases found
          exact .complaint inTime survived complains (quotes_of_errorLine? marks found)
        next nothing =>
          have quiet := (errorLine?_eq_none_iff marks).mp nothing
          split
          next failed =>
            exact .status inTime survived quiet (exitStatus_of_status_ne_zero failed) failed
          next well => exact .success inTime survived quiet (fun fails => well (status_ne_zero_iff.mpr fails))

/-- A run crashes in one way only. -/
theorem Crashes.unique {first second : Termination} (crash : c.Crashes run first)
    (other : c.Crashes run second) : first = second := by
  cases first <;> cases second <;> simp_all [Crashes]

/-- The first rule to apply is told by what was observed. -/
theorem Ruling.isSettled {outcome : Outcome} (ruling : c.Ruling run outcome) : c.IsSettled run outcome := by
  constructor
  case timedOut =>
    cases ruling with
    | late late => exact iff_of_true rfl late
    | crash inTime | complaint inTime | status inTime | success inTime => exact iff_of_false (by simp) inTime
  case crashed =>
    intro termination
    cases ruling with
    | late late => exact iff_of_false (by simp) fun crashed => crashed.1 late
    | crash inTime crash =>
      rw [Outcome.crashed.injEq]
      exact ⟨fun same => ⟨inTime, same ▸ crash⟩, fun crashed => crash.unique crashed.2⟩
    | complaint _ survived | status _ survived | success _ survived =>
      exact iff_of_false (by simp) fun crashed => survived termination crashed.2
  case failed =>
    cases ruling with
    | late late => exact iff_of_false (by simp) fun failed => failed.1 late
    | crash inTime crash => exact iff_of_false (by simp) fun failed => failed.2.1 _ crash
    | complaint inTime survived complains quotes =>
      exact iff_of_true ⟨_, rfl⟩ ⟨inTime, survived, .inl complains⟩
    | status inTime survived quiet exited failed =>
      exact iff_of_true ⟨_, rfl⟩ ⟨inTime, survived, .inr ⟨_, exited, failed⟩⟩
    | success inTime survived quiet well =>
      exact iff_of_false (by simp) fun failed => failed.2.2.elim quiet well
  case succeeded =>
    cases ruling with
    | late late => exact iff_of_false (by simp) fun well => well.1 late
    | crash inTime crash => exact iff_of_false (by simp) fun well => well.2.1 _ crash
    | complaint inTime survived complains => exact iff_of_false (by simp) fun well => well.2.2.1 complains
    | status inTime survived quiet exited failed =>
      exact iff_of_false (by simp) fun well => well.2.2.2 ⟨_, exited, failed⟩
    | success inTime survived quiet well => exact iff_of_true rfl ⟨inTime, survived, quiet, well⟩
  case quoted =>
    rintro diagnostic rfl complains
    cases ruling with
    | complaint inTime survived _ quotes => exact quotes
    | status inTime survived quiet exited failed => exact absurd complains quiet
  case told =>
    rintro diagnostic rfl quiet
    cases ruling with
    | complaint inTime survived complains quotes => exact absurd complains quiet
    | status inTime survived _ exited failed => exact ⟨_, exited, failed, rfl⟩

/-- The rules of precedence hold of every run, for every classifier whose error markers can be found in lines. -/
theorem classify_isSettled (marks : ∀ marker ∈ c.errorMarkers, Text.IsMark marker.toList) (run : RawRun) :
    c.IsSettled run (c.classify run) := (classify_ruling marks).isSettled

theorem isMark_of_standard : ∀ marker ∈ standard.errorMarkers, Text.IsMark marker.toList := by decide

/-- A run that ended well, after an error was reported in a line of its own and the crash marker printed. -/
def forgivenRun : RawRun :=
  { RawRun.clean with
    stdout := "FUZZILLI_CRASH\n"
    stderr := "ready\r\n  Uncaught TypeError: v3 is not a function \r\n" }

theorem forgivenRun_isSettled :
    (∀ marker ∈ standard.errorMarkers, Text.IsMark marker.toList) ∧
      standard.IsSettled forgivenRun (.failed "Uncaught TypeError: v3 is not a function") := by
  have classified : standard.classify forgivenRun = .failed "Uncaught TypeError: v3 is not a function" := by
    decide +kernel
  exact ⟨isMark_of_standard, classified ▸ classify_isSettled isMark_of_standard forgivenRun⟩

end Classifier

end EngineFuzz
