import EngineFuzz.Text.Lines
import Mathlib.Data.List.Basic
import Mathlib.Data.List.TakeWhile

/-!
Texts found in lines. Main statements: the lines of a text are what its line ends leave of it, and a mark,
which has neither line ends in it nor white space around it, stands in a text exactly if it stands in one of
the lines, trimmed or not.
-/

namespace EngineFuzz.Text

/-- The lines of a text. A line ends in a line feed, and a carriage return just before the line feed belongs
to the ending. What follows the last line feed is a line unless it is empty. -/
inductive HasLines : List Char → List (List Char) → Prop where
  | nil : HasLines [] []
  | last {line : List Char} (filled : line ≠ []) (whole : '\n' ∉ line) : HasLines line [line]
  | feed {line rest : List Char} {lines : List (List Char)} (whole : '\n' ∉ line)
      (bare : line.getLast? ≠ some '\r') (later : HasLines rest lines) :
      HasLines (line ++ '\n' :: rest) (line :: lines)
  | returnFeed {line rest : List Char} {lines : List (List Char)} (whole : '\n' ∉ line)
      (later : HasLines rest lines) : HasLines (line ++ '\r' :: '\n' :: rest) (line :: lines)

theorem hasLines_linesFrom {reversed : List Char} (rest : List Char) (whole : '\n' ∉ reversed) :
    HasLines (reversed.reverse ++ rest) (linesFrom reversed rest) := by
  fun_induction linesFrom reversed rest with
  | case1 reversed empty =>
    rw [List.isEmpty_iff.mp empty]
    exact .nil
  | case2 reversed filled =>
    rw [List.append_nil]
    refine .last ?_ (List.mem_reverse.not.mpr whole)
    simpa using filled
  | case3 reversed rest ih =>
    have later := ih List.not_mem_nil
    unfold endedLine
    split
    next before =>
      rw [List.reverse_cons, List.append_assoc]
      exact .returnFeed (fun feed => whole (List.mem_cons_of_mem _ (List.mem_reverse.mp feed))) later
    next noReturn =>
      refine .feed (List.mem_reverse.not.mpr whole) (fun ending => ?_) later
      rw [List.getLast?_reverse, List.head?_eq_some_iff] at ending
      obtain ⟨before, rfl⟩ := ending
      exact noReturn before rfl
  | case4 reversed c rest notFeed ih =>
    have inside : '\n' ∉ c :: reversed := by
      rw [List.mem_cons, not_or]
      exact ⟨fun same => notFeed same.symm, whole⟩
    have longer := ih inside
    rwa [List.reverse_cons, List.append_assoc] at longer

/-- What `lines` gives are the lines. -/
theorem hasLines_lines (s : String) : HasLines s.toList (lines s) :=
  hasLines_linesFrom s.toList List.not_mem_nil

theorem HasLines.whole {text : List Char} {lines : List (List Char)} (split : HasLines text lines) :
    ∀ line ∈ lines, '\n' ∉ line := by
  induction split with
  | nil => simp
  | last filled whole => simpa using whole
  | feed whole bare later ih => exact List.forall_mem_cons.mpr ⟨whole, ih⟩
  | returnFeed whole later ih => exact List.forall_mem_cons.mpr ⟨whole, ih⟩

/-! ### Parts of a text -/

variable {part left right : List Char} {c : Char}

theorem prefix_append_cons_iff (absent : c ∉ part) : part <+: left ++ c :: right ↔ part <+: left := by
  constructor
  · intro whole
    have whole' : part <+: (left ++ [c]) ++ right := by simpa using whole
    rcases Nat.lt_or_ge left.length part.length with longer | shorter
    · have through : left ++ [c] <+: part := by
        refine List.prefix_of_prefix_length_le (List.prefix_append _ right) whole' ?_
        rw [List.length_append, List.length_singleton]
        exact longer
      exact absurd (through.subset (by simp)) absent
    · exact List.prefix_of_prefix_length_le whole (List.prefix_append left _) shorter
  · exact fun start => start.trans (List.prefix_append left _)

/-- What a text without a character has in it, stands on one side of the character. -/
theorem infix_append_cons_iff (absent : c ∉ part) :
    part <:+: left ++ c :: right ↔ part <:+: left ∨ part <:+: right := by
  induction left with
  | nil =>
    have divided : part <+: [] ++ c :: right ↔ part <+: [] := prefix_append_cons_iff absent
    have start : part <+: c :: right ↔ part = [] := divided.trans List.prefix_nil
    rw [List.nil_append, List.infix_cons_iff, start, List.infix_nil]
  | cons first left ih =>
    rw [List.cons_append, List.infix_cons_iff, ih, ← List.cons_append, prefix_append_cons_iff absent,
      List.infix_cons_iff, or_assoc]

/-- What has no line end in it stands in a text exactly if it stands in a line of it. -/
theorem HasLines.infix_iff {text : List Char} {lines : List (List Char)} (split : HasLines text lines)
    (filled : part ≠ []) (noFeed : '\n' ∉ part) (noReturn : '\r' ∉ part) :
    part <:+: text ↔ ∃ line ∈ lines, part <:+: line := by
  induction split with
  | nil => simp [filled]
  | last => simp
  | feed whole bare later ih => rw [infix_append_cons_iff noFeed, ih, List.exists_mem_cons_iff]
  | @returnFeed line rest lines whole later ih =>
    have here : part <:+: '\n' :: rest ↔ part <:+: rest := by
      have divided : part <:+: [] ++ '\n' :: rest ↔ part <:+: [] ∨ part <:+: rest :=
        infix_append_cons_iff noFeed
      rwa [List.nil_append, List.infix_nil, or_iff_right filled] at divided
    rw [infix_append_cons_iff noReturn, here, ih, List.exists_mem_cons_iff]

/-! ### White space around a text -/

/-- Whether there is no white space around a text. -/
structure IsTrimmed (cs : List Char) : Prop where
  start : ∀ c ∈ cs.head?, isBlank c = false
  ending : ∀ c ∈ cs.getLast?, isBlank c = false

/-- What can be found in a line: it is not empty, has no line end in it and no white space around it. -/
structure IsMark (cs : List Char) : Prop where
  filled : cs ≠ []
  noFeed : '\n' ∉ cs
  noReturn : '\r' ∉ cs
  trimmed : IsTrimmed cs

theorem isTrimmed_iff {cs : List Char} :
    IsTrimmed cs ↔ (cs.head?.all (!isBlank ·)) = true ∧ (cs.getLast?.all (!isBlank ·)) = true := by
  simp only [Option.all_eq_true, Bool.not_eq_true', ← Option.mem_def]
  exact ⟨fun trimmed => ⟨trimmed.start, trimmed.ending⟩, fun ends => ⟨ends.1, ends.2⟩⟩

theorem isMark_iff {cs : List Char} : IsMark cs ↔ cs ≠ [] ∧ '\n' ∉ cs ∧ '\r' ∉ cs ∧ IsTrimmed cs :=
  ⟨fun mark => ⟨mark.filled, mark.noFeed, mark.noReturn, mark.trimmed⟩,
    fun all => ⟨all.1, all.2.1, all.2.2.1, all.2.2.2⟩⟩

instance (cs : List Char) : Decidable (IsTrimmed cs) := decidable_of_iff _ isTrimmed_iff.symm

instance (cs : List Char) : Decidable (IsMark cs) := decidable_of_iff _ isMark_iff.symm

theorem not_isBlank_of_head?_dropWhile {cs : List Char} :
    ∀ c ∈ (cs.dropWhile isBlank).head?, isBlank c = false := by
  intro c first
  have solid := List.head?_dropWhile_not isBlank cs
  rw [Option.mem_def.mp first] at solid
  simpa using solid

/-- Trimming takes away white space only, and all there is at the ends. -/
theorem trim_spec (cs : List Char) :
    IsTrimmed (trim cs) ∧
      ∃ left right, cs = left ++ trim cs ++ right ∧ ∀ c ∈ left ++ right, isBlank c = true := by
  let tail := cs.dropWhile isBlank
  let blanks := (tail.reverse.takeWhile isBlank).reverse
  have split : trim cs ++ blanks = tail := by
    rw [trim, ← List.reverse_append, List.takeWhile_append_dropWhile, List.reverse_reverse]
  refine ⟨⟨fun c first => ?_, fun c last => ?_⟩, cs.takeWhile isBlank, blanks, ?_, fun c member => ?_⟩
  · have started : c ∈ tail.head? := by
      rw [← split, Option.mem_def, List.head?_append, Option.mem_def.mp first, Option.some_or]
    exact not_isBlank_of_head?_dropWhile c started
  · rw [trim, List.getLast?_reverse] at last
    exact not_isBlank_of_head?_dropWhile c last
  · rw [List.append_assoc, split, List.takeWhile_append_dropWhile]
  · rcases List.mem_append.mp member with before | after
    · exact List.mem_takeWhile_imp before
    · exact List.mem_takeWhile_imp (List.mem_reverse.mp after)

/-- A mark has nothing of the white space before a text. -/
theorem infix_of_blank_append (filled : part ≠ []) (solid : ∀ c ∈ part.head?, isBlank c = false)
    (blank : ∀ c ∈ left, isBlank c = true) (found : part <:+: left ++ right) : part <:+: right := by
  induction left with
  | nil => exact found
  | cons first left ih =>
    obtain ⟨here, blank⟩ := List.forall_mem_cons.mp blank
    rcases List.infix_cons_iff.mp found with start | later
    · cases part with
      | nil => exact absurd rfl filled
      | cons c part =>
        have same : c = first := (List.cons_prefix_cons.mp start).1
        rw [← same, solid c rfl] at here
        cases here
    · exact ih blank later

theorem IsMark.infix_trim_iff (mark : IsMark part) {line : List Char} :
    part <:+: trim line ↔ part <:+: line := by
  obtain ⟨-, left, right, whole, blank⟩ := trim_spec line
  constructor
  · exact fun found => found.trans ⟨left, right, whole.symm⟩
  · intro found
    rw [whole, List.append_assoc] at found
    have rest := infix_of_blank_append mark.filled mark.trimmed.start
      (fun c before => blank c (List.mem_append_left _ before)) found
    -- The white space after the text stands before it when both are read from the end.
    rw [← List.reverse_infix, List.reverse_append] at rest
    rw [← List.reverse_infix]
    refine infix_of_blank_append (List.reverse_ne_nil_iff.mpr mark.filled) ?_ (fun c after => ?_) rest
    · rw [List.head?_reverse]
      exact mark.trimmed.ending
    · exact blank c (List.mem_append_right _ (List.mem_reverse.mp after))

end EngineFuzz.Text
