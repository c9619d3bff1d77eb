import EngineFuzz.Proofs.Program.Pieces

/-!
What can be read back from a script. From its pieces one instruction after the other is known, as long as
the builtins have names. Main statement: two programs have one script exactly if they are alike, which
leaves open how functions are declared and what kind of block an end closes; of two nested programs, the
kinds are the same as well.
-/

namespace EngineFuzz

open Text

namespace Instr

/-- The end of a loop or of a function. -/
def ending (loop : Bool) : Instr := if loop then endFor else endFunction

theorem closesBlock_iff {instr : Instr} : instr.closesBlock = true ↔ ∃ loop, instr = ending loop := by
  cases instr <;> simp [closesBlock, ending]

/-- The same instruction, except for what a function declares its parameters and its result to be. -/
inductive SameCode : Instr → Instr → Prop where
  | same (instr : Instr) : SameCode instr instr
  | declared (output : Var) (params : List Var) (signature signature' : Signature) :
    SameCode (beginFunction output params signature) (beginFunction output params signature')

/-- The same code, or an end for an end, of whichever kinds of block. -/
inductive Alike : Instr → Instr → Prop where
  | code {first second : Instr} (same : SameCode first second) : Alike first second
  | ends {first second : Instr} (closing : first.closesBlock = true)
    (closing' : second.closesBlock = true) : Alike first second

theorem Alike.refl (instr : Instr) : Alike instr instr := .code (.same instr)

/-- Instructions that are alike are written in one way, and blocks go on after them in one way. -/
theorem Alike.written {first second : Instr} (alike : Alike first second) :
    first.text = second.text ∧ first.opensBlock = second.opensBlock ∧
      first.closesBlock = second.closesBlock := by
  cases alike with
  | code same => cases same <;> exact ⟨rfl, rfl, rfl⟩
  | ends closing closing' =>
    obtain ⟨loop, rfl⟩ := closesBlock_iff.mp closing
    obtain ⟨loop', rfl⟩ := closesBlock_iff.mp closing'
    cases loop <;> cases loop' <;> exact ⟨rfl, rfl, rfl⟩

theorem repr_ne_of_isName {name : String} (named : isName name.toList = true) (value : Int) :
    value.repr ≠ name := by
  rintro rfl
  rw [not_isName_repr] at named
  cases named

section

variable {first second : Instr} {rest rest' : List Piece}

/-- What an instruction is like is known from the pieces that start with its own. -/
theorem alike_of_pieces (named : first.isNamed = true) (named' : second.isNamed = true)
    (same : first.pieces ++ rest = second.pieces ++ rest') :
    Alike first second ∧ rest = rest' := by
  -- two constructors differ in a fixed word or in the stop after a word, except for an integer and a
  -- builtin, which differ in how the value starts
  cases first with
  | loadInteger output value =>
    cases second with
    | loadInteger output' value' =>
      obtain ⟨rfl, rfl, rfl⟩ : output = output' ∧ value = value' ∧ rest = rest' := by
        simpa [pieces, letPieces, Int.repr_inj, Int64.toInt_inj] using same
      exact ⟨.refl _, rfl⟩
    | loadBuiltin output' name =>
      have sameWord : value.toInt.repr = name := by
        simp only [pieces, letPieces, List.cons_append, List.cons.injEq, Piece.mk.injEq] at same
        exact same.2.2.2.1.1
      exact absurd sameWord (repr_ne_of_isName named' value.toInt)
    | _ => simp [pieces, letPieces] at same
  | loadBuiltin output name =>
    cases second with
    | loadInteger output' value =>
      have sameWord : name = value.toInt.repr := by
        simp only [pieces, letPieces, List.cons_append, List.cons.injEq, Piece.mk.injEq] at same
        exact same.2.2.2.1.1
      exact absurd sameWord.symm (repr_ne_of_isName named value.toInt)
    | loadBuiltin output' name' =>
      obtain ⟨rfl, rfl, rfl⟩ : output = output' ∧ name = name' ∧ rest = rest' := by
        simpa [pieces, letPieces] using same
      exact ⟨.refl _, rfl⟩
    | _ => simp [pieces, letPieces] at same
  | binary output lhs operator rhs =>
    cases second with
    | binary output' lhs' operator' rhs' =>
      obtain ⟨rfl, rfl, rfl, rfl, rfl⟩ : output = output' ∧ lhs = lhs' ∧ operator = operator' ∧
          rhs = rhs' ∧ rest = rest' := by
        simpa [pieces, letPieces] using same
      exact ⟨.refl _, rfl⟩
    | _ => simp [pieces, letPieces] at same
  | beginFunction output params signature =>
    cases second with
    | beginFunction output' params' signature' =>
      obtain ⟨rfl, more⟩ : output = output' ∧
          Var.listPieces params ++ (⟨"", ' '⟩ :: ⟨"", '\x7b'⟩ :: rest) =
            Var.listPieces params' ++ (⟨"", ' '⟩ :: ⟨"", '\x7b'⟩ :: rest') := by
        simpa [pieces] using same
      obtain ⟨rfl, more⟩ := Var.eq_of_listPieces more
      obtain rfl : rest = rest' := by simpa using more
      exact ⟨.code (.declared ..), rfl⟩
    | _ => simp [pieces, letPieces] at same
  | ret value =>
    cases second with
    | ret value' =>
      obtain ⟨rfl, rfl⟩ : value = value' ∧ rest = rest' := by simpa [pieces] using same
      exact ⟨.refl _, rfl⟩
    | _ => simp [pieces, letPieces] at same
  | call output function arguments =>
    cases second with
    | call output' function' arguments' =>
      obtain ⟨rfl, rfl, more⟩ : output = output' ∧ function = function' ∧
          Var.listPieces arguments ++ (⟨"", ';'⟩ :: rest) =
            Var.listPieces arguments' ++ (⟨"", ';'⟩ :: rest') := by
        simpa [pieces, letPieces] using same
      obtain ⟨rfl, more⟩ := Var.eq_of_listPieces more
      obtain rfl : rest = rest' := by simpa using more
      exact ⟨.refl _, rfl⟩
    | _ => simp [pieces, letPieces] at same
  | beginFor index head =>
    cases second with
    | beginFor index' head' =>
      obtain ⟨start, comparison, bound, operator, step⟩ := head
      obtain ⟨start', comparison', bound', operator', step'⟩ := head'
      obtain ⟨rfl, rfl, -, rfl, rfl, -, -, rfl, rfl, rfl⟩ : index = index' ∧ start = start' ∧
          index = index' ∧ comparison = comparison' ∧ bound = bound' ∧ index = index' ∧
          index = index' ∧ operator = operator' ∧ step = step' ∧ rest = rest' := by
        simpa [pieces, letPieces] using same
      exact ⟨.refl _, rfl⟩
    | _ => simp [pieces, letPieces] at same
  | endFunction | endFor =>
    cases second with
    | endFunction | endFor =>
      obtain rfl : rest = rest' := by simpa [pieces] using same
      exact ⟨.ends rfl rfl, rfl⟩
    | _ => simp [pieces, letPieces] at same

/-- No line starts with a blank of its own. -/
theorem head?_pieces (instr : Instr) (rest : List Piece) :
    (instr.pieces ++ rest).head? ≠ some ⟨"", ' '⟩ := by
  cases instr <;> simp [pieces, letPieces]

end

end Instr

namespace Program

open Statement

/-- Blanks end where something else follows. -/
theorem eq_of_blanks {α : Type} {blank : α} {count count' : Nat} {first second : List α}
    (start : first.head? ≠ some blank) (start' : second.head? ≠ some blank)
    (same : List.replicate count blank ++ first = List.replicate count' blank ++ second) :
    first = second := by
  induction count generalizing count' with
  | zero =>
    cases count' with
    | zero => exact same
    | succ count' =>
      have blankFirst : first.head? = some blank := congrArg List.head? same
      exact absurd blankFirst start
  | succ count ih =>
    cases count' with
    | zero =>
      have blankFirst : second.head? = some blank := congrArg List.head? same.symm
      exact absurd blankFirst start'
    | succ count' => exact ih (List.cons.inj same).2

theorem alike_of_piecesFrom {first second : List Instr} {depth depth' : Nat}
    (named : first.all Instr.isNamed = true) (named' : second.all Instr.isNamed = true)
    (same : piecesFrom depth first = piecesFrom depth' second) :
    List.Forall₂ Instr.Alike first second := by
  induction first generalizing second depth depth' with
  | nil =>
    cases second with
    | nil => exact .nil
    | cons instr' second => simp [piecesFrom] at same
  | cons instr first ih =>
    cases second with
    | nil => simp [piecesFrom] at same
    | cons instr' second =>
      rw [List.all_cons, Bool.and_eq_true] at named named'
      have line := eq_of_blanks (instr.head?_pieces _) (instr'.head?_pieces _) same
      obtain ⟨alike, more⟩ := Instr.alike_of_pieces named.1 named'.1 line
      exact .cons alike (ih named.2 named'.2 (List.cons.inj more).2)

theorem scriptFrom_of_alike {first second : List Instr} (alike : List.Forall₂ Instr.Alike first second)
    (depth : Nat) : scriptFrom depth first = scriptFrom depth second := by
  induction alike generalizing depth with
  | nil => rfl
  | cons now later ih =>
    obtain ⟨text, opens, closes⟩ := now.written
    rw [scriptFrom_cons, scriptFrom_cons, text, opens, closes, ih]

theorem script_eq_iff {p q : Program} (named : p.isNamed = true) (named' : q.isNamed = true) :
    p.script = q.script ↔ List.Forall₂ Instr.Alike p.instrs q.instrs := by
  refine ⟨fun same => ?_, fun alike => scriptFrom_of_alike alike 0⟩
  have samePieces : piecesFrom 0 p.instrs = piecesFrom 0 q.instrs := by
    refine eq_of_writtenOut (isCut_piecesFrom named 0) (isCut_piecesFrom named' 0) ?_
    rw [writtenOut_piecesFrom, writtenOut_piecesFrom]
    exact congrArg String.toList same
  exact alike_of_piecesFrom named named' samePieces

-- Without its name, a builtin can look like an integer.
example : (Program.mk [.loadBuiltin ⟨0⟩ "5"]).script = (Program.mk [.loadInteger ⟨0⟩ 5]).script := by
  decide

/-! ### Kinds of blocks -/

/-- The blocks that are open after an instruction, innermost first, each with whether it is a loop. There
are none to tell of after an end that does not fit the block it closes. -/
def openAfter? (opened : List Bool) : Instr → Option (List Bool)
  | .beginFunction .. => some (false :: opened)
  | .beginFor .. => some (true :: opened)
  | .endFunction => if opened.head? = some false then some opened.tail else none
  | .endFor => if opened.head? = some true then some opened.tail else none
  | _ => some opened

/-- An end fits one kind of block only. -/
theorem openAfter?_ending {opened next : List Bool} {loop : Bool} :
    openAfter? opened (Instr.ending loop) = some next ↔ opened = loop :: next := by
  cases opened <;> cases loop <;> simp [openAfter?, Instr.ending]

theorem openAfter?_flat (opened : List Bool) {instr : Instr}
    (flat : instr.opensBlock = false ∧ instr.closesBlock = false) :
    openAfter? opened instr = some opened := by
  cases instr with
  | beginFunction | beginFor => cases flat.1
  | endFunction | endFor => cases flat.2
  | _ => rfl

-- By recursion on the tree, whatever is open around it: what a statement opens it closes again.
mutual

theorem foldlM_openAfter?_flatten (opened : List Bool) : (s : Statement) →
    (flatten s).foldlM openAfter? opened = some opened
  | .simple instr flat => by
    rw [flatten, List.foldlM_cons, openAfter?_flat opened flat]
    rfl
  | .function output params signature body => by
    rw [flatten, List.foldlM_cons]
    simp [openAfter?, List.foldlM_append, foldlM_openAfter?_flattenAll (false :: opened) body]
  | .loop index head body => by
    rw [flatten, List.foldlM_cons]
    simp [openAfter?, List.foldlM_append, foldlM_openAfter?_flattenAll (true :: opened) body]

theorem foldlM_openAfter?_flattenAll (opened : List Bool) : (statements : List Statement) →
    (flattenAll statements).foldlM openAfter? opened = some opened
  | [] => rfl
  | s :: statements => by
    rw [flattenAll, List.foldlM_append, foldlM_openAfter?_flatten opened s]
    exact foldlM_openAfter?_flattenAll opened statements

end

/-- Two ends that fit the blocks around them are of one kind. -/
theorem sameCode_of_openAfter? {first second : Instr} (alike : Instr.Alike first second)
    {opened next next' : List Bool} (fits : openAfter? opened first = some next)
    (fits' : openAfter? opened second = some next') : Instr.SameCode first second ∧ next = next' := by
  cases alike with
  | code same =>
    have sameNext : openAfter? opened first = openAfter? opened second := by
      cases same <;> rfl
    exact ⟨same, Option.some.inj (fits.symm.trans (sameNext.trans fits'))⟩
  | ends closing closing' =>
    obtain ⟨loop, rfl⟩ := Instr.closesBlock_iff.mp closing
    obtain ⟨loop', rfl⟩ := Instr.closesBlock_iff.mp closing'
    obtain rfl := openAfter?_ending.mp fits
    obtain ⟨rfl, rfl⟩ := List.cons.inj (openAfter?_ending.mp fits')
    exact ⟨.same _, rfl⟩

theorem sameCode_of_foldlM {first second : List Instr} (alike : List.Forall₂ Instr.Alike first second)
    {opened : List Bool} {last last' : List Bool} (fits : first.foldlM openAfter? opened = some last)
    (fits' : second.foldlM openAfter? opened = some last') :
    List.Forall₂ Instr.SameCode first second := by
  induction alike generalizing opened with
  | nil => exact .nil
  | cons now later ih =>
    obtain ⟨next, step, more⟩ := Option.bind_eq_some_iff.mp fits
    obtain ⟨next', step', more'⟩ := Option.bind_eq_some_iff.mp fits'
    obtain ⟨same, rfl⟩ := sameCode_of_openAfter? now step step'
    exact .cons same (ih more more')

/-- Two programs whose builtins have names have one script exactly if they have as many instructions and
these are alike, each to each. If both are nested as well, they differ in nothing but how their functions are
declared. -/
theorem scripts_tell_apart {p q : Program} (named : p.isNamed = true) (named' : q.isNamed = true) :
    (p.script = q.script ↔ List.Forall₂ Instr.Alike p.instrs q.instrs) ∧
    (p.IsNested → q.IsNested → p.script = q.script →
      List.Forall₂ Instr.SameCode p.instrs q.instrs) := by
  refine ⟨script_eq_iff named named', ?_⟩
  rintro ⟨statements, rfl⟩ ⟨statements', rfl⟩ same
  exact sameCode_of_foldlM ((script_eq_iff named named').mp same)
    (foldlM_openAfter?_flattenAll [] statements) (foldlM_openAfter?_flattenAll [] statements')

/-- A function of two parameters, declared with `signature`, in which `last` is the end. -/
def shifting (signature : Signature) (last : Instr) : Program :=
  ⟨[.beginFunction ⟨0⟩ [⟨1⟩, ⟨2⟩] signature, .loadBuiltin ⟨3⟩ "$_", .binary ⟨4⟩ ⟨1⟩ .shiftLeft ⟨2⟩, last]⟩

theorem isNested_shifting (signature : Signature) : (shifting signature .endFunction).IsNested :=
  ⟨[.function ⟨0⟩ [⟨1⟩, ⟨2⟩] signature
    [.simple (.loadBuiltin ⟨3⟩ "$_") ⟨rfl, rfl⟩, .simple (.binary ⟨4⟩ ⟨1⟩ .shiftLeft ⟨2⟩) ⟨rfl, rfl⟩]], rfl⟩

theorem alike_shifting (signature signature' : Signature) {last last' : Instr}
    (closing : last.closesBlock = true) (closing' : last'.closesBlock = true) :
    List.Forall₂ Instr.Alike (shifting signature last).instrs (shifting signature' last').instrs :=
  .cons (.code (.declared ..)) (.cons (.refl _) (.cons (.refl _) (.cons (.ends closing closing') .nil)))

/-- A script that two programs have which differ in how a function is declared and in what ends it, and one
that two nested programs have. -/
theorem shifting_told_apart :
    (shifting ⟨[.integer, .integer], .integer⟩ .endFunction).script =
      (shifting ⟨[.anything, .anything], .anything⟩ .endFor).script ∧
    List.Forall₂ Instr.SameCode (shifting ⟨[.integer, .integer], .integer⟩ .endFunction).instrs
      (shifting ⟨[.anything, .anything], .anything⟩ .endFunction).instrs := by
  constructor
  · exact (scripts_tell_apart (by decide) (by decide)).1.mpr (alike_shifting _ _ rfl rfl)
  · have readings := scripts_tell_apart
      (p := shifting ⟨[.integer, .integer], .integer⟩ .endFunction)
      (q := shifting ⟨[.anything, .anything], .anything⟩ .endFunction) (by decide) (by decide)
    exact readings.2 (isNested_shifting _) (isNested_shifting _)
      (readings.1.mpr (alike_shifting _ _ rfl rfl))

end Program

end EngineFuzz
