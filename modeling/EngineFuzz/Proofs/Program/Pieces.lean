import EngineFuzz.Proofs.Program.Layout
import EngineFuzz.Proofs.Text.Words
import Mathlib

/-!
Scripts written in pieces. Numbers, variables, operators and the names of builtins are words, and each line
is a few of them with fixed words between. Main statement: a script is its pieces written out, and each
piece ends where its word does.
-/

namespace EngineFuzz

open Text

/-! ### Words of a script -/

theorem isWord_digits (n : Nat) : isWord n.repr = true := by
  rw [isWord_iff, Nat.toList_repr]
  intro c member
  have digit := Nat.isDigit_of_mem_toDigits (by decide) (by decide) member
  exact not_isStop_of_isNameChar (by simp [isNameChar, Char.isAlphanum, digit])

@[simp] theorem isWord_append (first second : String) :
    isWord (first ++ second) = (isWord first && isWord second) := by
  simp [isWord]

@[simp] theorem isWord_repr (value : Int) : isWord value.repr = true := by
  rw [Int.repr_eq_if]
  split
  · exact isWord_digits _
  · rw [isWord_append, isWord_digits]
    rfl

/-- A number starts with a digit or a sign, and a name with neither. -/
theorem not_isName_repr (value : Int) : isName value.repr.toList = false := by
  rw [Int.repr_eq_if]
  split
  · rw [Nat.toList_repr]
    cases digits : Nat.toDigits 10 value.toNat with
    | nil => exact absurd digits Nat.toDigits_ne_nil
    | cons c cs =>
      have digit : c.isDigit = true :=
        Nat.isDigit_of_mem_toDigits (by decide) (by decide) (digits ▸ List.mem_cons_self)
      simp [isName, digit]
  · rw [String.toList_append]
    rfl

namespace Var

@[simp] theorem text_inj {v w : Var} : v.text = w.text ↔ v = w := by
  cases v
  cases w
  simp [text, index, Nat.repr_inj, UInt32.toNat_inj]

@[simp] theorem isWord_text (v : Var) : isWord v.text = true := by
  rw [text, isWord_append, isWord_digits]
  rfl

/-- The pieces of a list of variables, and of the bracket after it. -/
def listPieces : List Var → List Piece
  | [] => [⟨"", ')'⟩]
  | [v] => [⟨v.text, ')'⟩]
  | v :: w :: vs => ⟨v.text, ','⟩ :: ⟨"", ' '⟩ :: listPieces (w :: vs)

theorem writtenOut_listPieces (vs : List Var) :
    writtenOut (listPieces vs) = (listText vs).toList ++ [')'] := by
  fun_induction listPieces vs with
  | case1 => rfl
  | case2 v => simp [listText, writtenOut, Piece.written]
  | case3 v w vs ih =>
    rw [writtenOut_cons, writtenOut_cons, ih]
    simp [listText, Piece.written]

@[simp] theorem isCut_listPieces (vs : List Var) : (listPieces vs).all Piece.isCut = true := by
  fun_induction listPieces vs with
  | case1 => rfl
  | case2 v =>
    simp only [List.all_cons, Piece.isCut, isWord_text]
    rfl
  | case3 v w vs ih =>
    simp only [List.all_cons, ih, Piece.isCut, isWord_text]
    rfl

/-- A list ends at its bracket, whatever follows. -/
theorem eq_of_listPieces {vs ws : List Var} {rest rest' : List Piece}
    (same : listPieces vs ++ rest = listPieces ws ++ rest') : vs = ws ∧ rest = rest' := by
  fun_induction listPieces vs generalizing ws with
  | case1 =>
    match ws with
    | [] => simpa [listPieces] using same
    | [w] => simp [listPieces, text] at same
    | w :: w' :: ws => simp [listPieces] at same
  | case2 v =>
    match ws with
    | [] => simp [listPieces, text] at same
    | [w] => simpa [listPieces] using same
    | w :: w' :: ws => simp [listPieces] at same
  | case3 v v' vs ih =>
    match ws with
    | [] => simp [listPieces] at same
    | [w] => simp [listPieces] at same
    | w :: w' :: ws =>
      simp only [listPieces, List.cons_append, List.cons.injEq, Piece.mk.injEq, text_inj, and_true,
        true_and] at same
      obtain ⟨rfl, more⟩ := same
      obtain ⟨sameMore, rest⟩ := ih more
      exact ⟨congrArg _ sameMore, rest⟩

end Var

namespace Comparison

@[simp] theorem token_inj {first second : Comparison} :
    first.token = second.token ↔ first = second := by
  have member : ∀ comparison, comparison ∈ all := by
    intro comparison
    cases comparison <;> decide
  have different : (all.map token).Nodup := by decide
  exact ⟨List.inj_on_of_nodup_map different (member first) (member second), congrArg token⟩

@[simp] theorem isWord_token (comparison : Comparison) : isWord comparison.token = true := by
  cases comparison <;> rfl

end Comparison

namespace Operator

@[simp] theorem token_inj {first second : Operator} : first.token = second.token ↔ first = second := by
  have member : ∀ operator, operator ∈ all := by
    intro operator
    cases operator <;> decide
  have different : (all.map token).Nodup := by decide
  exact ⟨List.inj_on_of_nodup_map different (member first) (member second), congrArg token⟩

@[simp] theorem isWord_token (operator : Operator) : isWord operator.token = true := by
  cases operator <;> rfl

end Operator

/-! ### Instructions -/

namespace Instr

/-- The pieces of an assignment, given those of the value. -/
def letPieces (output : Var) (value : List Piece) : List Piece :=
  ⟨"let", ' '⟩ :: ⟨output.text, ' '⟩ :: ⟨"=", ' '⟩ :: value

/-- The pieces of a line, without the blanks around it. -/
def pieces : Instr → List Piece
  | loadInteger output value => letPieces output [⟨value.toInt.repr, ';'⟩]
  | loadBuiltin output name => letPieces output [⟨name, ';'⟩]
  | binary output lhs operator rhs =>
    letPieces output [⟨lhs.text, ' '⟩, ⟨operator.token, ' '⟩, ⟨rhs.text, ';'⟩]
  | beginFunction output params _ =>
    ⟨"function", ' '⟩ :: ⟨output.text, '('⟩ :: (Var.listPieces params ++ [⟨"", ' '⟩, ⟨"", '\x7b'⟩])
  | ret value => [⟨"return", ' '⟩, ⟨value.text, ';'⟩]
  | call output function arguments =>
    letPieces output (⟨function.text, '('⟩ :: (Var.listPieces arguments ++ [⟨"", ';'⟩]))
  | beginFor index head =>
    ⟨"for", ' '⟩ :: ⟨"", '('⟩ :: letPieces index
      [⟨head.start.text, ';'⟩, ⟨"", ' '⟩,
        ⟨index.text, ' '⟩, ⟨head.comparison.token, ' '⟩, ⟨head.bound.text, ';'⟩, ⟨"", ' '⟩,
        ⟨index.text, ' '⟩, ⟨"=", ' '⟩, ⟨index.text, ' '⟩, ⟨head.operator.token, ' '⟩,
        ⟨head.step.text, ')'⟩, ⟨"", ' '⟩, ⟨"", '\x7b'⟩]
  | endFunction | endFor => [⟨"", '\x7d'⟩]

@[simp] theorem writtenOut_letPieces (output : Var) (value : List Piece) :
    writtenOut (letPieces output value) =
      ("let " ++ output.text ++ " = ").toList ++ writtenOut value := by
  simp [letPieces, Piece.written]

theorem writtenOut_pieces (instr : Instr) : writtenOut instr.pieces = instr.text.toList := by
  -- unfolded as a whole, since its equations would have the texts evaluated
  delta text
  cases instr <;> simp [pieces, Var.writtenOut_listPieces, Piece.written]

/-- Whether a builtin that is loaded has a name. -/
def isNamed : Instr → Bool
  | loadBuiltin _ name => isName name.toList
  | _ => true

theorem isCut_pieces {instr : Instr} (named : instr.isNamed = true) :
    instr.pieces.all Piece.isCut = true := by
  cases instr with
  | loadBuiltin output name =>
    have word : isWord name = true := isWord_iff.mpr (not_isStop_of_isName named)
    simp only [pieces, letPieces, List.all_cons, List.all_nil, Piece.isCut, word, Var.isWord_text]
    rfl
  | _ =>
    simp only [pieces, letPieces, List.all_cons, List.all_append, List.all_nil, Piece.isCut,
      Var.isCut_listPieces, Var.isWord_text, isWord_repr, Operator.isWord_token,
      Comparison.isWord_token]
    rfl

end Instr

/-! ### Programs -/

namespace Program

/-- Whether every builtin that is loaded has a name. -/
def isNamed (p : Program) : Bool := p.instrs.all Instr.isNamed

/-- The pieces of a script of instructions before which `depth` blocks are open. -/
def piecesFrom (depth : Nat) : List Instr → List Piece
  | [] => []
  | instr :: instrs =>
    let depth := if instr.closesBlock then depth - 1 else depth
    List.replicate (4 * depth) ⟨"", ' '⟩ ++ (instr.pieces ++ ⟨"", '\n'⟩ ::
      piecesFrom (if instr.opensBlock then depth + 1 else depth) instrs)

theorem writtenOut_blanks (count : Nat) :
    writtenOut (List.replicate count ⟨"", ' '⟩) = List.replicate count ' ' := by
  induction count with
  | zero => rfl
  | succ count ih =>
    rw [List.replicate_succ, writtenOut_cons, ih]
    rfl

theorem writtenOut_piecesFrom (depth : Nat) (instrs : List Instr) :
    writtenOut (piecesFrom depth instrs) = (scriptFrom depth instrs).toList := by
  induction instrs generalizing depth with
  | nil => rfl
  | cons instr instrs ih =>
    rw [scriptFrom_cons, String.toList_append, toList_lineAt, piecesFrom]
    simp [writtenOut_blanks, Instr.writtenOut_pieces, ih, Piece.written]

theorem isCut_piecesFrom {instrs : List Instr} (named : instrs.all Instr.isNamed = true)
    (depth : Nat) : (piecesFrom depth instrs).all Piece.isCut = true := by
  induction instrs generalizing depth with
  | nil => rfl
  | cons instr instrs ih =>
    rw [List.all_cons, Bool.and_eq_true] at named
    have blank : Piece.isCut ⟨"", ' '⟩ = true := rfl
    have feed : Piece.isCut ⟨"", '\n'⟩ = true := rfl
    simp [piecesFrom, Instr.isCut_pieces named.1, ih named.2, blank, feed]

end Program

end EngineFuzz
