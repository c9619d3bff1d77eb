import Mathlib.Data.List.TakeWhile

/-!
Texts written word by word. A piece of a text is a word and the character that it stops at, which can be
no part of a word. Main statement: a text that is written in pieces is written in no other pieces.
-/

namespace EngineFuzz.Text

/-- The characters at which words stop. -/
def stops : List Char := [' ', '\n', '(', ')', ',', ';', '\x7b', '\x7d']

def isStop (c : Char) : Bool := stops.contains c

/-- Whether a name can have `c` in it. -/
def isNameChar (c : Char) : Bool := c.isAlphanum || c == '_' || c == '$'

/-- Whether a text is a letter, an underscore or a dollar sign, and then such characters and digits. -/
def isName : List Char → Bool
  | [] => false
  | c :: cs => isNameChar c && !c.isDigit && cs.all isNameChar

theorem not_isStop_of_isNameChar {c : Char} (char : isNameChar c = true) : isStop c = false := by
  cases stop : isStop c with
  | false => rfl
  | true =>
    have noneOfThem : stops.all (!isNameChar ·) = true := by decide
    have other := List.all_eq_true.mp noneOfThem c (List.contains_iff_mem.mp stop)
    simp [char] at other

theorem not_isStop_of_isName {name : List Char} (named : isName name = true) :
    ∀ c ∈ name, isStop c = false := by
  cases name with
  | nil => simp
  | cons c cs =>
    simp only [isName, Bool.and_eq_true, List.all_eq_true] at named
    intro d member
    rcases List.mem_cons.mp member with rfl | later
    · exact not_isStop_of_isNameChar named.1.1
    · exact not_isStop_of_isNameChar (named.2 d later)

/-- Whether `word` has no character in it at which a word stops. -/
def isWord (word : String) : Bool := word.toList.all (!isStop ·)

theorem isWord_iff {word : String} : isWord word = true ↔ ∀ c ∈ word.toList, isStop c = false := by
  simp [isWord]

/-- A word, which may be empty, and the character it stops at. -/
structure Piece where
  word : String
  stop : Char
deriving DecidableEq

namespace Piece

/-- Whether the word goes on up to the stop, and no further. -/
def isCut (piece : Piece) : Bool := isWord piece.word && isStop piece.stop

def written (piece : Piece) : List Char := piece.word.toList ++ [piece.stop]

theorem takeWhile_written {piece : Piece} (cut : piece.isCut = true) (rest : List Char) :
    (piece.written ++ rest).takeWhile (!isStop ·) = piece.word.toList := by
  rw [isCut, Bool.and_eq_true, isWord, List.all_eq_true] at cut
  rw [written, List.append_assoc, List.takeWhile_append_of_pos cut.1, List.singleton_append,
    List.takeWhile_cons_of_neg (by simp [cut.2]), List.append_nil]

/-- A piece is known by the text that starts with it. -/
theorem eq_of_written {first second : Piece} (cut : first.isCut = true) (cut' : second.isCut = true)
    {rest rest' : List Char} (same : first.written ++ rest = second.written ++ rest') :
    first = second ∧ rest = rest' := by
  have sameWord : first.word = second.word := by
    rw [← String.toList_inj, ← takeWhile_written cut rest, ← takeWhile_written cut' rest', same]
  obtain ⟨word, stop⟩ := first
  obtain ⟨word', stop'⟩ := second
  obtain rfl : word = word' := sameWord
  simpa [written] using same

end Piece

/-- The text that is written piece by piece. -/
def writtenOut (pieces : List Piece) : List Char := pieces.flatMap Piece.written

@[simp] theorem writtenOut_nil : writtenOut [] = [] := rfl

@[simp] theorem writtenOut_cons (piece : Piece) (pieces : List Piece) :
    writtenOut (piece :: pieces) = piece.written ++ writtenOut pieces := rfl

@[simp] theorem writtenOut_append (first second : List Piece) :
    writtenOut (first ++ second) = writtenOut first ++ writtenOut second := List.flatMap_append

theorem writtenOut_cons_ne_nil (piece : Piece) (pieces : List Piece) :
    writtenOut (piece :: pieces) ≠ [] := by
  simp [writtenOut_cons, Piece.written]

theorem eq_of_writtenOut {first second : List Piece} (cut : first.all Piece.isCut = true)
    (cut' : second.all Piece.isCut = true) (same : writtenOut first = writtenOut second) :
    first = second := by
  induction first generalizing second with
  | nil =>
    cases second with
    | nil => rfl
    | cons piece' second => exact absurd same.symm (writtenOut_cons_ne_nil piece' second)
  | cons piece first ih =>
    cases second with
    | nil => exact absurd same (writtenOut_cons_ne_nil piece first)
    | cons piece' second =>
      rw [List.all_cons, Bool.and_eq_true] at cut cut'
      obtain ⟨rfl, rest⟩ := Piece.eq_of_written cut.1 cut'.1 same
      rw [ih cut.2 cut'.2 rest]

end EngineFuzz.Text
