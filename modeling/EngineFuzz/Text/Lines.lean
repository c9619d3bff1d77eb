/-!
Lines of a text, blanks around a text, and texts inside texts.
-/

namespace EngineFuzz.Text

/-- Whether `part` stands somewhere in `whole`. -/
def occursIn (part : List Char) : (whole : List Char) → Bool
  | [] => part.isEmpty
  | c :: whole => part.isPrefixOf (c :: whole) || occursIn part whole

theorem occursIn_iff {part whole : List Char} : occursIn part whole = true ↔ part <:+: whole := by
  induction whole with
  | nil => simp [occursIn]
  | cons c whole ih => simp [occursIn, ih, List.infix_cons_iff]

def contains (whole part : String) : Bool := occursIn part.toList whole.toList

/-- A line that ended in a line feed, given its characters last one first: a carriage return just
before the line feed belongs to the ending. -/
def endedLine : (reversed : List Char) → List Char
  | '\r' :: reversed => reversed.reverse
  | reversed => reversed.reverse

/-- The lines of what follows, when `reversed` has been read of the line begun, last character first.
What follows the last line feed is a line unless it is empty, and keeps its carriage returns. -/
def linesFrom (reversed : List Char) : List Char → List (List Char)
  | [] => if reversed.isEmpty then [] else [reversed.reverse]
  | '\n' :: rest => endedLine reversed :: linesFrom [] rest
  | c :: rest => linesFrom (c :: reversed) rest

def lines (s : String) : List (List Char) := linesFrom [] s.toList

/-- The code points that are white space, of which there are 25. -/
def isBlank (c : Char) : Bool :=
  let n := c.toNat
  (0x9 ≤ n && n ≤ 0xd) || n == 0x20 || n == 0x85 || n == 0xa0 || n == 0x1680
    || (0x2000 ≤ n && n ≤ 0x200a) || n == 0x2028 || n == 0x2029 || n == 0x202f || n == 0x205f
    || n == 0x3000

/-- A text without the white space at its ends. -/
def trim (cs : List Char) : List Char :=
  ((cs.dropWhile isBlank).reverse.dropWhile isBlank).reverse

end EngineFuzz.Text
