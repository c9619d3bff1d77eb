/-!
The ChaCha block function with eight rounds. The state is four rows of four words; a round mixes the
four columns, and turning the rows against each other brings the diagonals into the columns' place.
-/

namespace EngineFuzz.ChaCha

/-- Four words side by side. -/
structure Row where
  a : UInt32
  b : UInt32
  c : UInt32
  d : UInt32
deriving DecidableEq

namespace Row

def add (x y : Row) : Row := ⟨x.a + y.a, x.b + y.b, x.c + y.c, x.d + y.d⟩

def xor (x y : Row) : Row := ⟨x.a ^^^ y.a, x.b ^^^ y.b, x.c ^^^ y.c, x.d ^^^ y.d⟩

def rotateLeft (bits w : UInt32) : UInt32 := (w <<< bits) ||| (w >>> (32 - bits))

/-- Turns the bits of each word. -/
def rotate (x : Row) (bits : UInt32) : Row :=
  ⟨rotateLeft bits x.a, rotateLeft bits x.b, rotateLeft bits x.c, rotateLeft bits x.d⟩

/-- Moves each word one place to the left, the first to the end. -/
def turn (x : Row) : Row := ⟨x.b, x.c, x.d, x.a⟩

def words (x : Row) : List UInt32 := [x.a, x.b, x.c, x.d]

end Row

structure State where
  first : Row
  second : Row
  third : Row
  fourth : Row
deriving DecidableEq

namespace State

/-- Mixes every column. -/
def mix (s : State) : State :=
  let first := s.first.add s.second
  let fourth := (s.fourth.xor first).rotate 16
  let third := s.third.add fourth
  let second := (s.second.xor third).rotate 12
  let first := first.add second
  let fourth := (fourth.xor first).rotate 8
  let third := third.add fourth
  let second := (second.xor third).rotate 7
  ⟨first, second, third, fourth⟩

/-- Brings the diagonals into columns. -/
def skew (s : State) : State :=
  ⟨s.first, s.second.turn, s.third.turn.turn, s.fourth.turn.turn.turn⟩

def unskew (s : State) : State :=
  ⟨s.first, s.second.turn.turn.turn, s.third.turn.turn, s.fourth.turn⟩

def doubleRound (s : State) : State := s.mix.skew.mix.unskew

def add (s t : State) : State :=
  ⟨s.first.add t.first, s.second.add t.second, s.third.add t.third, s.fourth.add t.fourth⟩

end State

/-- Eight key words, in two rows. -/
structure Key where
  low : Row
  high : Row
deriving DecidableEq

/-- The text "expand 32-byte k" in four words. -/
def constants : Row := ⟨0x61707865, 0x3320646e, 0x79622d32, 0x6b206574⟩

/-- Sixteen words for each key and block number; the nonce is zero. -/
def block (key : Key) (number : UInt64) : State :=
  let start : State :=
    ⟨constants, key.low, key.high, ⟨number.toUInt32, (number >>> 32).toUInt32, 0, 0⟩⟩
  start.doubleRound.doubleRound.doubleRound.doubleRound.add start

end EngineFuzz.ChaCha
