/-!
Decimal numbers that a reader can keep as doubles of finite value.

The reader takes no more digits than a word of 64 bits can hold, rounds them to a double, and scales
that by the double nearest to the power of ten. Each of the three steps rounds, so close to the
greatest double a number may be found too large although its own value is not, and the other way
round.
-/

namespace EngineFuzz.Double

/-- The distance between the doubles around `n`, as far as it is a whole number: there are 53
significant bits. -/
def spacing (n : Nat) : Nat := 1 <<< (n.log2 - 52)

/-- The double nearest to `n`; from half way to the one whose last bit is zero. Beyond the greatest
double it goes on as if there were more. -/
def nearest (n : Nat) : Nat :=
  let below := n / spacing n
  let rest := n % spacing n
  if 2 * rest < spacing n ∨ 2 * rest = spacing n ∧ below % 2 = 0 then below * spacing n
  else (below + 1) * spacing n

/-- The least number that is rounded past the greatest double. -/
def limit : Nat := 1 <<< 1024 - 1 <<< 970

/-- The leading digits that fit into a word of 64 bits, and how many digits are left out. -/
def leading (digits : Nat) : Nat × Nat :=
  if digits < UInt64.size then (digits, 0)
  else
    let (kept, dropped) := leading (digits / 10)
    (kept, dropped + 1)
termination_by digits
decreasing_by
  have positive : 0 < UInt64.size := by decide
  omega

/-- Whether `digits` times ten to the power `exponent` can be kept. The greatest power of ten to scale
by is 308, and a power below one makes no number too large. -/
def isFinite (digits : Nat) (exponent : Int) : Bool :=
  let (kept, dropped) := leading digits
  let exponent := exponent + dropped
  if kept = 0 ∨ exponent < 0 then true
  else if 308 < exponent then false
  else nearest kept * nearest (Nat.pow 10 exponent.toNat) < limit

end EngineFuzz.Double
