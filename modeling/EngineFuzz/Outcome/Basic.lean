/-!
What came of running a script on a target: the bare facts as they are observed, and the outcome that
they are reduced to.
-/

namespace EngineFuzz

/-- How a target that crashed came to its end. -/
inductive Termination where
  | signal (number : Int32)
  /-- A status other than zero, after the crash marker was printed. -/
  | exit (status : Int32)
deriving DecidableEq

inductive Outcome where
  | succeeded
  /-- The script ended in an error that the target survived. -/
  | failed (diagnostic : String)
  | crashed (termination : Termination)
  | timedOut
deriving DecidableEq

namespace Outcome

def isCrash : Outcome → Bool
  | crashed _ => true
  | _ => false

def isTimeout : Outcome → Bool
  | timedOut => true
  | _ => false

def text : Outcome → String
  | succeeded => "succeeded"
  | failed diagnostic => "failed (" ++ diagnostic ++ ")"
  | crashed (.signal number) => "crashed (signal " ++ number.toInt.repr ++ ")"
  | crashed (.exit status) => "crashed (exit status " ++ status.toInt.repr ++ ")"
  | timedOut => "timed out"

end Outcome

/-- A span of time. -/
structure Duration where
  nanoseconds : Nat
deriving DecidableEq

namespace Duration

def zero : Duration := ⟨0⟩

def ofParts (seconds nanoseconds : Nat) : Duration := ⟨seconds * 1000000000 + nanoseconds⟩

/-- Whole seconds. -/
def seconds (d : Duration) : Nat := d.nanoseconds / 1000000000

/-- What is left beside the whole seconds. -/
def fraction (d : Duration) : Nat := d.nanoseconds % 1000000000

end Duration

/-- What is observed of one run. -/
structure RawRun where
  /-- Given if the target came to an end of its own. -/
  exitStatus : Option Int32
  /-- Given if the target was killed. -/
  signal : Option Int32
  stdout : String
  stderr : String
  elapsed : Duration
  /-- Whether the run was cut off. -/
  timedOut : Bool
deriving DecidableEq

namespace RawRun

def blank : RawRun := ⟨none, none, "", "", .zero, false⟩

/-- A run that ended well and printed nothing. -/
def clean : RawRun := { blank with exitStatus := some 0 }

end RawRun

end EngineFuzz
