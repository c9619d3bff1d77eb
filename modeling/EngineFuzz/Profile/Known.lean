import EngineFuzz.Profile.Basic

/-!
The profile of V8, and a generator that brings its optimising compiler into play.
-/

namespace EngineFuzz

namespace Generator

/-- Calls a function a hundred times over, so that it is compiled with optimisation. -/
def optimizedCall : Generator where
  name := "ForceV8TurbofanGenerator"
  inputs := [.anyFunction]
  procedure
    | [function] => do
      match ← Build.pickArguments function with
      | some arguments =>
        Build.addCountingLoop (return 100) fun _ => do
          let _ ← Build.addCall function arguments
        return .emitted
      | none => return .skipped
    | _ => return .skipped

end Generator

namespace Profile

/-- Functions that the engine's natives are reached by; the program's own script becomes the body of
`main`. -/
def v8Preamble : String :=
  "function placeholder()\x7b\x7d\n" ++
  "function PrepareFunctionForOptimization(a)\x7b%PrepareFunctionForOptimization(a);\x7d\n" ++
  "function OptimizeFunctionOnNextCall(a)\x7b%OptimizeFunctionOnNextCall(a);\x7d\n" ++
  "function NeverOptimizeFunction(a)\x7b%NeverOptimizeFunction(a);\x7d\n" ++
  "function DeoptimizeFunction(a)\x7b%DeoptimizeFunction(a);\x7d\n" ++
  "function DeoptimizeNow()\x7b%DeoptimizeNow();\x7d\n" ++
  "function OptimizeOsr()\x7b%OptimizeOsr();\x7d\n" ++
  "function main() \x7b\n"

def v8Epilogue : String := "\x7d\n%NeverOptimizeFunction(main);\nmain();\n"

def noArguments : Ty := .function [] .undefined

def takesFunction : Ty := .function [.anyFunction] .undefined

def v8 : Profile where
  arguments :=
    ["--debug-code", "--expose-gc", "--single-threaded", "--predictable",
      "--allow-natives-syntax", "--interrupt-budget=1024", "--assert-types", "--fuzzing"]
  environment := .empty
  preamble := v8Preamble
  epilogue := v8Epilogue
  edition := .es6
  crashTests :=
    ["fuzzilli('FUZZILLI_CRASH', 0)", "fuzzilli('FUZZILLI_CRASH', 1)",
      "fuzzilli('FUZZILLI_CRASH', 2)"]
  added := [(.optimizedCall, 10)]
  disabled := []
  builtins := .ofList
    [("gc", noArguments),
      ("PrepareFunctionForOptimization", takesFunction),
      ("OptimizeFunctionOnNextCall", takesFunction),
      ("NeverOptimizeFunction", takesFunction),
      ("DeoptimizeFunction", takesFunction),
      ("DeoptimizeNow", noArguments),
      ("OptimizeOsr", noArguments),
      ("placeholder", noArguments)]

/-- The built-in profiles by the names of their targets. -/
def named? : String → Option Profile
  | "v8" => some v8
  | _ => none

end Profile

namespace Generator

/-- The generators that a configuration may name. -/
def known : List Generator := base.map (·.1) ++ [optimizedCall]

end Generator

end EngineFuzz
