import EngineFuzz.Proofs.Generator.Snippet
import EngineFuzz.Proofs.Ty.Order

/-!
The snippets that known generators add are typed. A function gives back what it likes, since nothing
is promised of its result; the arguments of a call fit when they are picked, and go on fitting where the
call stands.
-/

namespace EngineFuzz

namespace Snippet

variable {b after : Builder} {instrs : List Instr}

/-- Blocks that a snippet opens it closes. -/
theorem afterAll_frames (snippet : Snippet b instrs) (frames : Frames) : frames.afterAll instrs = frames := by
  cases snippet <;> rfl

/-- A variable made in a function without a promised result may be given back. -/
theorem ret_fits (value : Var) (steps : b.Steps instrs after)
    (made : value ∈ instrs.flatMap Instr.outputs) (inputs : List Ty) (frames : Frames) :
    (Instr.ret value).Fits after.types.toList (some ⟨inputs, .anything⟩ :: frames) := by
  obtain ⟨ty, typed⟩ := steps.typed made
  exact ⟨⟨inputs, .anything⟩, ty, rfl, typed, ty.fits_anything⟩

/-- A call fits at the end of what is added, since types once given are kept. -/
theorem call_fits {function : Var} {arguments : List Var} (numbered : b.Numbered)
    (callable : function ∈ b.visible .anyFunction) (picks : b.Picks function arguments)
    (steps : b.Steps instrs after) (output : Var) (frames : Frames) :
    (Instr.call output function arguments).Fits after.types.toList frames := by
  obtain ⟨more, types⟩ := steps.types_append
  rw [types]
  exact (picks.callFits callable numbered).append more

theorem fits (snippet : Snippet b instrs) (numbered : b.Numbered) (steps : b.Steps instrs after)
    (frames : Frames) : Program.FitsFrom after.types.toList frames instrs := by
  cases snippet with
  | integer => exact ⟨trivial, trivial⟩
  | builtin => exact ⟨trivial, trivial⟩
  | binary => exact ⟨trivial, trivial⟩
  | constantFunction output constant arity =>
    have returned := ret_fits constant steps (by simp [Instr.outputs]) (.replicate arity .anything) frames
    exact ⟨trivial, trivial, returned, trivial, trivial⟩
  | sumFunction output first constant sum arity =>
    have returned := ret_fits sum steps (by simp [Instr.outputs]) (.replicate arity .anything) frames
    exact ⟨trivial, trivial, trivial, returned, trivial, trivial⟩
  | call output function arguments callable picks =>
    exact ⟨call_fits numbered callable picks steps output frames, trivial⟩
  | loop => exact ⟨trivial, trivial, trivial, trivial, trivial, trivial, trivial⟩
  | callLoop start bound step index output function arguments callable picks =>
    have called := call_fits numbered callable picks steps output (none :: frames)
    exact ⟨trivial, trivial, trivial, trivial, called, trivial, trivial⟩

end Snippet

end EngineFuzz
