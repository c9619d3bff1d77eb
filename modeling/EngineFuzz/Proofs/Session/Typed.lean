import EngineFuzz.Proofs.Generator.Typing
import EngineFuzz.Proofs.Random.Urn
import EngineFuzz.Proofs.Session.Transcript

/-!
Programs that are made with known generators alone. Whatever holds of a program and its types at the
start, and is kept by every snippet, holds at the end. Main statement: their calls and returns are typed.
-/

namespace EngineFuzz

/-- A sketch after one more run of a generator, which has left `b`. -/
def Sketch.next (sketch : Sketch) (b : Builder) : Progress → Sketch
  | .emitted => ⟨b, sketch.emitted + 1, sketch.skipped⟩
  | .skipped => ⟨b, sketch.emitted, sketch.skipped + 1⟩

/-- A builder of a program that is typed so far, with no block left open. -/
structure Builder.IsTyped (b : Builder) : Prop where
  numbered : b.Numbered
  closed : Frames.afterAll [] b.program.instrs = []
  fits : b.program.IsTyped b.types.toList

theorem Builder.isTyped_start (builtins : Table Ty) : (start builtins).IsTyped :=
  ⟨numbered_start builtins, rfl, trivial⟩

theorem Adds.isTyped {b after : Builder} {progress : Progress} (adds : Adds b progress after)
    (typed : b.IsTyped) : after.IsTyped := by
  cases adds with
  | nothing => exact typed
  | @code instrs after snippet steps =>
    have code : after.program.instrs = b.program.instrs ++ instrs := steps.code
    obtain ⟨more, types⟩ := steps.types_append
    have before : Program.FitsFrom after.types.toList [] b.program.instrs :=
      types ▸ typed.fits.moreTypes more
    have frames : Frames.afterAll [] after.program.instrs = [] := by
      rw [code, Frames.afterAll_append, typed.closed, snippet.afterAll_frames]
    refine ⟨steps.numbered typed.numbered, frames, ?_⟩
    rw [Program.IsTyped, code]
    apply before.append
    rw [typed.closed]
    exact snippet.fits typed.numbered steps []

namespace Setup

variable {setup : Setup} {config : SessionConfig} {rng : Rng}

/-- What known generators keep is true of a sketch at the end if it is at the start. -/
theorem extend_induction {invariant : Sketch → Prop} {sketch last : Sketch}
    (known : ∀ entry ∈ setup.registry.entries, entry.1 ∈ Generator.known)
    (kept : ∀ sketch progress b, Adds sketch.builder progress b → invariant sketch →
      invariant (sketch.next b progress))
    (first : invariant sketch) (made : setup.extend config sketch rng = .ok last) :
    invariant last := by
  fun_induction setup.extend config sketch rng with
  | case1 => cases made
  | case2 => cases made
  | case3 sketch rng more generator later drawn b rest ran ih =>
    obtain ⟨weight, member⟩ := Urn.mem_of_draw drawn
    have adds : Adds sketch.builder .emitted b := Generator.adds_of_known (known _ member) ran
    exact ih (kept sketch .emitted b adds first) made
  | case4 sketch rng more generator later drawn b rest ran ih =>
    obtain ⟨weight, member⟩ := Urn.mem_of_draw drawn
    have adds : Adds sketch.builder .skipped b := Generator.adds_of_known (known _ member) ran
    exact ih (kept sketch .skipped b adds first) made
  | case5 =>
    cases made
    exact first

theorem sketch_isTyped {sketch : Sketch}
    (known : ∀ entry ∈ setup.registry.entries, entry.1 ∈ Generator.known)
    (made : setup.sketch config rng = .ok sketch) : sketch.builder.IsTyped := by
  have kept : ∀ (sketch : Sketch) (progress : Progress) (b : Builder),
      Adds sketch.builder progress b → sketch.builder.IsTyped → (sketch.next b progress).builder.IsTyped := by
    intro sketch progress b adds typed
    cases progress <;> exact adds.isTyped typed
  exact extend_induction known kept (Builder.isTyped_start _) made

def eightParts : SessionConfig := { SessionConfig.standard with programSize := 8 }

end Setup

end EngineFuzz
