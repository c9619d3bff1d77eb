import EngineFuzz.Proofs.Program.Scope
import Mathlib.Data.List.Perm.Subperm

/-!
Programs whose calls and returns fit the types of their variables. What fits goes on fitting as more
variables are made, so that a program can be read with the types of all its variables from the start.
-/

namespace EngineFuzz

namespace Types

/-- A call that is right by the types, of a function whose signature is known or not. -/
inductive CallFits (types : Types) (function : Var) (arguments : List Var) : Prop where
  | known (signature : Signature) (argumentTypes : List Ty)
      (callee : types.of? function = some signature.ty)
      (typed : arguments.map types.of? = argumentTypes.map some)
      (accepted : signature.accepts argumentTypes = true) (other : function ∉ arguments)
  /-- The arguments were made at different times. -/
  | unknown (callee : types.of? function = some .anyFunction) (few : arguments.length ≤ 2)
      (different : arguments.Subperm (Var.first types.length)) (other : function ∉ arguments)

end Types

/-- The open blocks, the innermost first, each function with its signature. -/
abbrev Frames := List (Option Signature)

namespace Frames

def after (frames : Frames) : Instr → Frames
  | .beginFunction _ _ signature => some signature :: frames
  | .beginFor .. => none :: frames
  | .endFunction | .endFor => frames.tail
  | _ => frames

def afterAll (frames : Frames) (instrs : List Instr) : Frames := instrs.foldl after frames

/-- The signature of the function that a return would end. -/
def function? (frames : Frames) : Option Signature := frames.findSome? id

end Frames

/-- What calls and returns have to keep to. -/
def Instr.Fits (types : Types) (frames : Frames) : Instr → Prop
  | .call _ function arguments => types.CallFits function arguments
  | .ret value => ∃ signature ty, frames.function? = some signature ∧ types.of? value = some ty ∧
      ty.fits signature.returns = true
  | _ => True

namespace Program

def FitsFrom (types : Types) (frames : Frames) : List Instr → Prop
  | [] => True
  | instr :: instrs => instr.Fits types frames ∧ FitsFrom types (frames.after instr) instrs

/-- Every call and every return fits. -/
def IsTyped (p : Program) (types : Types) : Prop := FitsFrom types [] p.instrs

/-- No variable is passed twice in a call of a function whose signature is not known. -/
def PassesOnce (p : Program) (types : Types) : Prop :=
  ∀ output function arguments, .call output function arguments ∈ p.instrs →
    types.of? function = some .anyFunction → arguments.Nodup

end Program

/-! ### More code, and more variables -/

theorem Frames.afterAll_append (frames : Frames) (first second : List Instr) :
    frames.afterAll (first ++ second) = (frames.afterAll first).afterAll second :=
  List.foldl_append

namespace Program

variable {types : Types} {frames : Frames}

theorem FitsFrom.append {first second : List Instr} (before : FitsFrom types frames first)
    (rest : FitsFrom types (frames.afterAll first) second) : FitsFrom types frames (first ++ second) := by
  induction first generalizing frames with
  | nil => exact rest
  | cons instr first ih => exact ⟨before.1, ih before.2 rest⟩

end Program

namespace Types

variable {types : Types} {function : Var} {arguments : List Var}

theorem of?_append {v : Var} {ty : Ty} (typed : types.of? v = some ty) (more : Types) :
    (types ++ more : Types).of? v = some ty := by
  obtain ⟨inside, -⟩ := List.getElem?_eq_some_iff.mp typed
  exact (List.getElem?_append_left inside).trans typed

theorem map_of?_append {tys : List Ty} (typed : arguments.map types.of? = tys.map some) (more : Types) :
    arguments.map (types ++ more : Types).of? = tys.map some := by
  rw [← typed]
  apply List.map_congr_left
  intro v member
  have known : types.of? v ∈ tys.map some := typed ▸ List.mem_map_of_mem member
  obtain ⟨ty, -, here⟩ := List.mem_map.mp known
  exact (of?_append here.symm more).trans here

theorem CallFits.append (fits : types.CallFits function arguments) (more : Types) :
    (types ++ more : Types).CallFits function arguments := by
  have longer : types.length ≤ (types ++ more).length := by
    rw [List.length_append]
    omega
  cases fits with
  | known signature argumentTypes callee typed accepted other =>
    exact .known signature argumentTypes (of?_append callee more) (map_of?_append typed more) accepted other
  | unknown callee few different other =>
    exact .unknown (of?_append callee more) few (different.trans (Var.first_sublist longer).subperm) other

end Types

theorem Instr.Fits.append {types : Types} {frames : Frames} {instr : Instr}
    (fits : instr.Fits types frames) (more : Types) : instr.Fits (types ++ more) frames := by
  cases instr with
  | call output function arguments => exact Types.CallFits.append fits more
  | ret value =>
    obtain ⟨signature, ty, enclosing, typed, matching⟩ := fits
    exact ⟨signature, ty, enclosing, Types.of?_append typed more, matching⟩
  | _ => trivial

theorem Program.FitsFrom.moreTypes {types : Types} {frames : Frames} {instrs : List Instr}
    (fits : FitsFrom types frames instrs) (more : Types) : FitsFrom (types ++ more) frames instrs := by
  induction instrs generalizing frames with
  | nil => trivial
  | cons instr instrs ih => exact ⟨fits.1.append more, ih fits.2⟩

/-! ### Variables passed once -/

theorem nodup_of_subperm {chosen all : List Var} (part : chosen.Subperm all) (different : all.Nodup) :
    chosen.Nodup := by
  obtain ⟨ordered, permuted, sublist⟩ := part
  exact permuted.nodup_iff.mp (different.sublist sublist)

/-- Variables made at different times are different as long as there are numbers for all. -/
theorem Types.CallFits.nodup {types : Types} {function : Var} {arguments : List Var}
    (fits : types.CallFits function arguments) (unknown : types.of? function = some .anyFunction)
    (enough : types.length ≤ UInt32.size) : arguments.Nodup := by
  cases fits with
  | known signature argumentTypes callee =>
    rw [unknown] at callee
    cases callee
  | unknown callee few different => exact nodup_of_subperm different (Var.first_nodup _ enough)

namespace Program

variable {types : Types}

theorem FitsFrom.exists_fits {frames : Frames} {instrs : List Instr} {instr : Instr}
    (fits : FitsFrom types frames instrs) (member : instr ∈ instrs) :
    ∃ around, instr.Fits types around := by
  induction instrs generalizing frames with
  | nil => cases member
  | cons first instrs ih =>
    rcases List.mem_cons.mp member with rfl | later
    · exact ⟨frames, fits.1⟩
    · exact ih fits.2 later

theorem IsTyped.passesOnce {p : Program} (typed : p.IsTyped types) (enough : types.length ≤ UInt32.size) :
    p.PassesOnce types := by
  intro output function arguments member unknown
  obtain ⟨around, fits⟩ := FitsFrom.exists_fits typed member
  exact Types.CallFits.nodup fits unknown enough

end Program

end EngineFuzz
