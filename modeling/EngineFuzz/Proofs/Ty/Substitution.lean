import EngineFuzz.Proofs.Ty.Order
import Mathlib.Data.List.Forall2

/-!
Functions in place of others. Main statement: where nothing is untyped, a function that fits another gives
back what is expected of the other, and takes less than the other does: it can be called like the other
exactly if both have the same parameters.
-/

namespace EngineFuzz

namespace Ty

mutual

/-- Whether nothing is untyped, at any depth. -/
def isTyped : Ty → Bool
  | anything => false
  | function params returns => areTyped params && returns.isTyped
  | _ => true

def areTyped : List Ty → Bool
  | [] => true
  | ty :: tys => ty.isTyped && areTyped tys

end

theorem ne_anything_of_isTyped {ty : Ty} (typed : ty.isTyped = true) : ty ≠ anything := by
  rintro rfl
  simp [isTyped] at typed

mutual

theorem hasTypedParams_of_isTyped : (ty : Ty) → ty.isTyped = true → ty.hasTypedParams = true
  | function params returns, typed => by
    simp only [isTyped, Bool.and_eq_true] at typed
    rw [hasTypedParams, areTypedParams_of_areTyped params typed.1, hasTypedParams_of_isTyped returns typed.2]
    rfl
  | anything, _ | undefined, _ | integer, _ | float, _ | boolean, _ | string, _ | anyFunction, _ => by
    rw [hasTypedParams]
    simp

theorem areTypedParams_of_areTyped : (tys : List Ty) → areTyped tys = true → areTypedParams tys = true
  | [], _ => by simp [areTypedParams]
  | ty :: tys, typed => by
    simp only [areTyped, Bool.and_eq_true] at typed
    have named : (ty != anything) = true := bne_iff_ne.mpr (ne_anything_of_isTyped typed.1)
    rw [areTypedParams, named, hasTypedParams_of_isTyped ty typed.1, areTypedParams_of_areTyped tys typed.2]
    rfl

end

/-- Where nothing is untyped, lists fit if their members do, place by place. -/
theorem fitsAll_iff_forall₂ {ps qs : List Ty} (typed : areTyped ps = true) (otherTyped : areTyped qs = true) :
    fitsAll ps qs = true ↔ List.Forall₂ (fun p q => p.fits q = true) ps qs := by
  induction ps generalizing qs with
  | nil => cases qs <;> simp [fitsAll]
  | cons p ps ih =>
    cases qs with
    | nil => simp [fitsAll]
    | cons q qs =>
      simp only [areTyped, Bool.and_eq_true] at typed otherTyped
      have named := ne_anything_of_isTyped typed.1
      have otherNamed := ne_anything_of_isTyped otherTyped.1
      simp [fitsAll, named, otherNamed, ih typed.2 otherTyped.2]

theorem forall₂_fits_trans {as bs cs : List Ty} (typed : areTyped bs = true)
    (first : List.Forall₂ (fun a b => a.fits b = true) as bs)
    (second : List.Forall₂ (fun b c => b.fits c = true) bs cs) :
    List.Forall₂ (fun a c => a.fits c = true) as cs := by
  induction first generalizing cs with
  | nil =>
    cases second
    exact .nil
  | @cons a b as bs here _ ih =>
    simp only [areTyped, Bool.and_eq_true] at typed
    cases second with
    | @cons _ c _ cs there later =>
      exact .cons (fits_trans a b c (hasTypedParams_of_isTyped b typed.1) here there) (ih typed.2 later)

end Ty

namespace Signature

open Ty

variable {own required : Signature} {args : List Ty}

/-- Whether nothing in a signature is untyped, at any depth. -/
def isTyped (s : Signature) : Bool := areTyped s.params && s.returns.isTyped

theorem accepts_iff_forall₂ {s : Signature} :
    s.accepts args = true ↔ List.Forall₂ (fun arg param => arg.fits param = true) args s.params := by
  rw [List.forall₂_iff_zip, accepts, Bool.and_eq_true, beq_iff_eq, List.all_eq_true, Prod.forall, eq_comm]

/-- A function accepts arguments of exactly the types that it asks for. -/
theorem accepts_params (s : Signature) : s.accepts s.params = true :=
  accepts_iff_forall₂.mpr (List.forall₂_same.mpr fun param _ => param.fits_self)

/-- Whether a function of signature `own` can be called wherever one of signature `required` is expected, and
gives back what is expected then. -/
def Substitutes (own required : Signature) : Prop :=
  (∀ args, required.accepts args = true → own.accepts args = true) ∧
    own.returns.fits required.returns = true

/-- Fitting compares the parameters in the same direction as the results. -/
theorem ty_fits_iff (ownTyped : own.isTyped = true) (requiredTyped : required.isTyped = true) :
    own.ty.fits required.ty = true ↔
      required.accepts own.params = true ∧ own.returns.fits required.returns = true := by
  simp only [isTyped, Bool.and_eq_true] at ownTyped requiredTyped
  rw [accepts_iff_forall₂, ← fitsAll_iff_forall₂ ownTyped.1 requiredTyped.1, ty, ty, fits, Bool.and_eq_true]

/-- What fits a type fits all that the type fits. -/
theorem accepts_of_accepts (ownTyped : own.isTyped = true) (params : required.accepts own.params = true)
    (accepted : own.accepts args = true) : required.accepts args = true := by
  simp only [isTyped, Bool.and_eq_true] at ownTyped
  rw [accepts_iff_forall₂] at params accepted ⊢
  exact forall₂_fits_trans ownTyped.1 accepted params

theorem eq_params_of_accepts (ownTyped : own.isTyped = true) (requiredTyped : required.isTyped = true)
    (first : required.accepts own.params = true) (second : own.accepts required.params = true) :
    own.params = required.params := by
  simp only [isTyped, Bool.and_eq_true] at ownTyped requiredTyped
  rw [accepts_iff_forall₂, ← fitsAll_iff_forall₂ ownTyped.1 requiredTyped.1] at first
  rw [accepts_iff_forall₂, ← fitsAll_iff_forall₂ requiredTyped.1 ownTyped.1] at second
  exact fitsAll_antisymm own.params required.params (areTypedParams_of_areTyped _ ownTyped.1)
    (areTypedParams_of_areTyped _ requiredTyped.1) first second

theorem substitution_of_fits (ownTyped : own.isTyped = true) (requiredTyped : required.isTyped = true)
    (fit : own.ty.fits required.ty = true) :
    own.returns.fits required.returns = true ∧
      (∀ args, own.accepts args = true → required.accepts args = true) ∧
      (own.Substitutes required ↔ own.params = required.params) := by
  obtain ⟨params, returns⟩ := (ty_fits_iff ownTyped requiredTyped).mp fit
  refine ⟨returns, fun args => accepts_of_accepts ownTyped params, ?_, ?_⟩
  · rintro ⟨callable, -⟩
    have passed := callable required.params required.accepts_params
    exact eq_params_of_accepts ownTyped requiredTyped params passed
  · intro same
    refine ⟨fun args accepted => ?_, returns⟩
    rwa [accepts, ← same] at accepted

/-- Takes a function that takes integers. -/
def takesConsumer : Signature := ⟨[.function [.integer] .undefined], .undefined⟩

/-- Takes a function, whatever it takes. -/
def takesAnyFunction : Signature := ⟨[.anyFunction], .undefined⟩

theorem takesConsumer_substitution :
    takesConsumer.isTyped = true ∧ takesAnyFunction.isTyped = true ∧
      takesConsumer.ty.fits takesAnyFunction.ty = true ∧
      takesConsumer.returns.fits takesAnyFunction.returns = true ∧
      (∀ args, takesConsumer.accepts args = true → takesAnyFunction.accepts args = true) ∧
      ¬ takesConsumer.Substitutes takesAnyFunction := by
  have ownTyped : takesConsumer.isTyped = true := by decide
  have requiredTyped : takesAnyFunction.isTyped = true := by decide
  have fit : takesConsumer.ty.fits takesAnyFunction.ty = true := by decide
  obtain ⟨returns, taken, substitutes⟩ := substitution_of_fits ownTyped requiredTyped fit
  exact ⟨ownTyped, requiredTyped, fit, returns, taken, fun callable => by cases substitutes.mp callable⟩

/-- A function that fits need not be callable like the one that is expected: the one that takes integers in
its argument is not to be given any other function. -/
theorem fits_not_substitutes :
    ¬ ∀ own required : Signature, own.isTyped = true → required.isTyped = true →
      own.ty.fits required.ty = true → own.Substitutes required := by
  intro claimed
  have substitutes := claimed takesConsumer takesAnyFunction (by decide) (by decide) (by decide)
  have accepted : takesAnyFunction.accepts [.anyFunction] = true := by decide
  have refused : takesConsumer.accepts [.anyFunction] = false := by decide
  rw [substitutes.1 _ accepted] at refused
  cases refused

end Signature

end EngineFuzz
