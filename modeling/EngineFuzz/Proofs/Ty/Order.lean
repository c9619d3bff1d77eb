import EngineFuzz.Ty.Basic
import Mathlib.Order.Defs.Unbundled

/-!
Types in order. Every type fits itself and `anything`. Fitting is transitive where the type in the middle has
no untyped parameter, and types without untyped parameters that fit one another are the same. Main statement:
these types are in a partial order with `anything` at the top, and fitting goes through no other type.
-/

namespace EngineFuzz

namespace Ty

mutual

/-- Whether no parameter is untyped, at any depth. -/
def hasTypedParams : Ty → Bool
  | function params returns => areTypedParams params && returns.hasTypedParams
  | _ => true

def areTypedParams : List Ty → Bool
  | [] => true
  | param :: params => param != anything && param.hasTypedParams && areTypedParams params

end

theorem fits_anything (ty : Ty) : ty.fits .anything = true := by
  cases ty <;> simp [fits]

theorem anything_fits_iff {ty : Ty} : anything.fits ty = true ↔ ty = anything := by
  cases ty <;> simp [fits]

/-! ### Reflexivity -/

mutual

theorem fits_self : (a : Ty) → a.fits a = true
  | anything | undefined | integer | float | boolean | string | anyFunction => by simp [fits]
  | function ps r => by simp [fits, fitsAll_self ps, fits_self r]

theorem fitsAll_self : (as : List Ty) → fitsAll as as = true
  | [] => by simp [fitsAll]
  | a :: as => by simp [fitsAll, fits_self a, fitsAll_self as]

end

/-! ### Transitivity -/

theorem fits_function_iff {a r : Ty} {ps : List Ty} :
    a.fits (function ps r) = true ↔
      ∃ qs s, a = function qs s ∧ fitsAll qs ps = true ∧ s.fits r = true := by
  constructor
  · intro fit
    cases a with
    | function qs s => exact ⟨qs, s, rfl, by simpa [fits] using fit⟩
    | _ => simp [fits] at fit
  · rintro ⟨qs, s, rfl, params, returns⟩
    simp [fits, params, returns]

theorem fits_integer_iff {a : Ty} : a.fits integer = true ↔ a = integer := by
  cases a <;> simp [fits]

theorem fits_anyFunction_iff {a : Ty} : a.fits anyFunction = true ↔ a.isFunction = true := by
  cases a <;> simp [fits, isFunction]

/-- A type that is neither `anything` nor one of functions is fitted by itself alone. -/
theorem eq_of_fits {a b : Ty} (typed : b ≠ anything) (value : b.isFunction = false)
    (fit : a.fits b = true) : a = b := by
  cases b <;> cases a <;> simp_all [fits, isFunction]

mutual

theorem fits_trans : (a b c : Ty) → b.hasTypedParams = true → a.fits b = true → b.fits c = true →
    a.fits c = true
  | a, b, anything, _, _, _ => a.fits_anything
  | a, anything, c, _, _, fit => by
    rw [anything_fits_iff.mp fit]
    exact a.fits_anything
  | a, function qs s, c, typed, first, second => by
    obtain ⟨ps, r, rfl, params, returns⟩ := fits_function_iff.mp first
    simp only [hasTypedParams, Bool.and_eq_true] at typed
    cases c with
    | function us t =>
      simp only [fits, Bool.and_eq_true] at second ⊢
      exact ⟨fitsAll_trans ps qs us typed.1 params second.1, fits_trans r s t typed.2 returns second.2⟩
    | _ => simp_all [fits]
  | a, anyFunction, c, _, first, second => by
    cases c <;> simp_all [fits]
  | a, undefined, c, _, first, second | a, integer, c, _, first, second | a, float, c, _, first, second
  | a, boolean, c, _, first, second | a, string, c, _, first, second => by
    rw [eq_of_fits (by simp) rfl first]
    exact second

theorem fitsAll_trans : (as bs cs : List Ty) → areTypedParams bs = true → fitsAll as bs = true →
    fitsAll bs cs = true → fitsAll as cs = true
  | [], [], cs, _, _, second => second
  | [], _ :: _, _, _, first, _ | _ :: _, [], _, _, first, _ => by simp [fitsAll] at first
  | _ :: _, _ :: _, [], _, _, second => by simp [fitsAll] at second
  | a :: as, b :: bs, c :: cs, typed, first, second => by
    simp only [areTypedParams, Bool.and_eq_true, bne_iff_ne] at typed
    simp only [fitsAll, Bool.and_eq_true, Bool.or_eq_true, beq_iff_eq] at first second ⊢
    refine ⟨?_, fitsAll_trans as bs cs typed.2 first.2 second.2⟩
    rcases first.1 with (untyped | untyped) | here
    · exact .inl (.inl untyped)
    · exact absurd untyped typed.1.1
    · rcases second.1 with (untyped | untyped) | there
      · exact absurd untyped typed.1.1
      · exact .inl (.inr untyped)
      · exact .inr (fits_trans a b c typed.1.2 here there)

end

/-! ### Antisymmetry -/

mutual

theorem fits_antisymm : (a b : Ty) → a.hasTypedParams = true → b.hasTypedParams = true →
    a.fits b = true → b.fits a = true → a = b
  | anything, b, _, _, first, _ => (anything_fits_iff.mp first).symm
  | function ps r, b, typed, otherTyped, first, second => by
    obtain ⟨qs, s, rfl, params, returns⟩ := fits_function_iff.mp second
    simp only [hasTypedParams, fits, Bool.and_eq_true] at typed otherTyped first
    rw [fitsAll_antisymm ps qs typed.1 otherTyped.1 first.1 params,
      fits_antisymm r s typed.2 otherTyped.2 first.2 returns]
  | anyFunction, b, _, _, first, second => by
    cases b <;> simp_all [fits]
  | undefined, b, _, _, _, second | integer, b, _, _, _, second | float, b, _, _, _, second
  | boolean, b, _, _, _, second | string, b, _, _, _, second =>
    (eq_of_fits (by simp) rfl second).symm

theorem fitsAll_antisymm : (as bs : List Ty) → areTypedParams as = true → areTypedParams bs = true →
    fitsAll as bs = true → fitsAll bs as = true → as = bs
  | [], [], _, _, _, _ => rfl
  | [], _ :: _, _, _, first, _ | _ :: _, [], _, _, first, _ => by simp [fitsAll] at first
  | a :: as, b :: bs, typed, otherTyped, first, second => by
    simp only [areTypedParams, Bool.and_eq_true, bne_iff_ne] at typed otherTyped
    simp only [fitsAll, typed.1.1, otherTyped.1.1, Bool.and_eq_true, Bool.or_eq_true, beq_iff_eq, false_or]
      at first second
    rw [fits_antisymm a b typed.1.2 otherTyped.1.2 first.1 second.1,
      fitsAll_antisymm as bs typed.2 otherTyped.2 first.2 second.2]

end

/-! ### Untyped parameters -/

mutual

/-- An untyped parameter can be told to be an integer before, and a string after. -/
theorem exists_gap : (b : Ty) → b.hasTypedParams = false →
    ∃ a c : Ty, a.fits b = true ∧ b.fits c = true ∧ a.fits c = false
  | function ps r, untyped => by
    rw [hasTypedParams, Bool.and_eq_false_iff] at untyped
    rcases untyped with params | returns
    · obtain ⟨as, cs, first, second, gap⟩ := exists_gapAll ps params
      exact ⟨function as r, function cs r, by simp [fits, first, fits_self], by simp [fits, second, fits_self],
        by simp [fits, gap]⟩
    · obtain ⟨a, c, first, second, gap⟩ := exists_gap r returns
      exact ⟨function ps a, function ps c, by simp [fits, first, fitsAll_self],
        by simp [fits, second, fitsAll_self], by simp [fits, gap]⟩
  | anything, untyped | undefined, untyped | integer, untyped | float, untyped | boolean, untyped
  | string, untyped | anyFunction, untyped => by simp [hasTypedParams] at untyped

theorem exists_gapAll : (bs : List Ty) → areTypedParams bs = false →
    ∃ as cs : List Ty, fitsAll as bs = true ∧ fitsAll bs cs = true ∧ fitsAll as cs = false
  | [], untyped => by simp [areTypedParams] at untyped
  | b :: bs, untyped => by
    simp only [areTypedParams, Bool.and_eq_false_iff, bne_eq_false_iff_eq] at untyped
    rcases untyped with (rfl | inside) | later
    · exact ⟨integer :: bs, string :: bs, by simp [fitsAll, fitsAll_self], by simp [fitsAll, fitsAll_self],
        by simp [fitsAll, fits]⟩
    · obtain ⟨a, c, first, second, gap⟩ := exists_gap b inside
      -- In a parameter the gap would be closed by `anything` on either side of it.
      have named : a ≠ anything := by
        rintro rfl
        rw [anything_fits_iff.mp first] at inside
        simp [hasTypedParams] at inside
      have otherNamed : c ≠ anything := by
        rintro rfl
        simp [fits_anything] at gap
      exact ⟨a :: bs, c :: bs, by simp [fitsAll, first, fitsAll_self], by simp [fitsAll, second, fitsAll_self],
        by simp [fitsAll, named, otherNamed, gap]⟩
    · obtain ⟨as, cs, first, second, gap⟩ := exists_gapAll bs later
      exact ⟨b :: as, b :: cs, by simp [fitsAll, first, fits_self], by simp [fitsAll, second, fits_self],
        by simp [fitsAll, gap]⟩

end

/-- Fitting goes through a type exactly if the type has no untyped parameter. -/
theorem hasTypedParams_iff {b : Ty} : b.hasTypedParams = true ↔
    ∀ a c : Ty, a.fits b = true → b.fits c = true → a.fits c = true := by
  constructor
  · exact fun typed a c => fits_trans a b c typed
  · intro through
    cases typed : b.hasTypedParams with
    | true => rfl
    | false =>
      obtain ⟨a, c, first, second, gap⟩ := exists_gap b typed
      rw [through a c first second] at gap
      cases gap

theorem fits_isPartialOrder :
    (∀ a : Ty, a.fits a = true ∧ a.fits anything = true) ∧
    (∀ b : Ty, b.hasTypedParams = true ↔
      ∀ a c : Ty, a.fits b = true → b.fits c = true → a.fits c = true) ∧
    (∀ a b : Ty, a.hasTypedParams = true → b.hasTypedParams = true →
      a.fits b = true → b.fits a = true → a = b) ∧
    IsPartialOrder {ty : Ty // ty.hasTypedParams = true} (fun a b => a.1.fits b.1 = true) ∧
    anything.hasTypedParams = true := by
  refine ⟨fun a => ⟨a.fits_self, a.fits_anything⟩, fun b => hasTypedParams_iff, fits_antisymm, ?_, ?_⟩
  · exact {
      refl := fun a => a.1.fits_self
      trans := fun a b c => fits_trans a.1 b.1 c.1 b.2
      antisymm := fun a b first second => Subtype.ext (fits_antisymm a.1 b.1 a.2 b.2 first second) }
  · simp [hasTypedParams]

/-- Takes one value, whatever it is. -/
def takesWhatever : Ty := function [anything] undefined

theorem takesWhatever_gap :
    (function [integer] undefined).fits takesWhatever = true ∧
      takesWhatever.fits (function [string] undefined) = true ∧
      ¬ ∀ a c : Ty, a.fits takesWhatever = true → takesWhatever.fits c = true → a.fits c = true := by
  refine ⟨by decide, by decide, fun through => ?_⟩
  have typed : takesWhatever.hasTypedParams = true := (fits_isPartialOrder.2.1 takesWhatever).mpr through
  simp [takesWhatever, hasTypedParams, areTypedParams] at typed

end Ty

end EngineFuzz
