/-!
Types of script values: what a generator asks for and what a variable promises.

A function whose signature is not known is a type of its own, `anyFunction`. `Ty.fits` says when a
value of one type may stand where another is required; `Signature.accepts` applies it to a call.
-/

namespace EngineFuzz

inductive Ty where
  | anything
  | undefined
  | integer
  | float
  | boolean
  | string
  | anyFunction
  | function (params : List Ty) (returns : Ty)
deriving Inhabited

namespace Ty

mutual

def same : Ty → Ty → Bool
  | anything, anything => true
  | undefined, undefined => true
  | integer, integer => true
  | float, float => true
  | boolean, boolean => true
  | string, string => true
  | anyFunction, anyFunction => true
  | function ps r, function qs s => sameAll ps qs && same r s
  | _, _ => false

def sameAll : List Ty → List Ty → Bool
  | [], [] => true
  | p :: ps, q :: qs => same p q && sameAll ps qs
  | _, _ => false

end

mutual

theorem same_self : (a : Ty) → same a a = true
  | anything | undefined | integer | float | boolean | string | anyFunction => by simp [same]
  | function ps r => by simp [same, sameAll_self ps, same_self r]

theorem sameAll_self : (as : List Ty) → sameAll as as = true
  | [] => by simp [sameAll]
  | a :: as => by simp [sameAll, same_self a, sameAll_self as]

end

mutual

theorem eq_of_same : (a b : Ty) → same a b = true → a = b
  | function ps r, function qs s, h => by
    simp only [same, Bool.and_eq_true] at h
    rw [eq_of_sameAll ps qs h.1, eq_of_same r s h.2]
  | function .., anything, h | function .., undefined, h | function .., integer, h
  | function .., float, h | function .., boolean, h | function .., string, h
  | function .., anyFunction, h => by simp [same] at h
  | anything, b, h | undefined, b, h | integer, b, h | float, b, h | boolean, b, h
  | string, b, h | anyFunction, b, h => by cases b <;> simp_all [same]

theorem eq_of_sameAll : (as bs : List Ty) → sameAll as bs = true → as = bs
  | [], [], _ => rfl
  | [], _ :: _, h => by simp [sameAll] at h
  | _ :: _, [], h => by simp [sameAll] at h
  | a :: as, b :: bs, h => by
    simp only [sameAll, Bool.and_eq_true] at h
    rw [eq_of_same a b h.1, eq_of_sameAll as bs h.2]

end

instance : DecidableEq Ty := fun a b =>
  decidable_of_iff (same a b = true) ⟨eq_of_same a b, fun h => h ▸ same_self a⟩

end Ty

structure Signature where
  params : List Ty
  returns : Ty
deriving DecidableEq

namespace Ty

def isFunction : Ty → Bool
  | anyFunction => true
  | function .. => true
  | _ => false

/-- Absent for whatever is not a function and for a function of which nothing more is known. -/
def signature? : Ty → Option Signature
  | function params returns => some ⟨params, returns⟩
  | _ => none

mutual

/-- Every value is good enough where anything will do, and every function where any function will.
Between known signatures the parameters are compared one by one, an untyped one matching all, and
the results in the same direction. Any other type fits itself alone. -/
def fits : Ty → Ty → Bool
  | _, anything => true
  | anyFunction, anyFunction => true
  | function .., anyFunction => true
  | function ps r, function qs s => fitsAll ps qs && fits r s
  | undefined, undefined => true
  | integer, integer => true
  | float, float => true
  | boolean, boolean => true
  | string, string => true
  | _, _ => false

/-- Lists of one length whose members fit place by place, or are untyped on either side. -/
def fitsAll : List Ty → List Ty → Bool
  | [], [] => true
  | p :: ps, q :: qs => (p == anything || q == anything || fits p q) && fitsAll ps qs
  | _, _ => false

end

mutual

def text : Ty → String
  | anything => ".anything"
  | undefined => ".undefined"
  | integer => ".integer"
  | float => ".float"
  | boolean => ".boolean"
  | string => ".string"
  | anyFunction => ".function()"
  | function params returns => ".function([" ++ textList params ++ "] => " ++ text returns ++ ")"

/-- Texts separated by a comma and a space. -/
def textList : List Ty → String
  | [] => ""
  | t :: ts => text t ++ textTail ts

def textTail : List Ty → String
  | [] => ""
  | t :: ts => ", " ++ text t ++ textTail ts

end

end Ty

namespace Signature

def ty (s : Signature) : Ty := .function s.params s.returns

def arity (s : Signature) : Nat := s.params.length

/-- A call is accepted if it passes one argument per parameter and each fits its own. -/
def accepts (s : Signature) (args : List Ty) : Bool :=
  s.params.length == args.length && (args.zip s.params).all fun (arg, param) => arg.fits param

end Signature

end EngineFuzz
