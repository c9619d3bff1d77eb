import EngineFuzz.Proofs.Builder.Arguments
import EngineFuzz.Proofs.Builder.Visibility

/-!
Arguments that are offered for a call. Main statement: at every moment of a procedure there are arguments
to be had for every function in scope, unless its signature is known and asks for something that only the
function itself could be; what the stream gives has no say in that. A function whose signature is not known
is offered a variable twice only if there are more variables than numbers.
-/

namespace EngineFuzz

namespace Builder

variable {b : Builder} {function : Var} {ty : Ty} {arguments : List Var} {rng rest : Rng}

theorem nil_mem_map_candidates_iff {tys : List Ty} :
    [] ∈ tys.map (b.candidates function) ↔ ∃ ty ∈ tys, ∀ v ∈ b.visible ty, v = function := by
  simp only [List.mem_map, candidates, List.filter_eq_nil_iff, bne_iff_ne, not_not]

theorem map_typeOf {types : List Ty} (typed : arguments.map (Types.of? b.types.toList) = types.map some) :
    arguments.map b.typeOf = types.map .ok := by
  induction arguments generalizing types with
  | nil =>
    cases types with
    | nil => rfl
    | cons ty types => cases typed
  | cons v arguments ih =>
    cases types with
    | nil => cases typed
    | cons ty types =>
      obtain ⟨first, others⟩ := List.cons.inj typed
      rw [of?_types] at first
      rw [List.map_cons, List.map_cons, typeOf_eq_ok_iff.mpr first, ih others]

/-- What may be offered as arguments for a call of `function`, which is of type `ty`. -/
structure IsOffer (b : Builder) (function : Var) (ty : Ty) (picked : Option (List Var)) : Prop where
  /-- Nothing is offered exactly if nothing but the function itself could be passed for a parameter. -/
  none_iff : picked = none ↔ ∃ signature, ty.signature? = some signature ∧
    ∃ param ∈ signature.params, ∀ v ∈ b.visible param, v = function
  others : ∀ arguments, picked = some arguments → ∀ v ∈ arguments, v ∈ b.inScope ∧ v ≠ function
  known : ∀ arguments signature, picked = some arguments → ty.signature? = some signature →
    arguments.length = signature.arity ∧
      ∃ types, arguments.map b.typeOf = types.map .ok ∧ signature.accepts types = true
  /-- A few of the others in scope, from different places. -/
  unknown : ∀ arguments, picked = some arguments → ty.signature? = none →
    arguments.length ≤ 2 ∧ arguments.length ≤ (b.inScope.filter (· != function)).length ∧
      arguments.Subperm (b.inScope.filter (· != function))

variable {picked : Option (List Var)}

theorem pickArguments_none_iff (typed : b.typeOf function = .ok ty)
    (made : b.pickArguments function rng = .ok (picked, rest)) :
    picked = none ↔ ∃ signature, ty.signature? = some signature ∧
      ∃ param ∈ signature.params, ∀ v ∈ b.visible param, v = function := by
  cases known : ty.signature? with
  | none =>
    rw [pickArguments_of_unknown typed known] at made
    cases made
    simp
  | some signature =>
    rw [pickArguments_of_known typed known] at made
    have drawn : (b.pickEach function signature.params rng).1 = picked :=
      congrArg Prod.fst (Except.ok.inj made)
    rw [← drawn, pickEach, Draw.pickEach_eq_none_iff, nil_mem_map_candidates_iff]
    simp

/-- Whether the signature of `function` asks for something that nothing in scope but the function itself
could be. -/
def LacksArguments (b : Builder) (function : Var) : Prop :=
  ∃ signature : Signature, b.typeOf function = .ok signature.ty ∧
    ∃ param ∈ signature.params, ∀ v ∈ b.visible param, v = function

theorem pickArguments_lacking_iff (typed : b.typeOf function = .ok ty)
    (made : b.pickArguments function rng = .ok (picked, rest)) :
    picked = none ↔ b.LacksArguments function := by
  rw [pickArguments_none_iff typed made]
  constructor
  · rintro ⟨signature, known, lacking⟩
    exact ⟨signature, eq_ty_of_signature? known ▸ typed, lacking⟩
  · rintro ⟨signature, callee, lacking⟩
    obtain rfl : ty = signature.ty := Except.ok.inj (typed.symm.trans callee)
    exact ⟨signature, rfl, lacking⟩

theorem Picks.accepted {signature : Signature} (picks : b.Picks function arguments)
    (typed : b.typeOf? function = some ty) (known : ty.signature? = some signature) :
    arguments.length = signature.arity ∧
      ∃ types, arguments.map b.typeOf = types.map .ok ∧ signature.accepts types = true := by
  cases picks with
  | each own callee candidates =>
    have same : ty = own.ty := Option.some.inj (typed.symm.trans callee)
    subst same
    cases known
    obtain ⟨types, given, accepted⟩ := accepted_of_forall₂ candidates
    exact ⟨candidates.length_eq, types, map_typeOf given, accepted⟩
  | any own callee unknown few different =>
    have same : ty = own := Option.some.inj (typed.symm.trans callee)
    rw [same, unknown] at known
    cases known

theorem Picks.apart (picks : b.Picks function arguments) (typed : b.typeOf? function = some ty)
    (unknown : ty.signature? = none) :
    arguments.length ≤ 2 ∧ arguments.Subperm (b.inScope.filter (· != function)) := by
  cases picks with
  | each signature callee candidates =>
    rw [Option.some.inj (typed.symm.trans callee)] at unknown
    cases unknown
  | any own callee _ few different =>
    have others : (b.candidates function .anything).Sublist (b.inScope.filter (· != function)) :=
      List.filter_sublist.filter _
    exact ⟨few, different.trans others.subperm⟩

theorem isOffer_of_pickArguments (typed : b.typeOf function = .ok ty)
    (made : b.pickArguments function rng = .ok (picked, rest)) : b.IsOffer function ty picked where
  none_iff := pickArguments_none_iff typed made
  others := by
    rintro arguments rfl v member
    have picks := picks_of_pickArguments made
    rw [inScope_eq_vars]
    exact ⟨picks.inScope v member, fun same => picks.other (same ▸ member)⟩
  known := by
    rintro arguments signature rfl known
    exact (picks_of_pickArguments made).accepted (typeOf_eq_ok_iff.mp typed) known
  unknown := by
    rintro arguments rfl unknown
    obtain ⟨few, apart⟩ := (picks_of_pickArguments made).apart (typeOf_eq_ok_iff.mp typed) unknown
    exact ⟨few, apart.length_le, apart⟩

end Builder

namespace Build

open Builder

/-- The stream decides which arguments are offered, but not whether any are. As long as there are numbers
for all variables, nothing is offered twice to a function whose signature is not known. -/
theorem moments_offer {α : Type} (procedure : Build α) (builtins : Table Ty) (rng : Rng) {b : Builder}
    (moment : b ∈ procedure.moments (.start builtins) rng) {function : Var} (inScope : function ∈ b.inScope) :
    ∃ ty, b.typeOf function = .ok ty ∧
      (∀ rng, ∃ picked rest, b.pickArguments function rng = .ok (picked, rest) ∧
        b.IsOffer function ty picked ∧
        (b.types.size ≤ UInt32.size → ty.signature? = none →
          ∀ arguments, picked = some arguments → arguments.Nodup)) ∧
      ∀ rng other picked otherPicked rest otherRest,
        b.pickArguments function rng = .ok (picked, rest) →
        b.pickArguments function other = .ok (otherPicked, otherRest) →
        (picked = none ↔ otherPicked = none) := by
  have numbered := (procedure.precedes_of_mem_moments moment).numbered
  rw [inScope_eq_vars] at inScope
  obtain ⟨ty, typed⟩ := numbered.typed inScope
  have typed := typeOf_eq_ok_iff.mpr typed
  refine ⟨ty, typed, fun rng => ?_, fun rng other picked otherPicked rest otherRest made otherMade => ?_⟩
  · obtain ⟨picked, rest, made⟩ := exists_pickArguments typed rng
    have offer := isOffer_of_pickArguments typed made
    refine ⟨picked, rest, made, offer, fun enough unknown arguments some => ?_⟩
    obtain ⟨-, -, apart⟩ := offer.unknown arguments some unknown
    exact nodup_of_subperm apart ((numbered.nodup enough).filter _)
  · rw [pickArguments_none_iff typed made, pickArguments_none_iff typed otherMade]

/-- A global that is not known any better, and a function of one integer, in whose body both can be
called. -/
def twoCallees : Build Unit :=
  .loadBuiltin "print" fun _ =>
    .loadInteger 1 fun _ =>
      .functionBlock ⟨[.integer], .anything⟩ (fun params => .done params.head?) fun _ => .done ()

def printer : Table Ty := .ofList [("print", .anyFunction)]

/-- The body of the function, before it gives back its parameter. -/
def twoCalleesInside : Builder where
  instrs :=
    #[.loadBuiltin ⟨0⟩ "print", .loadInteger ⟨1⟩ 1, .beginFunction ⟨2⟩ [⟨3⟩] ⟨[.integer], .anything⟩]
  types := #[.anyFunction, .integer, .function [.integer] .anything, .integer]
  scope := [⟨3⟩]
  enclosing := [[⟨2⟩, ⟨1⟩, ⟨0⟩]]
  builtins := printer

/-- The function is offered an integer, and the global two of the three other variables. -/
theorem twoCallees_offer :
    twoCalleesInside ∈ twoCallees.moments (.start printer) (.ofSeed 0) ∧
      ⟨2⟩ ∈ twoCalleesInside.inScope ∧ ⟨0⟩ ∈ twoCalleesInside.inScope ∧
      (∃ arguments rest, twoCalleesInside.pickArguments ⟨2⟩ (.ofSeed 0) = .ok (some arguments, rest) ∧
        arguments.length = 1 ∧ ∀ v ∈ arguments, v ≠ ⟨2⟩) ∧
      ∃ arguments rest, twoCalleesInside.pickArguments ⟨0⟩ (.ofSeed 0) = .ok (some arguments, rest) ∧
        arguments.length = 2 ∧ arguments.Nodup ∧ ∀ v ∈ arguments, v ≠ ⟨0⟩ := by
  have moment : twoCalleesInside ∈ twoCallees.moments (.start printer) (.ofSeed 0) :=
    .tail _ (.tail _ (.tail _ (.head _)))
  have first : ⟨2⟩ ∈ twoCalleesInside.inScope := by decide
  have second : ⟨0⟩ ∈ twoCalleesInside.inScope := by decide
  refine ⟨moment, first, second, ?_, ?_⟩
  · obtain ⟨ty, typed, offers, -⟩ := moments_offer twoCallees printer (.ofSeed 0) moment first
    obtain ⟨picked, rest, made, offer, -⟩ := offers (.ofSeed 0)
    cases typed
    cases picked with
    | some arguments =>
      obtain ⟨length, -⟩ := offer.known arguments _ rfl rfl
      exact ⟨arguments, rest, made, length, fun v member => (offer.others arguments rfl v member).2⟩
    | none =>
      obtain ⟨signature, known, param, member, only⟩ := offer.none_iff.mp rfl
      cases known
      have visible : ⟨1⟩ ∈ twoCalleesInside.visible param := by
        rw [List.mem_singleton.mp member]
        decide
      cases only ⟨1⟩ visible
  · have lengths : ((twoCalleesInside.pickArguments ⟨0⟩ (.ofSeed 0)).map fun found =>
        found.1.map List.length).toOption = some (some 2) := by decide +kernel
    obtain ⟨ty, typed, offers, -⟩ := moments_offer twoCallees printer (.ofSeed 0) moment second
    obtain ⟨picked, rest, made, offer, once⟩ := offers (.ofSeed 0)
    cases typed
    rw [made] at lengths
    obtain ⟨arguments, rfl, length⟩ := Option.map_eq_some_iff.mp (Option.some.inj lengths)
    exact ⟨arguments, rest, made, length, once (by decide) rfl arguments rfl,
      fun v member => (offer.others arguments rfl v member).2⟩

/-! ### More variables than numbers -/

/-- Loads `count` zeros. -/
def zeros : (count : Nat) → Build Unit
  | 0 => .done ()
  | count + 1 => .loadInteger 0 fun _ => zeros count

theorem run_zeros (count : Nat) (b : Builder) (rng : Rng) :
    ∃ after, (zeros count).run b rng = .ok ((), after, rng) ∧ after.types.size = b.types.size + count := by
  induction count generalizing b with
  | zero => exact ⟨b, rfl, rfl⟩
  | succ count ih =>
    obtain ⟨after, ran, size⟩ := ih (b.loadInteger 0).2
    refine ⟨after, ran, ?_⟩
    have one : (b.loadInteger 0).2.types.size = b.types.size + 1 := (b.step_loadInteger 0).steps.types_size
    omega

/-- A loop that is counted by the first variable alone. -/
def zeroLoop : LoopHead := ⟨⟨0⟩, .lessThan, ⟨0⟩, .add, ⟨0⟩⟩

/-- A zero and a function that is not known any better, a loop around `count` zeros, and one more zero. -/
def longLoop (count : Nat) : Build Unit :=
  .loadInteger 0 fun _ =>
    .loadBuiltin "print" fun _ =>
      .loopBlock zeroLoop (fun _ => zeros count) (.loadInteger 0 fun _ => .done ())

/-- What `longLoop` has made before its loop. -/
def longLoopAhead : Builder where
  instrs := #[.loadInteger ⟨0⟩ 0, .loadBuiltin ⟨1⟩ "print"]
  types := #[.integer, .anyFunction]
  scope := [⟨1⟩, ⟨0⟩]
  enclosing := []
  builtins := printer

/-- The zeros in the loop use up numbers, and are out of scope after it. -/
theorem run_longLoop (count : Nat) (rng : Rng) :
    ∃ b, (longLoop count).run (.start printer) rng = .ok ((), b, rng) ∧ longLoopAhead.Precedes b ∧
      b.inScope = [⟨0⟩, ⟨1⟩, .ofIndex (3 + count)] := by
  have opens : ∃ index opened, longLoopAhead.openLoop zeroLoop = .ok (index, opened) := ⟨_, _, rfl⟩
  obtain ⟨index, opened, opening⟩ := opens
  have entered : longLoopAhead.Step (.beginFor index zeroLoop) opened := step_openLoop opening
  obtain ⟨written, ran, size⟩ := run_zeros count opened rng
  have filled : opened.Grows written := run_grows (zeros count) ran
  have closing : written.Step .endFor written.closeLoop := step_close (.inr rfl)
  have loading := written.closeLoop.step_loadInteger 0
  refine ⟨(written.closeLoop.loadInteger 0).2, ?_, ?_, ?_⟩
  · have ahead : (longLoop count).run (.start printer) rng =
        (loopBlock zeroLoop (fun _ => zeros count) (.loadInteger 0 fun _ => .done ())).run longLoopAhead rng :=
      rfl
    rw [ahead, run, opening]
    simp only [ran, run]
  · exact entered.precedes.trans (filled.precedes.trans (closing.precedes.trans loading.precedes))
  · have number : (written.closeLoop.loadInteger 0).1 = .ofIndex written.closeLoop.types.size := rfl
    have made : written.closeLoop.types.size = 3 + count := by
      rw [closing.steps.types_size, size, entered.steps.types_size]
      rfl
    rw [inScope_eq_vars, loading.vars rfl, view_closeLoop entered filled, Instr.outputs, number, made]
    rfl

/-- A loop around as many zeros as there are numbers left. -/
def overfull : Build Unit := longLoop (UInt32.size - 3)

/-- The number of the first variable has been given out again, and a function that is not known any better
is offered both variables of that number. -/
theorem overfull_offer_repeats :
    ∃ b, b ∈ overfull.moments (.start printer) (.ofSeed 0) ∧ b.inScope = [⟨0⟩, ⟨1⟩, ⟨0⟩] ∧
      b.typeOf ⟨1⟩ = .ok .anyFunction ∧
      ∃ rest, b.pickArguments ⟨1⟩ (.ofSeed 0) = .ok (some [⟨0⟩, ⟨0⟩], rest) := by
  obtain ⟨b, completed, before, inScope⟩ := run_longLoop (UInt32.size - 3) (.ofSeed 0)
  have last : b ∈ overfull.moments (.start printer) (.ofSeed 0) :=
    List.mem_of_getLast? (getLast?_moments overfull completed)
  have again : Var.ofIndex (3 + (UInt32.size - 3)) = ⟨0⟩ := by
    rw [Nat.add_sub_of_le (by decide : 3 ≤ UInt32.size), ← Nat.zero_add UInt32.size]
    exact Var.ofIndex_add_size 0
  rw [again] at inScope
  have zero : b.typeOf? ⟨0⟩ = some .integer := before.typeOf?_eq rfl
  have callee : b.typeOf? ⟨1⟩ = some .anyFunction := before.typeOf?_eq rfl
  have typed : b.typeOf ⟨1⟩ = .ok .anyFunction := typeOf_eq_ok_iff.mpr callee
  have candidates : b.candidates ⟨1⟩ .anything = [⟨0⟩, ⟨0⟩] := by
    simp [Builder.candidates, Builder.visible, inScope, zero, callee, Ty.fits]
  have picked : (b.pickAny ⟨1⟩ (.ofSeed 0)).1 = [⟨0⟩, ⟨0⟩] := by
    rw [pickAny, candidates]
    decide +kernel
  refine ⟨b, last, inScope, typed, (b.pickAny ⟨1⟩ (.ofSeed 0)).2, ?_⟩
  rw [pickArguments_of_unknown typed rfl, picked]

end Build

end EngineFuzz
