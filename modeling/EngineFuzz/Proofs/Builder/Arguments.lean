import EngineFuzz.Builder.Arguments
import EngineFuzz.Proofs.Builder.Step
import EngineFuzz.Proofs.Program.Typing
import EngineFuzz.Proofs.Random.Draw

/-!
Arguments as they are picked for a call. They fit the function, whatever has been drawn, and they do
not include it.
-/

namespace EngineFuzz

namespace Builder

variable {b : Builder} {function v : Var} {ty : Ty} {arguments : List Var} {rng rest : Rng}

theorem mem_candidates : v ∈ b.candidates function ty ↔ v ∈ b.visible ty ∧ v ≠ function := by
  rw [candidates, List.mem_filter, bne_iff_ne]

/-- Arguments that may be picked for a call of `function`. -/
inductive Picks (b : Builder) (function : Var) (arguments : List Var) : Prop where
  | each (signature : Signature) (callee : b.typeOf? function = some signature.ty)
      (candidates : List.Forall₂ (fun v ty => v ∈ b.candidates function ty) arguments signature.params)
  | any (ty : Ty) (callee : b.typeOf? function = some ty) (unknown : ty.signature? = none)
      (few : arguments.length ≤ 2) (different : arguments.Subperm (b.candidates function .anything))

theorem pickAny_subperm (b : Builder) (function : Var) (rng : Rng) :
    (b.pickAny function rng).1.Subperm (b.candidates function .anything) ∧
      (b.pickAny function rng).1.length ≤ 2 := by
  let count := Draw.below64 3 (by decide) rng
  have sampled := Draw.sample_subperm count.1.val (b.candidates function .anything) count.2
  exact ⟨sampled.1, Nat.le_trans sampled.2 (Nat.le_of_lt_succ count.1.isLt)⟩

theorem eq_ty_of_signature? {ty : Ty} {signature : Signature} (known : ty.signature? = some signature) :
    ty = signature.ty := by
  cases ty with
  | function params returns =>
    cases known
    rfl
  | _ => cases known

theorem eq_anyFunction {ty : Ty} (unknown : ty.signature? = none) (fit : ty.fits .anyFunction = true) :
    ty = .anyFunction := by
  cases ty with
  | anyFunction => rfl
  | function params returns => cases unknown
  | _ => simp [Ty.fits] at fit

theorem pickArguments_of_known {signature : Signature} (typed : b.typeOf function = .ok ty)
    (known : ty.signature? = some signature) (rng : Rng) :
    b.pickArguments function rng = .ok (b.pickEach function signature.params rng) := by
  simp only [pickArguments, typed, known, bind, Except.bind, pure, Except.pure]

theorem pickArguments_of_unknown (typed : b.typeOf function = .ok ty) (unknown : ty.signature? = none)
    (rng : Rng) : b.pickArguments function rng =
      .ok (some (b.pickAny function rng).1, (b.pickAny function rng).2) := by
  simp only [pickArguments, typed, unknown, bind, Except.bind, pure, Except.pure]
  rfl

theorem exists_pickArguments (typed : b.typeOf function = .ok ty) (rng : Rng) :
    ∃ picked rest, b.pickArguments function rng = .ok (picked, rest) := by
  cases known : ty.signature? with
  | none => exact ⟨_, _, pickArguments_of_unknown typed known rng⟩
  | some signature => exact ⟨_, _, pickArguments_of_known typed known rng⟩

theorem picks_of_pickArguments (picked : b.pickArguments function rng = .ok (some arguments, rest)) :
    b.Picks function arguments := by
  cases callee : b.typeOf? function with
  | none => simp [pickArguments, typeOf, callee, bind, Except.bind] at picked
  | some ty =>
    have typed := typeOf_eq_ok_iff.mpr callee
    cases known : ty.signature? with
    | none =>
      rw [pickArguments_of_unknown typed known] at picked
      cases picked
      obtain ⟨different, few⟩ := b.pickAny_subperm function rng
      exact .any ty callee known few different
    | some signature =>
      rw [pickArguments_of_known typed known] at picked
      have drawn := congrArg Prod.fst (Except.ok.inj picked)
      have whole : ty = signature.ty := eq_ty_of_signature? known
      have candidates := Draw.forall₂_of_pickEach drawn
      exact .each signature (whole ▸ callee) (List.forall₂_map_right_iff.mp candidates)

theorem not_mem_of_forall₂ {tys : List Ty}
    (candidates : List.Forall₂ (fun v ty => v ∈ b.candidates function ty) arguments tys) :
    function ∉ arguments := by
  induction candidates with
  | nil => exact List.not_mem_nil
  | cons candidate _ ih =>
    intro member
    rcases List.mem_cons.mp member with same | later
    · exact (mem_candidates.mp candidate).2 same.symm
    · exact ih later

theorem typed_of_forall₂ {tys : List Ty}
    (candidates : List.Forall₂ (fun v ty => v ∈ b.candidates function ty) arguments tys) :
    ∃ own : List Ty, arguments.map (Types.of? b.types.toList) = own.map some ∧
      own.length = tys.length ∧ ((own.zip tys).all fun (arg, param) => arg.fits param) = true := by
  induction candidates with
  | nil => exact ⟨[], rfl, rfl, rfl⟩
  | @cons v ty arguments tys candidate _ ih =>
    obtain ⟨own, typed, length, fit⟩ := ih
    obtain ⟨-, first, firstTyped, firstFits⟩ := mem_visible.mp (mem_candidates.mp candidate).1
    refine ⟨first :: own, ?_, ?_, ?_⟩
    · rw [List.map_cons, List.map_cons, typed, of?_types, firstTyped]
    · rw [List.length_cons, List.length_cons, length]
    · rw [List.zip_cons_cons, List.all_cons, fit, Bool.and_true]
      exact firstFits

theorem accepted_of_forall₂ {signature : Signature}
    (candidates : List.Forall₂ (fun v ty => v ∈ b.candidates function ty) arguments signature.params) :
    ∃ own : List Ty, arguments.map (Types.of? b.types.toList) = own.map some ∧
      signature.accepts own = true := by
  obtain ⟨own, typed, length, fit⟩ := typed_of_forall₂ candidates
  refine ⟨own, typed, ?_⟩
  rw [Signature.accepts, fit, length, beq_self_eq_true]
  rfl

theorem Picks.other (picks : b.Picks function arguments) : function ∉ arguments := by
  cases picks with
  | each signature callee candidates => exact not_mem_of_forall₂ candidates
  | any ty callee unknown few different =>
    intro member
    exact (mem_candidates.mp (different.subset member)).2 rfl

theorem Picks.inScope (picks : b.Picks function arguments) : ∀ v ∈ arguments, v ∈ b.view.vars := by
  cases picks with
  | each signature callee candidates =>
    have inScope := candidates.imp fun v ty candidate =>
      And.intro (mem_visible.mp (mem_candidates.mp candidate).1).1 candidate
    exact ((List.forall₂_and_left _ _).mp inScope).1
  | any ty callee unknown few different =>
    intro v member
    exact (mem_visible.mp (mem_candidates.mp (different.subset member)).1).1

/-- What is picked fits, whether or not the signature is known. -/
theorem Picks.callFits (picks : b.Picks function arguments) (callable : function ∈ b.visible .anyFunction)
    (numbered : b.Numbered) :
    Types.CallFits b.types.toList function arguments := by
  have other := picks.other
  cases picks with
  | each signature callee candidates =>
    obtain ⟨own, typed, accepted⟩ := accepted_of_forall₂ candidates
    exact .known signature own ((b.of?_types function).trans callee) typed accepted other
  | any ty callee unknown few different =>
    obtain ⟨-, own, typed, fit⟩ := mem_visible.mp callable
    have same : own = ty := Option.some.inj (typed.symm.trans callee)
    have any : ty = .anyFunction := eq_anyFunction unknown (same ▸ fit)
    have sublist : (b.candidates function .anything).Sublist (Var.first b.types.size) := by
      rw [candidates, visible, inScope_eq_vars]
      exact (List.filter_sublist.trans List.filter_sublist).trans numbered
    have chosen : arguments.Subperm (Var.first b.types.size) := different.trans sublist.subperm
    exact .unknown ((b.of?_types function).trans (any ▸ callee)) few chosen other

end Builder

end EngineFuzz
