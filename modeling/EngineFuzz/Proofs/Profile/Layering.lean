import EngineFuzz.Profile.Known
import EngineFuzz.Proofs.Generator.Registry

/-!
A profile as a layer over a registry. Main statement: the registry of a target has the names of the base
that are not disabled, then the names that are new; under each of them is what was added last, or else
what the base has.
-/

namespace EngineFuzz.Profile

variable {profile : Profile} {base : Registry}

/-- The names of `base` that are left, in its order. -/
def keptNames (profile : Profile) (base : Registry) : List String :=
  base.names.filter fun name => !profile.disabled.contains name

/-- The names that come to these, in the order in which they are first added. -/
def newNames (profile : Profile) (base : Registry) : List String :=
  ((profile.added.map (·.1.name)).filter fun name =>
    !(profile.keptNames base).contains name).eraseDups

/-- What was added last under a name. -/
def lastAdded? (profile : Profile) (name : String) : Option (Generator × UInt32) :=
  profile.added.findRev? fun (g, _) => g.name == name

/-- The base and the profile over it, entry by entry. -/
def layered (profile : Profile) (base : Registry) : List (Generator × UInt32) :=
  (profile.keptNames base ++ profile.newNames base).filterMap fun name =>
    (profile.lastAdded? name).or (base.find? name)

/-- The registry before it is known whether anything can be drawn from it. -/
def candidate (profile : Profile) (base : Registry) : Registry :=
  (base.removeAll profile.disabled).addAll profile.added

theorem isSound_candidate (profile : Profile) (sound : base.IsSound) :
    (profile.candidate base).IsSound :=
  (sound.removeAll profile.disabled).addAll profile.added

theorem names_candidate (profile : Profile) (base : Registry) :
    (profile.candidate base).names = profile.keptNames base ++ profile.newNames base := by
  rw [candidate, Registry.names_addAll, Registry.names_removeAll]
  rfl

theorem mem_newNames {name : String} : name ∈ profile.newNames base ↔
    (profile.lastAdded? name).isSome = true ∧ name ∉ profile.keptNames base := by
  rw [newNames, List.mem_eraseDups, List.mem_filter, lastAdded?, List.findRev?_eq_find?_reverse,
    List.find?_isSome, List.mem_map]
  simp only [List.mem_reverse, beq_iff_eq, Bool.not_eq_true', ← Bool.not_eq_true, List.contains_iff_mem]

/-- A name that is left of the base, or is new, is found as the layers have it. A disabled one is new
if it is there at all, and so it has been added. -/
theorem find?_candidate {name : String} (present : name ∈ profile.keptNames base ++ profile.newNames base) :
    (profile.candidate base).find? name = (profile.lastAdded? name).or (base.find? name) := by
  rw [candidate, Registry.find?_addAll, Registry.find?_removeAll]
  split
  next gone =>
    have notKept : name ∉ profile.keptNames base := by simp [keptNames, gone]
    have new : name ∈ profile.newNames base := (List.mem_append.mp present).resolve_left notKept
    obtain ⟨last, found⟩ := Option.isSome_iff_exists.mp (mem_newNames.mp new).1
    rw [← lastAdded?, found]
    rfl
  next => rfl

theorem entries_candidate (profile : Profile) (sound : base.IsSound) :
    (profile.candidate base).entries = profile.layered base := by
  rw [(profile.isSound_candidate sound).entries_eq, names_candidate, layered]
  exact List.filterMap_congr fun name present => find?_candidate present

theorem candidate_eq (profile : Profile) (sound : base.IsSound) :
    profile.candidate base = ⟨.ofList (profile.layered base)⟩ := by
  have whole := (profile.isSound_candidate sound).summed.eq_ofList
  rw [← entries_candidate profile sound, Registry.entries, ← whole]

theorem totalWeight_candidate (profile : Profile) (sound : base.IsSound) :
    (profile.candidate base).totalWeight = Urn.weigh (profile.layered base) := by
  rw [← entries_candidate profile sound]
  exact (profile.isSound_candidate sound).summed.total_eq

/-- What a profile makes of a base. -/
structure Layers (profile : Profile) (base : Registry) : Prop where
  /-- The first disabled name that is not in the base counts, whether or not it is added. -/
  unknown : ∀ name, profile.registryOver base = .error (.unknownName name) ↔
    ∃ before after, profile.disabled = before ++ name :: after ∧
      (∀ known ∈ before, known ∈ base.names) ∧ name ∉ base.names
  nothingLeft : profile.registryOver base = .error .nothingLeft ↔
    (∀ name ∈ profile.disabled, name ∈ base.names) ∧ Urn.weigh (profile.layered base) = 0
  ok : ∀ registry, profile.registryOver base = .ok registry ↔
    (∀ name ∈ profile.disabled, name ∈ base.names) ∧ Urn.weigh (profile.layered base) ≠ 0 ∧
      registry = ⟨.ofList (profile.layered base)⟩
  names : (profile.layered base).map (·.1.name) = profile.keptNames base ++ profile.newNames base
  unique : (profile.keptNames base ++ profile.newNames base).Nodup
  entries : ∀ entry ∈ profile.layered base,
    (profile.lastAdded? entry.1.name).or (base.find? entry.1.name) = some entry
  /-- A disabled name that is added again stands among the new ones, with what was added last. -/
  again : ∀ name ∈ profile.disabled, ∀ entry, profile.lastAdded? name = some entry →
    name ∉ profile.keptNames base ∧ name ∈ profile.newNames base ∧ entry ∈ profile.layered base

/-- The first name that is disabled without being there, if there is one. -/
theorem find?_unknown_eq_none_iff :
    (profile.disabled.find? fun name => !base.contains name) = none ↔
      ∀ name ∈ profile.disabled, name ∈ base.names := by
  simp only [List.find?_eq_none, Bool.not_eq_true', Bool.not_eq_false, Registry.contains_iff]

theorem registryOver_eq_unknownName_iff {name : String} :
    profile.registryOver base = .error (.unknownName name) ↔
      ∃ before after, profile.disabled = before ++ name :: after ∧
        (∀ known ∈ before, known ∈ base.names) ∧ name ∉ base.names := by
  have first : profile.registryOver base = .error (.unknownName name) ↔
      (profile.disabled.find? fun name => !base.contains name) = some name := by
    unfold registryOver
    split
    next other found => simp [found]
    next none =>
      simp only [none, reduceCtorEq, iff_false]
      split <;> simp
  rw [first, List.find?_eq_some_iff_append]
  simp only [Bool.not_not, Registry.contains_iff, Bool.not_eq_true', ← Bool.not_eq_true]
  constructor
  · rintro ⟨absent, before, after, same, known⟩
    exact ⟨before, after, same, known, absent⟩
  · rintro ⟨before, after, same, known, absent⟩
    exact ⟨absent, before, after, same, known⟩

/-- Once all disabled names are known, all hangs on the weight of the layers. -/
theorem registryOver_of_known (sound : base.IsSound) (known : ∀ name ∈ profile.disabled, name ∈ base.names) :
    profile.registryOver base =
      if Urn.weigh (profile.layered base) = 0 then .error .nothingLeft
      else .ok ⟨.ofList (profile.layered base)⟩ := by
  rw [← totalWeight_candidate profile sound, ← candidate_eq profile sound, registryOver,
    find?_unknown_eq_none_iff.mpr known]
  rfl

/-- Without a complaint about a name, all disabled names are known. -/
theorem known_of_registryOver {result : Except ProfileError Registry}
    (made : profile.registryOver base = result) (quiet : ∀ name, result ≠ .error (.unknownName name)) :
    ∀ name ∈ profile.disabled, name ∈ base.names := by
  rw [← find?_unknown_eq_none_iff]
  cases found : profile.disabled.find? fun name => !base.contains name with
  | none => rfl
  | some name =>
    have complaint : profile.registryOver base = .error (.unknownName name) := by
      rw [registryOver, found]
    exact absurd (made.symm.trans complaint) (quiet name)

theorem registryOver_eq_ok_iff (sound : base.IsSound) {registry : Registry} :
    profile.registryOver base = .ok registry ↔
      (∀ name ∈ profile.disabled, name ∈ base.names) ∧ Urn.weigh (profile.layered base) ≠ 0 ∧
        registry = ⟨.ofList (profile.layered base)⟩ := by
  constructor
  · intro made
    have known := known_of_registryOver made (by simp)
    rw [registryOver_of_known sound known] at made
    split at made
    · cases made
    next heavy =>
      cases made
      exact ⟨known, heavy, rfl⟩
  · rintro ⟨known, heavy, rfl⟩
    rw [registryOver_of_known sound known, if_neg heavy]

theorem mem_of_mem_layered {entry : Generator × UInt32} (member : entry ∈ profile.layered base) :
    entry ∈ profile.added ∨ entry ∈ base.entries := by
  obtain ⟨name, -, found⟩ := List.mem_filterMap.mp member
  rcases Option.or_eq_some_iff.mp found with added | ⟨-, kept⟩
  · rw [lastAdded?, List.findRev?_eq_find?_reverse] at added
    exact .inl (List.mem_reverse.mp (List.mem_of_find?_eq_some added))
  · exact .inr (List.mem_of_find?_eq_some kept)

/-- What a profile makes of a base can be drawn from. -/
theorem fed_of_registryOver (sound : base.IsSound) {registry : Registry}
    (made : profile.registryOver base = .ok registry) :
    registry.IsSound ∧ registry.totalWeight ≠ 0 ∧ registry.entries = profile.layered base := by
  obtain ⟨-, heavy, rfl⟩ := (registryOver_eq_ok_iff sound).mp made
  rw [← candidate_eq profile sound]
  exact ⟨profile.isSound_candidate sound, (totalWeight_candidate profile sound).symm ▸ heavy,
    entries_candidate profile sound⟩

/-- Any base that registry operations lead to is layered so. -/
theorem layers_ofEdits (profile : Profile) (edits : List Registry.Edit) :
    profile.Layers (Registry.ofEdits edits) := by
  have sound := Registry.isSound_ofEdits edits
  generalize Registry.ofEdits edits = base at sound
  have names : (profile.layered base).map (·.1.name) = profile.keptNames base ++ profile.newNames base := by
    rw [← entries_candidate profile sound, ← names_candidate]
    rfl
  have unique : (profile.keptNames base ++ profile.newNames base).Nodup := by
    rw [← names_candidate]
    exact (profile.isSound_candidate sound).names
  have entries : ∀ entry ∈ profile.layered base,
      (profile.lastAdded? entry.1.name).or (base.find? entry.1.name) = some entry := by
    intro entry member
    have present : entry.1.name ∈ profile.keptNames base ++ profile.newNames base :=
      names ▸ List.mem_map_of_mem member
    rw [← entries_candidate profile sound] at member
    rw [← find?_candidate present, (profile.isSound_candidate sound).find?_name member]
  constructor
  · exact fun name => registryOver_eq_unknownName_iff
  · constructor
    · intro failed
      have known := known_of_registryOver failed (by simp)
      rw [registryOver_of_known sound known] at failed
      split at failed
      next light => exact ⟨known, light⟩
      · cases failed
    · rintro ⟨known, light⟩
      rw [registryOver_of_known sound known, if_pos light]
  · exact fun registry => registryOver_eq_ok_iff sound
  · exact names
  · exact unique
  · exact entries
  · intro name disabled entry added
    have notKept : name ∉ profile.keptNames base := by simp [keptNames, disabled]
    have new : name ∈ profile.newNames base := mem_newNames.mpr ⟨by simp [added], notKept⟩
    refine ⟨notKept, new, List.mem_filterMap.mpr ⟨name, List.mem_append_right _ new, ?_⟩⟩
    rw [added]
    rfl

/-- A generator that is disabled and added again comes after those of the base, and its last weight
counts; one that is only added again keeps its place. -/
example : (layered
      { v8 with
        disabled := ["BuiltinGenerator"]
        added := [(.builtin, 7), (.optimizedCall, 10), (.integer, 1), (.builtin, 8)] }
      .base).map (fun entry => (entry.1.name, entry.2)) =
    [("IntegerGenerator", 1), ("BinaryOperationGenerator", 4), ("FunctionDefinitionGenerator", 3),
      ("FunctionCallGenerator", 10), ("ForLoopGenerator", 5), ("BuiltinGenerator", 8),
      ("ForceV8TurbofanGenerator", 10)] := by decide +kernel

end EngineFuzz.Profile
