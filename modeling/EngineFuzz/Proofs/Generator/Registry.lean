import EngineFuzz.Generator.Registry
import EngineFuzz.Proofs.Random.Urn
import Mathlib.Data.List.Basic

/-!
Registries by their entries. Each operation is told by the names that it leaves, in their order, and by
what is found under each of them; names never repeat, so the two together are the whole registry.
-/

namespace EngineFuzz

namespace Registry

variable {registry : Registry}

/-- Something done to a registry. -/
inductive Edit where
  | add (generator : Generator) (weight : UInt32)
  | addAll (generators : List (Generator × UInt32))
  | remove (name : String)
  | removeAll (names : List String)

def edit (registry : Registry) : Edit → Registry
  | .add generator weight => registry.add generator weight
  | .addAll generators => registry.addAll generators
  | .remove name => (registry.remove name).2
  | .removeAll names => registry.removeAll names

def ofEdits (edits : List Edit) : Registry := edits.foldl edit empty

/-- Puts a generator in the place of the one of its name, or at the end. -/
def put (generator : Generator) (weight : UInt32) : List (Generator × UInt32) → List (Generator × UInt32)
  | [] => [(generator, weight)]
  | entry :: entries =>
    if entry.1.name = generator.name then (generator, weight) :: entries
    else entry :: put generator weight entries

/-! ### The entries after an operation -/

theorem put_eq_set (generator : Generator) (weight : UInt32) (entries : List (Generator × UInt32)) :
    put generator weight entries =
      match entries.findIdx? fun (old, _) => old.name == generator.name with
      | some i => entries.set i (generator, weight)
      | none => entries ++ [(generator, weight)] := by
  induction entries with
  | nil => rfl
  | cons entry entries ih =>
    rw [put, List.findIdx?_cons]
    by_cases same : entry.1.name = generator.name
    · simp [same]
    · rw [ih]
      cases entries.findIdx? fun (old, _) => old.name == generator.name <;> simp [same]

theorem entries_add (registry : Registry) (generator : Generator) (weight : UInt32) :
    (registry.add generator weight).entries = put generator weight registry.entries := by
  simp only [put_eq_set, add, Urn.replaceFirst, entries]
  cases registry.generators.entries.findIdx? fun (old, _) => old.name == generator.name <;> rfl

theorem entries_remove (registry : Registry) (name : String) :
    (registry.remove name).2.entries = registry.entries.filter fun (g, _) => !(g.name == name) :=
  Urn.entries_removeAll registry.generators (·.name == name)

theorem entries_removeAll (registry : Registry) (names : List String) :
    (registry.removeAll names).entries =
      registry.entries.filter fun (g, _) => !names.contains g.name := by
  induction names generalizing registry with
  | nil => exact (List.filter_eq_self.mpr fun _ _ => rfl).symm
  | cons name names ih =>
    have first : registry.removeAll (name :: names) = (registry.remove name).2.removeAll names := rfl
    rw [first, ih, entries_remove, List.filter_filter]
    apply List.filter_congr
    intro entry _
    simp only [List.contains_cons, Bool.not_or, Bool.and_comm]

/-! ### Names -/

theorem names_put (generator : Generator) (weight : UInt32) (entries : List (Generator × UInt32)) :
    (put generator weight entries).map (·.1.name) =
      if generator.name ∈ entries.map (·.1.name) then entries.map (·.1.name)
      else entries.map (·.1.name) ++ [generator.name] := by
  induction entries with
  | nil => rfl
  | cons entry entries ih =>
    rw [put]
    by_cases same : entry.1.name = generator.name
    · simp [same]
    · have other : generator.name ≠ entry.1.name := Ne.symm same
      simp only [same, if_false, List.map_cons, ih, List.mem_cons, other, false_or]
      split <;> rfl

/-- A new name comes last, and one that is there keeps its place. -/
theorem names_add (registry : Registry) (generator : Generator) (weight : UInt32) :
    (registry.add generator weight).names =
      if generator.name ∈ registry.names then registry.names else registry.names ++ [generator.name] := by
  rw [names, entries_add]
  exact names_put generator weight registry.entries

/-- The new names come last, in the order in which they first occur. -/
theorem names_addAll (registry : Registry) (added : List (Generator × UInt32)) :
    (registry.addAll added).names = registry.names ++
      ((added.map (·.1.name)).filter fun name => !registry.names.contains name).eraseDups := by
  induction added generalizing registry with
  | nil => simp [addAll]
  | cons entry added ih =>
    have first : registry.addAll (entry :: added) = (registry.add entry.1 entry.2).addAll added := rfl
    rw [first, ih, names_add, List.map_cons]
    by_cases old : entry.1.name ∈ registry.names
    · have known : registry.names.contains entry.1.name = true := List.contains_iff_mem.mpr old
      simp only [old, if_true, List.filter_cons, known, Bool.not_true, Bool.false_eq_true, if_false]
    · have absent : registry.names.contains entry.1.name = false := by simpa using old
      have others : ((added.map (·.1.name)).filter fun name =>
            !(registry.names ++ [entry.1.name]).contains name) =
          ((added.map (·.1.name)).filter fun name => !registry.names.contains name).filter
            fun name => !name == entry.1.name := by
        rw [List.filter_filter]
        apply List.filter_congr
        intro name _
        simp [Bool.and_comm, Bool.beq_eq_decide_eq]
      simp only [old, if_false, List.filter_cons, absent, Bool.not_false, if_true, others,
        List.eraseDups_cons, List.append_assoc, List.singleton_append]

theorem names_removeAll (registry : Registry) (removed : List String) :
    (registry.removeAll removed).names = registry.names.filter fun name => !removed.contains name := by
  rw [names, entries_removeAll, names, List.filter_map]
  rfl

/-! ### What is found under a name -/

theorem find?_put (generator : Generator) (weight : UInt32) (entries : List (Generator × UInt32))
    (name : String) : (put generator weight entries).find? (fun (g, _) => g.name == name) =
      if generator.name = name then some (generator, weight)
      else entries.find? fun (g, _) => g.name == name := by
  induction entries with
  | nil =>
    by_cases wanted : generator.name = name <;> simp [put, wanted]
  | cons entry entries ih =>
    rw [put]
    by_cases same : entry.1.name = generator.name
    · by_cases wanted : generator.name = name <;> simp [same, wanted]
    · rw [if_neg same, List.find?_cons, List.find?_cons, ih]
      by_cases wanted : generator.name = name
      · have other : (entry.1.name == name) = false := beq_false_of_ne (wanted ▸ same)
        simp [other, wanted]
      · simp [wanted]

theorem find?_add (registry : Registry) (generator : Generator) (weight : UInt32) (name : String) :
    (registry.add generator weight).find? name =
      if generator.name = name then some (generator, weight) else registry.find? name := by
  rw [find?, entries_add]
  exact find?_put generator weight registry.entries name

/-- The last addition of a name counts. -/
theorem find?_addAll (registry : Registry) (added : List (Generator × UInt32)) (name : String) :
    (registry.addAll added).find? name =
      (added.findRev? fun (g, _) => g.name == name).or (registry.find? name) := by
  induction added generalizing registry with
  | nil => rfl
  | cons entry added ih =>
    have first : registry.addAll (entry :: added) = (registry.add entry.1 entry.2).addAll added := rfl
    rw [first, ih, find?_add, List.findRev?]
    cases added.findRev? fun (g, _) => g.name == name with
    | some last => rfl
    | none => by_cases wanted : entry.1.name = name <;> simp [wanted]

theorem find?_removeAll (registry : Registry) (removed : List String) (name : String) :
    (registry.removeAll removed).find? name =
      if name ∈ removed then none else registry.find? name := by
  rw [find?, entries_removeAll, List.find?_filter, find?]
  split
  next gone =>
    rw [List.find?_eq_none]
    intro entry _
    simp only [Bool.not_eq_true', decide_eq_true_eq, not_and]
    intro kept same
    rw [eq_of_beq same] at kept
    simp [gone] at kept
  next kept =>
    congr 1
    funext entry
    by_cases wanted : entry.1.name = name <;> simp [wanted, kept]

theorem contains_iff {name : String} : registry.contains name = true ↔ name ∈ registry.names := by
  rw [contains, get?, Option.isSome_map, find?, List.find?_isSome, names, List.mem_map]
  simp only [beq_iff_eq]

/-! ### Whole registries -/

/-- Names that never repeat, and running sums in step with the entries. -/
structure IsSound (registry : Registry) : Prop where
  names : registry.names.Nodup
  summed : registry.generators.IsSummed

theorem isSound_empty : empty.IsSound := ⟨List.nodup_nil, Urn.isSummed_empty⟩

theorem IsSound.add (sound : registry.IsSound) (generator : Generator) (weight : UInt32) :
    (registry.add generator weight).IsSound := by
  constructor
  · rw [names_add]
    split
    · exact sound.names
    next new =>
      rw [List.nodup_append]
      refine ⟨sound.names, List.pairwise_singleton .., fun a old b last same => new ?_⟩
      rw [← List.mem_singleton.mp last, ← same]
      exact old
  · have replaced := sound.summed.replaceFirst (·.name == generator.name) generator weight
    rw [Registry.add]
    split
    next there =>
      rw [there] at replaced
      exact replaced
    next absent =>
      rw [absent] at replaced
      exact replaced.push generator weight

theorem IsSound.addAll (sound : registry.IsSound) (added : List (Generator × UInt32)) :
    (registry.addAll added).IsSound := by
  induction added generalizing registry with
  | nil => exact sound
  | cons entry added ih => exact ih (sound.add entry.1 entry.2)

theorem IsSound.remove (sound : registry.IsSound) (name : String) :
    (registry.remove name).2.IsSound := by
  constructor
  · rw [Registry.names, entries_remove]
    exact (List.filter_sublist.map _).nodup sound.names
  · exact sound.summed.removeAll (·.name == name)

theorem IsSound.removeAll (sound : registry.IsSound) (names : List String) :
    (registry.removeAll names).IsSound := by
  induction names generalizing registry with
  | nil => exact sound
  | cons name names ih => exact ih (sound.remove name)

theorem IsSound.edit (sound : registry.IsSound) (change : Edit) : (registry.edit change).IsSound := by
  cases change with
  | add generator weight => exact sound.add generator weight
  | addAll generators => exact sound.addAll generators
  | remove name => exact sound.remove name
  | removeAll names => exact sound.removeAll names

theorem isSound_ofEdits (edits : List Edit) : (ofEdits edits).IsSound := by
  induction edits using List.reverseRecOn with
  | nil => exact isSound_empty
  | append_singleton edits change ih =>
    rw [ofEdits, List.foldl_append]
    exact ih.edit change

/-- An entry is found under its name, which no other has. -/
theorem IsSound.find?_name (sound : registry.IsSound) {entry : Generator × UInt32}
    (member : entry ∈ registry.entries) : registry.find? entry.1.name = some entry := by
  have unique : (registry.entries.map (·.1.name)).Nodup := sound.names
  unfold find?
  generalize registry.entries = entries at unique member
  induction entries with
  | nil => exact absurd member List.not_mem_nil
  | cons first entries ih =>
    have ⟨new, rest⟩ := List.nodup_cons.mp unique
    rcases List.mem_cons.mp member with rfl | later
    · simp
    · have other : (first.1.name == entry.1.name) = false := by
        apply beq_false_of_ne
        intro same
        exact new (List.mem_map.mpr ⟨entry, later, same.symm⟩)
      simp only [List.find?_cons, other]
      exact ih rest later

/-- A registry is what is found under its names. -/
theorem IsSound.entries_eq (sound : registry.IsSound) :
    registry.entries = registry.names.filterMap registry.find? := by
  rw [Registry.names, List.filterMap_map]
  calc registry.entries
    _ = registry.entries.filterMap some := (List.filterMap_some ..).symm
    _ = _ := List.filterMap_congr fun entry member => (sound.find?_name member).symm

/-! ### Draws -/

/-- What is said when nothing can be drawn. -/
def drawError (registry : Registry) : DrawError :=
  if registry.isEmpty then .empty else .weightless registry.size

theorem IsSound.draw_of_weightless (sound : registry.IsSound) (light : registry.totalWeight = 0) (rng : Rng) :
    registry.draw rng = (.error registry.drawError, rng) := by
  rcases sound.summed.draw_cases rng with ⟨none, drawn⟩ | ⟨some, -, drawn⟩ | ⟨heavy, -⟩
  · have error : registry.drawError = .empty := by simp [drawError, isEmpty, Urn.isEmpty, none]
    rw [error]
    exact drawn
  · have error : registry.drawError = .weightless registry.size := by
      simp [drawError, isEmpty, Urn.isEmpty, some]
    rw [error]
    exact drawn
  · exact absurd light (Nat.ne_of_gt heavy)

theorem IsSound.exists_draw (sound : registry.IsSound) (heavy : registry.totalWeight ≠ 0) (rng : Rng) :
    ∃ entry ∈ registry.entries, ∃ rest, registry.draw rng = (.ok entry.1, rest) := by
  have total : registry.totalWeight = Urn.weigh registry.entries := sound.summed.total_eq
  rcases sound.summed.draw_cases rng with ⟨none, -⟩ | ⟨-, light, -⟩ | ⟨_, entry, member, -, drawn⟩
  · exact absurd (total.trans (congrArg Urn.weigh none)) heavy
  · exact absurd (total.trans light) heavy
  · exact ⟨entry, member, _, drawn⟩

end Registry

end EngineFuzz
