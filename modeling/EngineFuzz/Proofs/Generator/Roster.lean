import EngineFuzz.Proofs.Generator.Registry

/-!
Registries as maps. A roster is a map from names to generators that remembers in which order the names
came; it knows nothing of places, running sums or searches. Main statement: whatever is done to a
registry, every question to it is answered from the roster that the same has been done to, and what is
drawn stands in the roster with a weight.
-/

namespace EngineFuzz

namespace Registry.Edit

/-- Whether a generator of this name is added. -/
def Adds (name : String) : Edit → Prop
  | add generator _ => generator.name = name
  | addAll generators => ∃ entry ∈ generators, entry.1.name = name
  | remove _ | removeAll _ => False

/-- Whether whatever has this name is taken out. -/
def Removes (name : String) : Edit → Prop
  | remove removed => removed = name
  | removeAll removed => name ∈ removed
  | add .. | addAll _ => False

end Registry.Edit

/-- The names in their order, and the entry of each. -/
structure Roster where
  order : List String
  find? : String → Option (Generator × UInt32)

namespace Roster

variable {roster : Roster} {name : String}

def empty : Roster := ⟨[], fun _ => none⟩

/-- A name that is there keeps its place, and any other comes last. -/
def set (roster : Roster) (name : String) (entry : Generator × UInt32) : Roster where
  order := if name ∈ roster.order then roster.order else roster.order ++ [name]
  find? other := if other = name then some entry else roster.find? other

def erase (roster : Roster) (name : String) : Roster where
  order := roster.order.filter (· != name)
  find? other := if other = name then none else roster.find? other

def setAll (roster : Roster) (entries : List (Generator × UInt32)) : Roster :=
  entries.foldl (fun roster entry => roster.set entry.1.name entry) roster

def eraseAll (roster : Roster) (names : List String) : Roster := names.foldl erase roster

/-- A generator goes under its own name. -/
def edit (roster : Roster) : Registry.Edit → Roster
  | .add generator weight => roster.set generator.name (generator, weight)
  | .addAll generators => roster.setAll generators
  | .remove name => roster.erase name
  | .removeAll names => roster.eraseAll names

def ofEdits (edits : List Registry.Edit) : Roster := edits.foldl edit empty

/-- All the weights together. -/
def weight (roster : Roster) : Nat :=
  ((roster.order.filterMap roster.find?).map fun (_, weight) => weight.toNat).sum

/-! ### A name that is not there -/

theorem find?_setAll_eq_none {entries : List (Generator × UInt32)} (absent : roster.find? name = none)
    (others : ∀ entry ∈ entries, entry.1.name ≠ name) : (roster.setAll entries).find? name = none := by
  induction entries generalizing roster with
  | nil => exact absent
  | cons entry entries ih =>
    obtain ⟨other, rest⟩ := List.forall_mem_cons.mp others
    refine ih ?_ rest
    simp only [set, other.symm, if_false, absent]

theorem find?_eraseAll (roster : Roster) (names : List String) (name : String) :
    (roster.eraseAll names).find? name = if name ∈ names then none else roster.find? name := by
  induction names generalizing roster with
  | nil => rfl
  | cons first names ih =>
    have later : (roster.eraseAll (first :: names)).find? name =
        ((roster.erase first).eraseAll names).find? name := rfl
    rw [later, ih]
    by_cases now : name = first <;> by_cases listed : name ∈ names <;> simp [erase, now, listed]

/-- What is not in a roster only comes into it by being added. -/
theorem find?_edit_eq_none {change : Registry.Edit} (absent : roster.find? name = none)
    (other : ¬ change.Adds name) : (roster.edit change).find? name = none := by
  cases change with
  | add generator weight => simp only [edit, set, Ne.symm other, if_false, absent]
  | addAll generators =>
    exact find?_setAll_eq_none absent fun entry member same => other ⟨entry, member, same⟩
  | remove removed =>
    simp only [edit, erase, absent]
    split <;> rfl
  | removeAll removed =>
    rw [edit, find?_eraseAll, absent]
    split <;> rfl

theorem find?_edit_of_removes {change : Registry.Edit} (removes : change.Removes name) :
    (roster.edit change).find? name = none := by
  cases change with
  | add generator weight => exact removes.elim
  | addAll generators => exact removes.elim
  | remove removed =>
    have same : name = removed := Eq.symm removes
    simp only [edit, erase, same, if_true]
  | removeAll removed =>
    have member : name ∈ removed := removes
    rw [edit, find?_eraseAll, if_pos member]

/-- Once removed, a name stays away for as long as it is not added. -/
theorem find?_of_removed (before : List Registry.Edit) {change : Registry.Edit} {later : List Registry.Edit}
    (removes : change.Removes name) (others : ∀ edit ∈ later, ¬ edit.Adds name) :
    (ofEdits (before ++ change :: later)).find? name = none := by
  rw [ofEdits, List.foldl_append, List.foldl_cons]
  generalize before.foldl edit empty = roster
  have gone : (roster.edit change).find? name = none := find?_edit_of_removes removes
  generalize roster.edit change = roster at gone
  induction later generalizing roster with
  | nil => exact gone
  | cons next later ih =>
    obtain ⟨other, rest⟩ := List.forall_mem_cons.mp others
    exact ih rest _ (find?_edit_eq_none gone other)

end Roster

namespace Registry

variable {registry other : Registry} {roster : Roster}

/-! ### A registry beside its roster -/

/-- Whether a registry has what is in a roster, each name in its place. -/
structure Shows (registry : Registry) (roster : Roster) : Prop where
  sound : registry.IsSound
  names : registry.names = roster.order
  find? : ∀ name, registry.find? name = roster.find? name

theorem shows_empty : empty.Shows .empty := ⟨isSound_empty, rfl, fun _ => rfl⟩

theorem Shows.add (shown : registry.Shows roster) (generator : Generator) (weight : UInt32) :
    (registry.add generator weight).Shows (roster.set generator.name (generator, weight)) where
  sound := shown.sound.add generator weight
  names := by rw [names_add, shown.names, Roster.set]
  find? name := by
    rw [find?_add, shown.find?, Roster.set]
    simp only [eq_comm]

theorem Shows.addAll (shown : registry.Shows roster) (added : List (Generator × UInt32)) :
    (registry.addAll added).Shows (roster.setAll added) := by
  induction added generalizing registry roster with
  | nil => exact shown
  | cons entry added ih => exact ih (shown.add entry.1 entry.2)

theorem Shows.remove (shown : registry.Shows roster) (name : String) :
    (registry.remove name).2.Shows (roster.erase name) := by
  have one : (registry.remove name).2 = registry.removeAll [name] := rfl
  refine ⟨shown.sound.remove name, ?_, fun wanted => ?_⟩
  · rw [one, names_removeAll, shown.names, Roster.erase]
    apply List.filter_congr
    intro kept _
    simp [bne, Bool.beq_eq_decide_eq]
  · rw [one, find?_removeAll, shown.find?, Roster.erase]
    simp only [List.mem_singleton]

theorem Shows.removeAll (shown : registry.Shows roster) (names : List String) :
    (registry.removeAll names).Shows (roster.eraseAll names) := by
  induction names generalizing registry roster with
  | nil => exact shown
  | cons name names ih => exact ih (shown.remove name)

theorem Shows.edit (shown : registry.Shows roster) (change : Edit) :
    (registry.edit change).Shows (roster.edit change) := by
  cases change with
  | add generator weight => exact shown.add generator weight
  | addAll generators => exact shown.addAll generators
  | remove name => exact shown.remove name
  | removeAll names => exact shown.removeAll names

theorem shows_ofEdits (edits : List Edit) : (ofEdits edits).Shows (.ofEdits edits) := by
  induction edits using List.reverseRecOn with
  | nil => exact shows_empty
  | append_singleton edits change ih =>
    rw [ofEdits, Roster.ofEdits, List.foldl_append, List.foldl_append]
    exact ih.edit change

/-! ### Questions to a registry -/

theorem Shows.entries (shown : registry.Shows roster) :
    registry.entries = roster.order.filterMap roster.find? := by
  rw [shown.sound.entries_eq, shown.names]
  exact List.filterMap_congr fun name _ => shown.find? name

theorem remove_fst (registry : Registry) (name : String) :
    (registry.remove name).1 = registry.contains name := by
  have counted : (registry.generators.removeAll (·.name == name)).1 =
      registry.entries.countP fun (g, _) => g.name == name := Urn.removeAll_fst ..
  have there : 0 < registry.entries.countP (fun (g, _) => g.name == name) ↔
      registry.contains name = true := by
    rw [List.countP_pos_iff, contains_iff, Registry.names, List.mem_map]
    simp only [beq_iff_eq]
  rw [Bool.eq_iff_iff, ← there, ← counted]
  exact decide_eq_true_iff

/-- Entries are all that there is to a registry. -/
theorem IsSound.ext (sound : registry.IsSound) (otherSound : other.IsSound)
    (same : registry.entries = other.entries) : registry = other := by
  have urns : registry.generators = other.generators := by
    rw [sound.summed.eq_ofList, otherSound.summed.eq_ofList]
    exact congrArg Urn.ofList same
  cases registry
  cases other
  exact congrArg Registry.mk urns

theorem IsSound.removeAll_congr (sound : registry.IsSound) {names others : List String}
    (same : ∀ name, name ∈ names ↔ name ∈ others) :
    registry.removeAll names = registry.removeAll others := by
  refine (sound.removeAll names).ext (sound.removeAll others) ?_
  rw [entries_removeAll, entries_removeAll]
  apply List.filter_congr
  intro entry _
  simp only [List.contains_eq_mem, same]

/-- What is drawn is found under its name, and has a weight. -/
theorem IsSound.find?_of_draw (sound : registry.IsSound) {rng rest : Rng} {generator : Generator}
    (drawn : registry.draw rng = (.ok generator, rest)) :
    ∃ weight, registry.find? generator.name = some (generator, weight) ∧ weight ≠ 0 := by
  obtain ⟨weight, member, positive⟩ := sound.summed.weight_of_draw drawn
  exact ⟨weight, sound.find?_name member, positive⟩

/-- Every question to a registry, as a roster answers it. -/
structure Answers (registry : Registry) (roster : Roster) : Prop where
  names : registry.names = roster.order
  unique : roster.order.Nodup
  ordered : ∀ name, name ∈ roster.order ↔ (roster.find? name).isSome = true
  get : ∀ name, registry.get? name = (roster.find? name).map (·.1)
  weight : ∀ name, registry.weight? name = (roster.find? name).map (·.2)
  contains : ∀ name, registry.contains name = (roster.find? name).isSome
  size : registry.size = roster.order.length
  total : registry.totalWeight = roster.weight
  /-- Whether there has been something to remove. -/
  removed : ∀ name, (registry.remove name).1 = (roster.find? name).isSome
  drawn : ∀ rng generator rest, registry.draw rng = (.ok generator, rest) →
    ∃ weight, roster.find? generator.name = some (generator, weight) ∧ weight ≠ 0

theorem Shows.answers (shown : registry.Shows roster) : registry.Answers roster := by
  have contains : ∀ name, registry.contains name = (roster.find? name).isSome := by
    intro name
    rw [Registry.contains, get?, Option.isSome_map, shown.find?]
  constructor
  · exact shown.names
  · exact shown.names ▸ shown.sound.names
  · intro name
    rw [← shown.names, ← contains_iff, contains]
  · intro name
    rw [get?, shown.find?]
  · intro name
    rw [weight?, shown.find?]
  · exact contains
  · rw [← shown.names, Registry.names, List.length_map]
    rfl
  · rw [Roster.weight, ← shown.entries]
    exact shown.sound.summed.total_eq
  · exact fun name => (remove_fst registry name).trans (contains name)
  · intro rng generator rest drawn
    obtain ⟨weight, found, positive⟩ := shown.sound.find?_of_draw drawn
    exact ⟨weight, (shown.find? generator.name).symm.trans found, positive⟩

/-- A registry goes with the roster through any edits. Of names removed together only the set matters,
and one that has been removed is not drawn before it is added again. -/
theorem ofEdits_answers (edits : List Edit) :
    (ofEdits edits).Answers (.ofEdits edits) ∧
    (∀ names others, (∀ name, name ∈ names ↔ name ∈ others) →
      (ofEdits edits).removeAll names = (ofEdits edits).removeAll others) ∧
    ∀ name (change : Edit) (later : List Edit), change.Removes name → (∀ edit ∈ later, ¬ edit.Adds name) →
      ∀ rng generator rest, (ofEdits (edits ++ change :: later)).draw rng = (.ok generator, rest) →
        generator.name ≠ name := by
  refine ⟨(shows_ofEdits edits).answers, fun names others same => ?_, ?_⟩
  · exact (shows_ofEdits edits).sound.removeAll_congr same
  · intro name change later removes others rng generator rest drawn same
    have gone : (Roster.ofEdits (edits ++ change :: later)).find? name = none :=
      Roster.find?_of_removed edits removes others
    obtain ⟨weight, found, -⟩ := (shows_ofEdits _).answers.drawn rng generator rest drawn
    rw [same, gone] at found
    cases found

end Registry

end EngineFuzz
