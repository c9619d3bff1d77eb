import EngineFuzz.Proofs.Json.Agreement

/-!
Records written without some of their fields. A field may be left out where nothing is in it; a reader
that has a default for it, which is nothing too, finds what it would have found.
-/

namespace EngineFuzz

namespace Json

/-- Whether there is nothing in a text, a list or an object. -/
def isVoid : Json → Bool
  | text (some s) => s.isEmpty
  | array items => items.isEmpty
  | object fields => fields.isEmpty
  | _ => false

@[simp] theorem isVoid_string (s : String) : (string s).isVoid = true ↔ s = "" := String.isEmpty_iff

@[simp] theorem isVoid_array_map {α : Type} (toJson : α → Json) (as : List α) :
    (array (as.map toJson)).isVoid = true ↔ as = [] := by
  simp [isVoid]

theorem record_inj {first second : List (String × Json)} : record first = record second ↔ first = second := by
  rw [record, record, object.injEq, List.map_inj_right]
  rintro ⟨name, value⟩ ⟨other, otherValue⟩ same
  simpa using same

end Json

/-- `given` is `fields` without some of those in which there is nothing. -/
structure Fields.Omits (given fields : List (String × Json)) : Prop where
  sublist : given.Sublist fields
  void : ∀ field ∈ fields, field ∈ given ∨ field.2.isVoid = true

/-- The same record with fewer fields, none of them lost but void ones. -/
def Json.Shortens (short whole : Json) : Prop :=
  ∃ given fields, short = record given ∧ whole = record fields ∧ Fields.Omits given fields

/-- What is left of a record without all fields in which there is nothing. -/
def Json.withoutVoid : Json → Json
  | object fields => object (fields.filter fun field => !field.2.isVoid)
  | j => j

theorem Json.shortens_record (fields : List (String × Json)) : (record fields).Shortens (record fields) :=
  ⟨fields, fields, rfl, rfl, .refl fields, fun _ member => .inl member⟩

theorem Json.withoutVoid_shortens (fields : List (String × Json)) :
    (record fields).withoutVoid.Shortens (record fields) := by
  refine ⟨fields.filter fun field => !field.2.isVoid, fields, ?_, rfl, List.filter_sublist, ?_⟩
  · rw [record, withoutVoid, List.filter_map]
    rfl
  · intro field member
    cases void : field.2.isVoid with
    | true => exact .inr rfl
    | false => exact .inl (List.mem_filter.mpr ⟨member, by simp [void]⟩)

namespace Fields

variable {α : Type} {site : Site} {given fields : List (String × Json)} {name : String} {j : Json}

theorem lookup_of_mem (distinct : (fields.map (·.1)).Nodup) (member : (name, j) ∈ fields) :
    fields.lookup name = some j := by
  obtain ⟨before, after, rfl⟩ := List.append_of_mem member
  refine List.lookup_eq_some_iff.mpr ⟨before, after, rfl, fun field earlier => ?_⟩
  rw [List.map_append, List.nodup_append] at distinct
  have different := distinct.2.2 field.1 (List.mem_map_of_mem earlier) name (by simp)
  simpa using Ne.symm different

theorem Omits.distinct (omits : Omits given fields) (distinct : (fields.map (·.1)).Nodup) :
    (given.map (·.1)).Nodup :=
  distinct.sublist (omits.sublist.map _)

theorem Omits.required (omits : Omits given fields) (distinct : (fields.map (·.1)).Nodup)
    (member : (name, j) ∈ fields) (filled : j.isVoid = false) (item : Decoder α) :
    Fields.required ⟨site, given, false⟩ name item = item site j := by
  have kept : (name, j) ∈ given := (omits.void _ member).resolve_right (by simp [filled])
  rw [Fields.required, lookup_of_mem (omits.distinct distinct) kept]

/-- A field that is left out has its default, and one that is there is read. -/
theorem Omits.defaulted (omits : Omits given fields) (distinct : (fields.map (·.1)).Nodup)
    (member : (name, j) ∈ fields) {item : Decoder α} {a default : α} (read : item site j = some a)
    (unset : j.isVoid = true → a = default) :
    Fields.defaulted ⟨site, given, false⟩ name default item = some a := by
  rw [Fields.defaulted]
  split
  next other found =>
    obtain ⟨before, after, rfl, -⟩ := List.lookup_eq_some_iff.mp found
    have there : (name, other) ∈ fields := omits.sublist.subset (by simp)
    have same : other = j :=
      Option.some.inj ((lookup_of_mem distinct there).symm.trans (lookup_of_mem distinct member))
    rw [same, read]
  next absent =>
    rcases omits.void _ member with kept | void
    · rw [lookup_of_mem (omits.distinct distinct) kept] at absent
      cases absent
    · rw [unset void]

end Fields

end EngineFuzz
