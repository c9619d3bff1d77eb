import EngineFuzz.Json.Decoder
import EngineFuzz.Proofs.Json.Depth
import EngineFuzz.Proofs.Json.Text

/-!
Readers and writers of one kind of data that agree. A value that is written where there is room for it is
read back, and whatever is read at a place could have been written there. The second half is what makes
every accepted spelling safe to write anew: data that came from a text nests no deeper when written than
that text has room for.
-/

namespace EngineFuzz

namespace Site

/-- Whether the value may be met here: if it has been held, it fits the room that is left. -/
def Allows (site : Site) (j : Json) : Prop := site.held = true → j.holds site.room = true

theorem Allows.item {site : Site} {items : List Json} (allowed : site.Allows (.array items)) :
    ∀ item ∈ items, site.inside.Allows item :=
  fun item member held => (Json.holds_array.mp (allowed held)).2 item member

theorem Allows.field {site : Site} {fields : List (Option String × Json)}
    (allowed : site.Allows (.object fields)) : ∀ field ∈ fields, site.inside.Allows field.2 :=
  fun field member held => ((Json.holds_object.mp (allowed held)).2 field member).2

theorem allows_root (j : Json) : root.Allows j := fun held => nomatch held

end Site

namespace Decoder

/-- Reader and writer agree at a site. -/
structure Agrees (decoder : Decoder α) (toJson : α → Json) (site : Site) : Prop where
  /-- What is written is read, if it can stand there. -/
  reads : ∀ a, (toJson a).holds site.room = true → decoder site (toJson a) = some a
  /-- What is read can stand there when it is written. -/
  fits : ∀ j a, site.Allows j → decoder site j = some a → (toJson a).holds site.room = true

variable {α β : Type} {site : Site}

theorem mapM_map_of_each {f : β → Option α} {g : α → β} {as : List α}
    (each : ∀ a ∈ as, f (g a) = some a) : (as.map g).mapM f = some as := by
  induction as with
  | nil => rfl
  | cons a as ih =>
    rw [List.forall_mem_cons] at each
    rw [List.map_cons, List.mapM_cons, each.1, ih each.2]
    rfl

theorem exists_of_mapM {f : β → Option α} {items : List β} {as : List α}
    (read : items.mapM f = some as) {a : α} (member : a ∈ as) : ∃ item ∈ items, f item = some a := by
  induction items generalizing as with
  | nil =>
    cases read
    cases member
  | cons item items ih =>
    simp only [List.mapM_cons, Option.bind_eq_bind, Option.bind_eq_some_iff, Option.pure_def,
      Option.some.injEq] at read
    obtain ⟨first, readFirst, others, readOthers, rfl⟩ := read
    rcases List.mem_cons.mp member with rfl | later
    · exact ⟨item, List.mem_cons_self, readFirst⟩
    · obtain ⟨source, among, found⟩ := ih readOthers later
      exact ⟨source, List.mem_cons_of_mem _ among, found⟩

/-- Values that can stand anywhere have only to be read back. -/
theorem agrees_of_holds {decoder : Decoder α} {toJson : α → Json}
    (holds : ∀ a room, (toJson a).holds room = true) (reads : ∀ a, decoder site (toJson a) = some a) :
    decoder.Agrees toJson site :=
  ⟨fun a _ => reads a, fun _ a _ _ => holds a site.room⟩

@[simp] theorem string_string (s : String) : string site (.string s) = some s := rfl

@[simp] theorem uint32_nat (n : UInt32) : uint32 site (.nat n.toNat) = some n := by
  have small : n.toNat < UInt32.size := n.toNat_lt
  simp [uint32, natBelow, Json.nat, small]

@[simp] theorem int64_int (n : Int64) : int64 site (.int n.toInt) = some n := by
  have low : -0x8000000000000000 ≤ n.toInt := n.le_toInt
  have high : n.toInt < 0x8000000000000000 := n.toInt_lt
  have read : intWithin 0x8000000000000000 site (.int n.toInt) = some n.toInt := by
    by_cases negative : n.toInt < 0
    · have part : 0 < n.toInt.natAbs ∧ n.toInt.natAbs ≤ 0x8000000000000000 := by omega
      have sign : -(n.toInt.natAbs : Int) = n.toInt := by omega
      rw [Json.int, decide_eq_true negative, intWithin, if_pos part, sign]
    · have part : n.toInt.natAbs < 0x8000000000000000 := by omega
      have sign : (n.toInt.natAbs : Int) = n.toInt := by omega
      rw [Json.int, decide_eq_false negative, intWithin, if_pos part, sign]
  rw [int64, read, Option.map_some, Int64.ofInt_toInt]

theorem oneOf_string {values : List (String × α)} {name : String} {a : α}
    (named : values.lookup name = some a) : oneOf values site (.string name) = some a := by
  simp [oneOf, Json.string, Json.variant?, Json.carriesNothing, named]

/-- Null stands for nothing, so nothing else may be written as null. -/
theorem agrees_option {item : Decoder α} {toJson : α → Json} (agrees : item.Agrees toJson site)
    (given : ∀ a, toJson a ≠ .null) : (option item).Agrees (Json.option toJson) site where
  reads
    | none, _ => rfl
    | some a, held => by
      have read := agrees.reads a held
      rw [Json.option, option, read, Option.map_some]
      exact fun null => given a null
  fits
    | _, none, _, _ => Json.holds_null site.room
    | j, some a, allowed, read => by
      unfold option at read
      split at read
      next => cases read
      next =>
        obtain ⟨_, readItem, same⟩ := Option.map_eq_some_iff.mp read
        cases same
        exact agrees.fits _ a allowed readItem

theorem agrees_list {item : Decoder α} {toJson : α → Json} (agrees : item.Agrees toJson site.inside) :
    (list item).Agrees (fun as => .array (as.map toJson)) site where
  reads as held := by
    obtain ⟨room, inner⟩ := Json.holds_array.mp held
    rw [list, if_pos room]
    exact mapM_map_of_each fun a member => agrees.reads a (inner _ (List.mem_map_of_mem member))
  fits j as allowed read := by
    cases j with
    | array items =>
      rw [list] at read
      split at read
      next room =>
        refine Json.holds_array.mpr ⟨room, List.forall_mem_map.mpr fun a member => ?_⟩
        obtain ⟨item, among, readItem⟩ := exists_of_mapM read member
        exact agrees.fits item a (allowed.item item among) readItem
      next => cases read
    | _ => cases read

end Decoder

/-! ### Records -/

namespace Fields

variable {α : Type} {site : Site} {fields : Fields}

/-- What a record at the site gives to its fields. -/
structure Stands (fields : Fields) (site : Site) : Prop where
  room : 0 < site.room
  place : fields.site = site.inside
  allowed : ∀ {name value}, (name, value) ∈ fields.given → site.inside.Allows value

theorem stands_of_read? {names : List String} {j : Json} (allowed : site.Allows j)
    (read : read? names site j = some fields) : fields.Stands site := by
  cases j with
  | array items =>
    rw [read?] at read
    split at read
    next fit =>
      cases read
      exact ⟨fit.1, rfl, fun member => allowed.item _ (List.of_mem_zip member).2⟩
    next => cases read
  | object all =>
    simp only [read?, Option.bind_eq_bind, Option.bind_eq_some_iff] at read
    obtain ⟨given, readGiven, read⟩ := read
    split at read
    next fit =>
      cases read
      refine ⟨fit.1, rfl, fun {name value} member => ?_⟩
      obtain ⟨⟨some_name, same⟩, among, named⟩ := Decoder.exists_of_mapM readGiven member
      obtain ⟨_, rfl, equal⟩ := Option.map_eq_some_iff.mp named
      cases equal
      exact allowed.field _ among
    next => cases read
  | _ => cases read

theorem Stands.required {name : String} {item : Decoder α} {toJson : α → Json} {a : α}
    (stands : fields.Stands site) (agrees : item.Agrees toJson site.inside)
    (read : fields.required name item = some a) : (toJson a).holds (site.room - 1) = true := by
  rw [Fields.required] at read
  split at read
  next value found =>
    rw [stands.place] at read
    obtain ⟨before, after, given, -⟩ := List.lookup_eq_some_iff.mp found
    exact agrees.fits value a (stands.allowed (given ▸ List.mem_append_right _ List.mem_cons_self)) read
  next => cases read

theorem Stands.required_list {name : String} {item : Decoder α} {toJson : α → Json} {as : List α}
    (stands : fields.Stands site) (agrees : item.Agrees toJson site.inside.inside)
    (read : fields.required name (.list item) = some as) :
    (Json.array (as.map toJson)).holds (site.room - 1) = true := by
  have held := stands.required (Decoder.agrees_list agrees) read
  exact held

/-- A field that may be left out is read as a required one or has its default. -/
theorem required_of_defaulted {name : String} {item : Decoder α} {default a : α}
    (read : fields.defaulted name default item = some a) :
    fields.required name item = some a ∨ a = default := by
  rw [defaulted] at read
  rw [required]
  split at read
  next => exact .inl read
  next => exact .inr (Option.some.inj read).symm

theorem Stands.defaulted {name : String} {item : Decoder α} {toJson : α → Json} {default a : α}
    (stands : fields.Stands site) (agrees : item.Agrees toJson site.inside)
    (fallback : (toJson default).holds (site.room - 1) = true)
    (read : fields.defaulted name default item = some a) : (toJson a).holds (site.room - 1) = true := by
  rcases required_of_defaulted read with given | rfl
  · exact stands.required agrees given
  · exact fallback

/-- A record that was written gives its fields as they are. -/
theorem read?_record {names : List String} {given : List (String × Json)} (room : 0 < site.room)
    (distinct : (given.map (·.1)).Nodup) :
    read? names site (.record given) = some ⟨site.inside, given, false⟩ := by
  have once (name : String) : (given.filter (·.1 == name)).length ≤ 1 :=
    calc (given.filter (·.1 == name)).length
      _ = given.countP (·.1 == name) := List.countP_eq_length_filter.symm
      _ = (given.map (·.1)).count name := by rw [List.count, List.countP_map]; rfl
      _ ≤ 1 := List.nodup_iff_count.mp distinct name
  simp only [read?, Json.record]
  rw [Decoder.mapM_map_of_each]
  · exact if_pos ⟨room, List.all_eq_true.mpr fun name _ => decide_eq_true (once name)⟩
  · exact fun _ _ => rfl

end Fields

/-! ### Tagged values -/

namespace Json

variable {site : Site} {tag : String}

theorem partition_kind {kind : Json} {fields : List (Option String × Json)}
    (others : ∀ field ∈ fields, field.1 ≠ some "kind") :
    ((some "kind", kind) :: fields).partition (·.1 == some "kind") = ([(some "kind", kind)], fields) := by
  rw [List.partition_eq_filter_filter, List.filter_cons_of_pos rfl, List.filter_cons_of_neg (by simp),
    List.filter_eq_nil_iff.mpr, List.filter_eq_self.mpr]
  · exact fun field member => by simp [others field member]
  · exact fun field member => by simp [others field member]

theorem tagged?_record (tags : List String) {fields : List (String × Json)}
    (held : (record (("kind", .string tag) :: fields)).holds site.room = true)
    (known : tags.contains tag = true) (others : ∀ field ∈ fields, field.1 ≠ "kind") :
    tagged? tags site (record (("kind", .string tag) :: fields)) = some (tag, record fields) := by
  have found : tag? tags site (string tag) = some tag := by
    rw [string, tag?, if_pos known]
  rw [record, List.map_cons] at held ⊢
  simp only [tagged?, held, Bool.or_true, if_true]
  rw [partition_kind (List.forall_mem_map.mpr fun field member => by simp [others field member])]
  simp only [found, Option.map_some, record]

/-- The rest of a tagged value has been held, and stands where the whole stood. -/
theorem of_tagged? {tags : List String} {j rest : Json} (allowed : site.Allows j)
    (read : j.tagged? tags site = some (tag, rest)) :
    0 < site.room ∧ site.holding.Allows rest := by
  unfold tagged? at read
  split at read
  next kept =>
    have held : j.holds site.room = true := by
      rcases Bool.or_eq_true_iff.mp kept with before | now
      · exact allowed before
      · exact now
    split at read
    next =>
      obtain ⟨_, -, same⟩ := Option.map_eq_some_iff.mp read
      cases same
      obtain ⟨room, inner⟩ := holds_array.mp held
      rw [List.forall_mem_cons] at inner
      exact ⟨room, fun _ => holds_array.mpr ⟨room, inner.2⟩⟩
    next all =>
      split at read
      next others parts =>
        obtain ⟨_, -, same⟩ := Option.map_eq_some_iff.mp read
        cases same
        obtain ⟨room, inner⟩ := holds_object.mp held
        rw [List.partition_eq_filter_filter, Prod.mk.injEq] at parts
        refine ⟨room, fun _ => holds_object.mpr ⟨room, fun field member => inner field ?_⟩⟩
        rw [← parts.2] at member
        exact (List.mem_filter.mp member).1
      next => cases read
    next => cases read
  next => cases read

end Json

/-! ### Texts -/

/-- Texts of one kind of data, written and read. -/
structure Decoder.ReadsBack (decoder : Decoder α) (toJson : α → Json) : Prop where
  /-- What is written is read back, unless it nests deeper than a text may. -/
  written : ∀ a, (Json.read? (toJson a).write).bind decoder.run = some a ↔ (toJson a).depth ≤ 127
  /-- What a text is read as is read again when it is written, in whatever way the text put it. -/
  accepted : ∀ text a, (Json.read? text).bind decoder.run = some a →
    (Json.read? (toJson a).write).bind decoder.run = some a

theorem Decoder.readsBack {α : Type} {decoder : Decoder α} {toJson : α → Json}
    (agrees : decoder.Agrees toJson .root) (plain : ∀ a, (toJson a).IsPlain) :
    decoder.ReadsBack toJson where
  written a := by
    rw [Json.read?_write, Option.bind_some, run]
    constructor
    · intro read
      exact Json.depth_le_of_holds _ 127 (agrees.fits _ a (Site.allows_root _) read)
    · intro deep
      exact agrees.reads a (plain a 127 deep)
  accepted text a read := by
    obtain ⟨j, -, read⟩ := Option.bind_eq_some_iff.mp read
    rw [Json.read?_write, Option.bind_some, run]
    exact agrees.reads a (agrees.fits j a (Site.allows_root j) read)

end EngineFuzz
