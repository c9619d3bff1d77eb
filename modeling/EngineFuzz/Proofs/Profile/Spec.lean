import EngineFuzz.Profile.Spec
import EngineFuzz.Proofs.Json.Omission
import EngineFuzz.Proofs.Json.Table
import EngineFuzz.Proofs.Ty.Json
import Mathlib.Data.List.Forall2

/-!
Configurations, in memory and in writing. Main statement: parsing what was written of a configuration
gives the profile that it means, or the complaint about a name that it means, and fields in which there
is nothing need not have been written.
-/

namespace EngineFuzz

variable {site : Site}

/-! ### Agreement -/

theorem Decoder.agrees_strings : (list string).Agrees Json.strings site :=
  agrees_list (agrees_of_holds (fun s room => Json.holds_string room s) string_string)

theorem Json.isPlain_strings (items : List String) : (strings items).IsPlain :=
  isPlain_array (List.forall_mem_map.mpr fun s _ => isPlain_string s)

@[simp] theorem Json.holds_uint32 (n : UInt32) (room : Nat) : (nat n.toNat).holds room = true :=
  holds_integer (Nat.lt_trans n.toNat_lt (by decide)) room false

@[simp] theorem Edition.decoder_toJson (edition : Edition) :
    decoder site edition.toJson = some edition :=
  Decoder.oneOf_string (by cases edition <;> decide)

theorem NamedWeight.decoder_agrees : decoder.Agrees toJson site where
  reads entry held := by
    have room := (Json.holds_record.mp held).1
    simp [decoder, toJson, Fields.read?_record room, Fields.required, List.lookup_cons]
  fits j entry allowed read := by
    simp only [decoder, Option.bind_eq_bind, Option.bind_eq_some_iff, Option.pure_def,
      Option.some.injEq] at read
    obtain ⟨fields, taken, name, -, weight, -, rfl⟩ := read
    have stands := Fields.stands_of_read? allowed taken
    simp [toJson, stands.room]

theorem NamedWeight.isPlain_toJson (entry : NamedWeight) : entry.toJson.IsPlain :=
  Json.isPlain_record (by
    have weight : (Json.nat entry.weight.toNat).IsPlain := fun room _ => Json.holds_uint32 _ room
    simp [weight])

theorem Decoder.agrees_string : string.Agrees Json.string site :=
  agrees_of_holds (fun s room => Json.holds_string room s) string_string

theorem Edition.isVoid_toJson (edition : Edition) : edition.toJson.isVoid = false := by
  cases edition <;> rfl

namespace ProfileSpec

variable {config : ProfileSpec}

/-- Fields that are not there are read as empty, and only empty ones may be missing. -/
theorem decoder_of_shortens {short : Json} (shortens : short.Shortens config.toJson)
    (held : config.toJson.holds site.room = true) : decoder site short = some config := by
  obtain ⟨given, fields, rfl, whole, omits⟩ := shortens
  rw [whole] at held
  obtain ⟨room, parts⟩ := Json.holds_record.mp held
  have all := (Json.record_inj.mp whole).symm
  have distinct : (fields.map (·.1)).Nodup := by simp [all]
  have taken : Fields.read? fieldNames site (.record given) = some ⟨site.inside, given, false⟩ :=
    Fields.read?_record room (omits.distinct distinct)
  have text (name s : String) (written : (name, Json.string s) ∈ fields) :
      Fields.defaulted ⟨site.inside, given, false⟩ name "" .string = some s :=
    omits.defaulted distinct written rfl (Json.isVoid_string s).mp
  have texts (name : String) (items : List String) (written : (name, Json.strings items) ∈ fields) :
      Fields.defaulted ⟨site.inside, given, false⟩ name [] (.list .string) = some items :=
    omits.defaulted distinct written (Decoder.agrees_strings.reads items (parts _ written))
      (Json.isVoid_array_map .string items).mp
  have environment : Fields.defaulted ⟨site.inside, given, false⟩ "process_env" .empty
      (.table .string) = some config.environment := by
    have written : ("process_env", Json.table .string config.environment) ∈ fields := by simp [all]
    exact omits.defaulted distinct written
      ((Decoder.agrees_table Decoder.agrees_string).reads _ (parts _ written)) (Json.isVoid_table .string _).mp
  have builtins : Fields.defaulted ⟨site.inside, given, false⟩ "additional_builtins" .empty
      (.table Ty.decoder) = some config.builtins := by
    have written : ("additional_builtins", Json.table Ty.toJson config.builtins) ∈ fields := by simp [all]
    exact omits.defaulted distinct written
      ((Decoder.agrees_table Ty.decoder_agrees).reads _ (parts _ written)) (Json.isVoid_table Ty.toJson _).mp
  have added : Fields.defaulted ⟨site.inside, given, false⟩ "additional_code_generators" []
      (.list NamedWeight.decoder) = some config.added := by
    have written : ("additional_code_generators", Json.array (config.added.map NamedWeight.toJson)) ∈
        fields := by simp [all]
    exact omits.defaulted distinct written
      ((Decoder.agrees_list NamedWeight.decoder_agrees).reads _ (parts _ written))
      (Json.isVoid_array_map NamedWeight.toJson _).mp
  have edition : Fields.required ⟨site.inside, given, false⟩ "ecma_version" Edition.decoder =
      some config.edition := by
    have written : ("ecma_version", config.edition.toJson) ∈ fields := by simp [all]
    rw [omits.required distinct written config.edition.isVoid_toJson, Edition.decoder_toJson]
  simp [decoder, taken, environment, builtins, added, edition,
    text "code_prefix" config.preamble (by simp [all]),
    text "code_suffix" config.epilogue (by simp [all]),
    texts "process_arguments" config.arguments (by simp [all]),
    texts "crash_tests" config.crashTests (by simp [all]),
    texts "disabled_code_generators" config.disabled (by simp [all])]

/-- A configuration that is read could be written where it is read, given room for the lists in it. -/
theorem holds_of_decoder {j : Json} (room : 1 < site.room) (allowed : site.Allows j)
    (read : decoder site j = some config) : config.toJson.holds site.room = true := by
  simp only [decoder, Option.bind_eq_bind, Option.bind_eq_some_iff, Option.pure_def,
    Option.some.injEq] at read
  obtain ⟨fields, taken, arguments, readArguments, environment, readEnvironment, preamble, -, epilogue, -,
    edition, -, crashTests, readCrashTests, added, readAdded, disabled, readDisabled, builtins,
    readBuiltins, rfl⟩ := read
  have stands := Fields.stands_of_read? allowed taken
  have lists : 0 < site.room - 1 := by omega
  have texts {name : String} {items : List String}
      (readTexts : fields.defaulted name [] (.list .string) = some items) :
      (Json.strings items).holds (site.room - 1) = true :=
    stands.defaulted Decoder.agrees_strings (by simp [Json.strings, lists]) readTexts
  have table {α : Type} {name : String} {value : Decoder α} {toJson : α → Json} {t : Table α}
      (agrees : value.Agrees toJson site.inside.inside)
      (readTable : fields.defaulted name .empty (.table value) = some t) :
      (Json.table toJson t).holds (site.room - 1) = true :=
    stands.defaulted (Decoder.agrees_table agrees) (by simp [Json.table, Table.empty, lists]) readTable
  have entries := stands.defaulted (Decoder.agrees_list NamedWeight.decoder_agrees)
    (Json.holds_array.mpr ⟨lists, by simp⟩) readAdded
  exact Json.holds_record.mpr ⟨stands.room, by
    simp [texts readArguments, texts readCrashTests, texts readDisabled, Edition.toJson, entries,
      table Decoder.agrees_string readEnvironment, table Ty.decoder_agrees readBuiltins]⟩

theorem decoder_agrees (room : 1 < site.room) : decoder.Agrees toJson site :=
  ⟨fun _ held => decoder_of_shortens (Json.shortens_record _) held,
    fun _ _ allowed read => holds_of_decoder room allowed read⟩

theorem isPlain_toJson (config : ProfileSpec) : config.toJson.IsPlain := by
  have added : ∀ j ∈ config.added.map NamedWeight.toJson, j.IsPlain :=
    List.forall_mem_map.mpr fun entry _ => entry.isPlain_toJson
  exact Json.isPlain_record (by
    simp [Json.isPlain_strings, Json.isPlain_table, Ty.isPlain_toJson, Edition.toJson,
      Json.isPlain_array added])

end ProfileSpec

/-! ### Generators by name -/

/-- The first generator of a name. -/
def Generator.IsFirst (catalog : List Generator) (name : String) (g : Generator) : Prop :=
  ∃ before after, catalog = before ++ g :: after ∧ g.name = name ∧ ∀ other ∈ before, other.name ≠ name

theorem Generator.find?_eq_some_iff {catalog : List Generator} {name : String} {g : Generator} :
    (catalog.find? fun other => other.name == name) = some g ↔ IsFirst catalog name g := by
  rw [List.find?_eq_some_iff_append]
  simp only [Bool.not_eq_true', beq_eq_false_iff_ne, beq_iff_eq]
  constructor
  · rintro ⟨named, before, after, whole, others⟩
    exact ⟨before, after, whole, named, others⟩
  · rintro ⟨before, after, whole, named, others⟩
    exact ⟨named, before, after, whole, others⟩

theorem Generator.find?_eq_none_iff {catalog : List Generator} {name : String} :
    (catalog.find? fun other => other.name == name) = none ↔ name ∉ catalog.map Generator.name := by
  simp [List.find?_eq_none]

namespace ProfileSpec

variable {config : ProfileSpec} {catalog : List Generator}

/-- Whether an entry of a configuration stands for an entry of a profile. -/
def Names (catalog : List Generator) (entry : NamedWeight) (added : Generator × UInt32) : Prop :=
  Generator.IsFirst catalog entry.name added.1 ∧ added.2 = entry.weight

theorem lookUp_eq_ok_iff {entries : List NamedWeight} {added : List (Generator × UInt32)} :
    lookUp catalog entries = .ok added ↔ List.Forall₂ (Names catalog) entries added := by
  induction entries generalizing added with
  | nil => cases added <;> simp [lookUp]
  | cons entry entries ih =>
    simp only [lookUp, List.forall₂_cons_left_iff, ← ih, Names, ← Generator.find?_eq_some_iff]
    cases catalog.find? fun g => g.name == entry.name with
    | none => simp
    | some generator =>
      cases lookUp catalog entries with
      | error e => simp
      | ok others => simp [eq_comm]

/-- The first entry whose name is not in the catalog ends the search. -/
theorem lookUp_eq_error_iff_find? {entries : List NamedWeight} {e : ProfileError} :
    lookUp catalog entries = .error e ↔ ∃ entry,
      (entries.find? fun entry => (catalog.find? (·.name == entry.name)).isNone) = some entry ∧
        e = .unknownName entry.name := by
  induction entries with
  | nil => simp [lookUp]
  | cons entry entries ih =>
    simp only [lookUp, List.find?_cons]
    cases catalog.find? fun g => g.name == entry.name with
    | none => simp [eq_comm]
    | some generator =>
      simp only [Option.isNone_some, ← ih]
      cases lookUp catalog entries <;> simp

theorem lookUp_eq_error_iff {entries : List NamedWeight} {e : ProfileError} :
    lookUp catalog entries = .error e ↔ ∃ before entry after, entries = before ++ entry :: after ∧
      (∀ known ∈ before, known.name ∈ catalog.map Generator.name) ∧
      entry.name ∉ catalog.map Generator.name ∧ e = .unknownName entry.name := by
  simp only [lookUp_eq_error_iff_find?, List.find?_eq_some_iff_append, Option.isNone_iff_eq_none,
    Generator.find?_eq_none_iff, Bool.not_eq_true', ← Bool.not_eq_true, not_not]
  constructor
  · rintro ⟨entry, ⟨unknown, before, after, whole, known⟩, complaint⟩
    exact ⟨before, entry, after, whole, known, unknown, complaint⟩
  · rintro ⟨before, entry, after, whole, known, unknown, complaint⟩
    exact ⟨entry, ⟨unknown, before, after, whole, known⟩, complaint⟩

/-- All that a configuration says of a profile besides its generators. -/
structure Describes (config : ProfileSpec) (profile : Profile) : Prop where
  arguments : profile.arguments = config.arguments
  environment : profile.environment = config.environment
  preamble : profile.preamble = config.preamble
  epilogue : profile.epilogue = config.epilogue
  edition : profile.edition = config.edition
  crashTests : profile.crashTests = config.crashTests
  disabled : profile.disabled = config.disabled
  builtins : profile.builtins = config.builtins

/-- What a configuration comes to with a catalog. -/
structure ComesTo (config : ProfileSpec) (catalog : List Generator)
    (result : Except ProfileError Profile) : Prop where
  /-- Each entry in turn becomes the first generator of its name, with its weight. -/
  ok : ∀ profile, result = .ok profile ↔
    config.Describes profile ∧ List.Forall₂ (Names catalog) config.added profile.added
  /-- Nothing can go wrong but that a name is not known, and the first such name counts. -/
  error : ∀ e, result = .error e ↔ ∃ before entry after, config.added = before ++ entry :: after ∧
    (∀ known ∈ before, known.name ∈ catalog.map Generator.name) ∧
    entry.name ∉ catalog.map Generator.name ∧ e = .unknownName entry.name

theorem toProfile_comesTo (config : ProfileSpec) (catalog : List Generator) :
    config.ComesTo catalog (config.toProfile catalog) where
  ok profile := by
    rw [← lookUp_eq_ok_iff, toProfile]
    cases lookUp catalog config.added with
    | error e => simp
    | ok added =>
      constructor
      · rintro ⟨⟩
        exact ⟨⟨rfl, rfl, rfl, rfl, rfl, rfl, rfl, rfl⟩, rfl⟩
      · rintro ⟨⟨⟩, same⟩
        cases profile
        simp_all
  error e := by
    rw [← lookUp_eq_error_iff, toProfile]
    cases lookUp catalog config.added <;> simp

/-! ### Texts -/

theorem parse_of_shortens {short : Json} (shortens : short.Shortens config.toJson)
    (shallow : config.toJson.depth ≤ 127) : Profile.parse short.write = config.toProfile Generator.known := by
  have read : decoder .root short = some config :=
    decoder_of_shortens shortens (config.isPlain_toJson 127 shallow)
  rw [Profile.parse, Json.read?_write, Option.bind_some, Decoder.run, read]

theorem shortens_toJson (config : ProfileSpec) : config.toJson.Shortens config.toJson :=
  Json.shortens_record _

/-- A configuration is read back from its text unless that nests too deep, and whatever text it was read
from, it is read again from its own. -/
theorem decoder_readsBack : decoder.ReadsBack toJson :=
  Decoder.readsBack (decoder_agrees (by decide)) isPlain_toJson

/-- The text of a configuration means what the configuration means, and so does the text without some of
the fields in which there is nothing. -/
theorem parse_write (config : ProfileSpec) (shallow : config.toJson.depth ≤ 127) :
    Profile.parse config.toJson.write = config.toProfile Generator.known ∧
      (∀ short : Json, short.Shortens config.toJson →
        Profile.parse short.write = config.toProfile Generator.known) ∧
      config.ComesTo Generator.known (config.toProfile Generator.known) :=
  ⟨parse_of_shortens config.shortens_toJson shallow, fun _ shortens => parse_of_shortens shortens shallow,
    config.toProfile_comesTo Generator.known⟩

/-- Two entries of one name, tables with something in them, and nothing in most of the other fields. -/
def repeated : ProfileSpec where
  arguments := ["--fuzzing"]
  environment := .ofList [("B", ""), ("A", "1")]
  preamble := ""
  epilogue := ""
  edition := .es6
  crashTests := []
  added := [⟨"ForLoopGenerator", 7⟩, ⟨"ForceV8TurbofanGenerator", 10⟩, ⟨"ForLoopGenerator", 0⟩]
  disabled := []
  builtins := .ofList [("gc", .function [.anyFunction] .undefined)]

/-- What is written of it without the fields in which there is nothing. -/
def repeatedShort : Json :=
  .record
    [("process_arguments", .strings ["--fuzzing"]),
      ("process_env", .record [("A", .string "1"), ("B", .string "")]),
      ("ecma_version", .string "es6"),
      ("additional_code_generators",
        .array
          [.record [("name", .string "ForLoopGenerator"), ("weight", .nat 7)],
            .record [("name", .string "ForceV8TurbofanGenerator"), ("weight", .nat 10)],
            .record [("name", .string "ForLoopGenerator"), ("weight", .nat 0)]]),
      ("additional_builtins", .record [("gc", (Ty.function [.anyFunction] .undefined).toJson)])]

theorem repeated_parse :
    repeated.toJson.depth ≤ 127 ∧ repeatedShort.Shortens repeated.toJson ∧
      Profile.parse repeatedShort.write =
        .ok { repeated with added := [(.forLoop, 7), (.optimizedCall, 10), (.forLoop, 0)] } := by
  have shallow : repeated.toJson.depth ≤ 127 := by decide +kernel
  have short : repeated.toJson.withoutVoid = repeatedShort := rfl
  have shortens : repeated.toJson.withoutVoid.Shortens repeated.toJson := Json.withoutVoid_shortens _
  rw [short] at shortens
  exact ⟨shallow, shortens, (parse_write repeated shallow).2.1 repeatedShort shortens⟩

end ProfileSpec

end EngineFuzz
