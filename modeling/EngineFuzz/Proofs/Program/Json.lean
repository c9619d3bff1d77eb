import EngineFuzz.Program.Json
import EngineFuzz.Proofs.Ty.Json

/-!
Programs read back from JSON text. Main statement: a type, a signature, an instruction or a program is
read back from the text written of it as long as that nests no deeper than a reader allows, and whatever
any text was read as is read again from the text written of it.
-/

namespace EngineFuzz

variable {site : Site}

@[simp] theorem Var.decoder_toJson (v : Var) : Var.decoder site v.toJson = some v := by
  rw [Var.decoder, toJson, index, Decoder.uint32_nat, Option.map_some]

@[simp] theorem Var.holds_toJson (v : Var) (room : Nat) : v.toJson.holds room = true :=
  Json.holds_integer (Nat.lt_trans v.number.toNat_lt (by decide)) room false

theorem Var.decoder_agrees : Var.decoder.Agrees toJson site :=
  Decoder.agrees_of_holds holds_toJson decoder_toJson

@[simp] theorem Comparison.decoder_toJson (c : Comparison) :
    Comparison.decoder site c.toJson = some c :=
  Decoder.oneOf_string (by cases c <;> decide)

@[simp] theorem Operator.decoder_toJson (o : Operator) : Operator.decoder site o.toJson = some o :=
  Decoder.oneOf_string (by cases o <;> decide)

@[simp] theorem Json.holds_int64 (n : Int64) (room : Nat) : (int n.toInt).holds room = true :=
  holds_integer (by
    have low := n.le_toInt
    have high := n.toInt_lt
    rw [UInt64.size]
    omega) room _

theorem Instr.decoder_toJson {instr : Instr} (held : instr.toJson.holds site.room = true) :
    decoder site instr.toJson = some instr := by
  have room : 0 < site.holding.room := by
    cases instr <;> exact (Json.holds_record.mp held).1
  have readVars (vars : List Var)
      (kept : (Json.array (vars.map Var.toJson)).holds (site.room - 1) = true) :
      Decoder.list Var.decoder site.holding.inside (.array (vars.map Var.toJson)) = some vars :=
    (Decoder.agrees_list Var.decoder_agrees).reads vars kept
  have readSignature (s : Signature) (kept : s.toJson.holds (site.room - 1) = true) :
      Signature.decoder site.holding.inside s.toJson = some s :=
    Signature.decoder_agrees.reads s kept
  cases instr <;> rw [toJson] at held ⊢
  case loadInteger | loadBuiltin | binary | ret | beginFor =>
    simp [decoder, Json.tagged?_record tags held (by decide) (by simp), Fields.read?_record room,
      Fields.required, List.lookup_cons]
  case endFunction | endFor =>
    simp only [decoder, Json.tagged?_record tags held (by decide) (by simp)]
    rfl
  case beginFunction output params signature =>
    obtain ⟨-, parts⟩ := Json.holds_record.mp held
    simp only [List.forall_mem_cons] at parts
    simp [decoder, Json.tagged?_record tags held (by decide) (by simp), Fields.read?_record room,
      Fields.required, List.lookup_cons, readVars params parts.2.2.1,
      readSignature signature parts.2.2.2.1]
  case call output function arguments =>
    obtain ⟨-, parts⟩ := Json.holds_record.mp held
    simp only [List.forall_mem_cons] at parts
    simp [decoder, Json.tagged?_record tags held (by decide) (by simp), Fields.read?_record room,
      Fields.required, List.lookup_cons, readVars arguments parts.2.2.2.1]

/-- Only a list of variables and a signature need more room than the instruction itself, and what was
read for them had it. -/
theorem Instr.holds_of_decoder {j : Json} {instr : Instr} (allowed : site.Allows j)
    (read : decoder site j = some instr) : instr.toJson.holds site.room = true := by
  simp only [decoder, Option.bind_eq_bind, Option.bind_eq_some_iff] at read
  obtain ⟨⟨tag, rest⟩, tagged, read⟩ := read
  obtain ⟨room, held⟩ := Json.of_tagged? allowed tagged
  dsimp only at read
  split at read
  next =>
    simp only [Option.bind_eq_some_iff, Option.pure_def, Option.some.injEq] at read
    obtain ⟨fields, taken, output, -, value, -, rfl⟩ := read
    simp [toJson, room]
  next =>
    simp only [Option.bind_eq_some_iff, Option.pure_def, Option.some.injEq] at read
    obtain ⟨fields, taken, output, -, name, -, rfl⟩ := read
    simp [toJson, room]
  next =>
    simp only [Option.bind_eq_some_iff, Option.pure_def, Option.some.injEq] at read
    obtain ⟨fields, taken, output, -, lhs, -, operator, -, rhs, -, rfl⟩ := read
    simp [toJson, Operator.toJson, room]
  next =>
    simp only [Option.bind_eq_some_iff, Option.pure_def, Option.some.injEq] at read
    obtain ⟨fields, taken, output, -, params, readParams, signature, readSignature, rfl⟩ := read
    have stands := Fields.stands_of_read? held taken
    have list := stands.required_list Var.decoder_agrees readParams
    have carried := stands.required Signature.decoder_agrees readSignature
    simpa [toJson, Site.holding, room] using And.intro list carried
  next =>
    simp only [Option.bind_eq_some_iff, Option.pure_def, Option.some.injEq] at read
    obtain ⟨fields, taken, value, -, rfl⟩ := read
    simp [toJson, room]
  next =>
    simp only [Option.bind_eq_some_iff, Option.pure_def, Option.some.injEq] at read
    obtain ⟨fields, taken, output, -, function, -, arguments, readArguments, rfl⟩ := read
    have stands := Fields.stands_of_read? held taken
    have list := stands.required_list Var.decoder_agrees readArguments
    simpa [toJson, Site.holding, room] using list
  next =>
    simp only [Option.bind_eq_some_iff, Option.pure_def, Option.some.injEq] at read
    obtain ⟨fields, taken, index, -, start, -, comparison, -, bound, -, operator, -, step, -, rfl⟩ := read
    simp [toJson, Comparison.toJson, Operator.toJson, room]
  next =>
    split at read <;> cases read
    simp [toJson, room]
  next =>
    split at read <;> cases read
    simp [toJson, room]
  next => cases read

theorem Instr.decoder_agrees : Instr.decoder.Agrees toJson site :=
  ⟨fun _ held => decoder_toJson held, fun _ _ allowed read => holds_of_decoder allowed read⟩

theorem Program.decoder_agrees : Program.decoder.Agrees toJson site where
  reads p held := by
    obtain ⟨room, parts⟩ := Json.holds_record.mp held
    have instrs : Decoder.list Instr.decoder site.inside (.array (p.instrs.map Instr.toJson)) =
        some p.instrs :=
      (Decoder.agrees_list Instr.decoder_agrees).reads _ (parts _ List.mem_cons_self)
    simp [decoder, toJson, Fields.read?_record room, Fields.required, instrs]
  fits j p allowed read := by
    simp only [decoder, Option.bind_eq_bind, Option.bind_eq_some_iff, Option.pure_def,
      Option.some.injEq] at read
    obtain ⟨fields, taken, instrs, readInstrs, rfl⟩ := read
    have stands := Fields.stands_of_read? allowed taken
    have list := stands.required_list Instr.decoder_agrees readInstrs
    exact Json.holds_record.mpr ⟨stands.room, by simpa using list⟩

/-! ### Plain values -/

theorem Var.isPlain_toJson (v : Var) : v.toJson.IsPlain := fun room _ => v.holds_toJson room

theorem Var.isPlain_list (vars : List Var) : (Json.array (vars.map toJson)).IsPlain :=
  Json.isPlain_array (List.forall_mem_map.mpr fun v _ => v.isPlain_toJson)

theorem Instr.isPlain_toJson (instr : Instr) : instr.toJson.IsPlain := by
  have int64 (n : Int64) : (Json.int n.toInt).IsPlain := fun room _ => Json.holds_int64 n room
  cases instr <;>
    exact Json.isPlain_record (by
      simp [Var.isPlain_toJson, Var.isPlain_list, Comparison.toJson, Operator.toJson,
        Signature.isPlain_toJson, int64])

theorem Program.isPlain_toJson (p : Program) : p.toJson.IsPlain := by
  have instrs : ∀ j ∈ p.instrs.map Instr.toJson, j.IsPlain :=
    List.forall_mem_map.mpr fun instr _ => instr.isPlain_toJson
  exact Json.isPlain_record (by simpa using Json.isPlain_array instrs)

/-! ### Texts -/

/-- Types, signatures, instructions and programs survive being written and read. -/
theorem Program.texts_readBack :
    Ty.decoder.ReadsBack Ty.toJson ∧ Signature.decoder.ReadsBack Signature.toJson ∧
      Instr.decoder.ReadsBack Instr.toJson ∧ Program.decoder.ReadsBack Program.toJson :=
  ⟨Decoder.readsBack Ty.decoder_agrees Ty.isPlain_toJson,
    Decoder.readsBack Signature.decoder_agrees Signature.isPlain_toJson,
    Decoder.readsBack Instr.decoder_agrees Instr.isPlain_toJson,
    Decoder.readsBack Program.decoder_agrees Program.isPlain_toJson⟩

-- A type in another spelling than its own: the parts by place, and no field named.
example : (Json.read? "[\"function\", [[], [\"integer\"]]]").bind Ty.decoder.run =
    some (.function [] .integer) := by decide +kernel

end EngineFuzz
