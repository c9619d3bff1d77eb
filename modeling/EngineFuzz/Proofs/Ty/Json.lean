import EngineFuzz.Proofs.Json.Agreement
import EngineFuzz.Ty.Json

/-!
Types and signatures read back from JSON. A type takes at least one array or object more than each type
inside it, so the room at a site bounds how often its reader has to enter itself.
-/

namespace EngineFuzz

theorem Site.inside_lt (site : Site) (room : 0 < site.room) : site.inside.room < site.room :=
  Nat.sub_lt room Nat.one_pos

theorem Site.inside_inside_lt (site : Site) (room : 0 < site.room) :
    site.inside.inside.room < site.room :=
  Nat.lt_of_le_of_lt (Nat.sub_le _ 1) (site.inside_lt room)

variable {site : Site}

theorem Ty.toJsonAll_eq (ts : List Ty) : toJsonAll ts = ts.map toJson := by
  induction ts with
  | nil => rfl
  | cons t ts ih => rw [toJsonAll, ih, List.map_cons]

/-- The type of the functions with a signature, or of all functions. -/
def Ty.callable : Option Signature → Ty
  | none => anyFunction
  | some s => s.ty

theorem Ty.toJson_callable (s : Option Signature) :
    (callable s).toJson =
      .record [("kind", .string "function"), ("signature", Json.option Signature.toJson s)] := by
  cases s with
  | none => rfl
  | some s => rw [callable, Signature.ty, toJson, toJsonAll_eq, Json.option, Signature.toJson]

/-! ### Agreement -/

/-- Every type is written as an object. -/
theorem Ty.room_of_holds {t : Ty} {room : Nat} (held : t.toJson.holds room = true) : 0 < room := by
  cases t <;> exact (Json.holds_record.mp held).1

/-- A signature agrees where its types do. -/
theorem Signature.decoderWith_agrees {ty : Decoder Ty}
    (agrees : ∀ place : Site, place.room < site.room → ty.Agrees Ty.toJson place) :
    (decoderWith ty).Agrees toJson site where
  reads s held := by
    obtain ⟨room, parts⟩ := Json.holds_record.mp held
    simp only [List.forall_mem_cons] at parts
    have result : ty site.inside s.returns.toJson = some s.returns :=
      (agrees site.inside (site.inside_lt room)).reads _ parts.2.1
    have params : Decoder.list ty site.inside (.array (s.params.map Ty.toJson)) = some s.params :=
      (Decoder.agrees_list (agrees _ (site.inside_inside_lt room))).reads _ parts.1
    simp [decoderWith, toJson, Fields.read?_record room, Fields.defaulted, Fields.required,
      List.lookup_cons, params, result]
  fits j s allowed read := by
    simp only [decoderWith, Option.bind_eq_bind, Option.bind_eq_some_iff, Option.pure_def,
      Option.some.injEq] at read
    obtain ⟨fields, taken, params, readParams, returns, readReturns, rfl⟩ := read
    have stands := Fields.stands_of_read? allowed taken
    have room := stands.room
    have result : returns.toJson.holds (site.room - 1) = true :=
      stands.required (agrees site.inside (site.inside_lt room)) readReturns
    have list := stands.defaulted (Decoder.agrees_list (agrees _ (site.inside_inside_lt room)))
      (Json.holds_array.mpr ⟨Ty.room_of_holds result, by simp⟩) readParams
    exact Json.holds_record.mpr ⟨room, by simp [list, result]⟩

/-- A function is read with the signature it carries, or with none. -/
theorem Ty.decoderTo_callable {depth : Nat} {s : Option Signature}
    (signature : (Decoder.option (Signature.decoderWith (decoderTo depth))).Agrees
      (Json.option Signature.toJson) site.holding.inside)
    (held : (callable s).toJson.holds site.room = true) :
    decoderTo (depth + 1) site (callable s).toJson = some (callable s) := by
  rw [toJson_callable] at held ⊢
  obtain ⟨room, parts⟩ := Json.holds_record.mp held
  have given := signature.reads s (parts _ (List.mem_cons_of_mem _ List.mem_cons_self))
  have tagged := Json.tagged?_record tags held (by decide) (by simp)
  have taken : Fields.read? ["signature"] site.holding
      (.record [("signature", Json.option Signature.toJson s)]) = some _ :=
    Fields.read?_record room (by simp)
  simp only [decoderTo, tagged, taken, Fields.defaulted, List.lookup_cons_self, Option.bind_eq_bind,
    Option.bind_some, given]
  cases s <;> rfl

/-- A type agrees where the signature it may carry does. -/
theorem Ty.decoderTo_succ_agrees {depth : Nat}
    (signature : 0 < site.room → (Signature.decoderWith (decoderTo depth)).Agrees Signature.toJson
      site.holding.inside) :
    (decoderTo (depth + 1)).Agrees toJson site := by
  have optional (room : 0 < site.room) := Decoder.agrees_option (signature room) fun _ => nofun
  refine ⟨fun t held => ?_, fun j t allowed read => ?_⟩
  · have room := room_of_holds held
    cases t with
    | anyFunction => exact decoderTo_callable (s := none) (optional room) held
    | function params returns =>
      exact decoderTo_callable (s := some ⟨params, returns⟩) (optional room) held
    | _ =>
      rw [toJson] at held ⊢
      simp only [decoderTo, Json.tagged?_record tags held (by decide) (by simp)]
      rfl
  · simp only [decoderTo] at read
    split at read
    next => cases read
    next rest tagged =>
      obtain ⟨room, held⟩ := Json.of_tagged? allowed tagged
      simp only [Option.bind_eq_bind, Option.bind_eq_some_iff, Option.pure_def] at read
      obtain ⟨fields, taken, s, readSignature, read⟩ := read
      have stands := Fields.stands_of_read? held taken
      have written : (Json.option Signature.toJson s).holds (site.room - 1) = true :=
        stands.defaulted (optional room) (Json.holds_null _) readSignature
      have same : t = callable s := by
        cases s <;> exact (Option.some.inj read).symm
      rw [same, toJson_callable]
      exact Json.holds_record.mpr ⟨room, by simp [written]⟩
    next tag rest _ tagged =>
      obtain ⟨room, -⟩ := Json.of_tagged? allowed tagged
      split at read
      · split at read <;> cases read <;> simp [toJson, room]
      · cases read

/-- Entered once for every level of room, the reader of types misses none. -/
theorem Ty.decoderTo_agrees {depth : Nat} (enough : site.room ≤ depth) :
    (decoderTo depth).Agrees toJson site := by
  induction depth generalizing site with
  | zero =>
    refine ⟨fun t held => ?_, fun j t _ read => nomatch read⟩
    have room := room_of_holds held
    omega
  | succ depth ih =>
    refine decoderTo_succ_agrees fun room => Signature.decoderWith_agrees fun place less => ih ?_
    have outer := site.inside_lt room
    simp only [Site.holding, Site.inside] at less outer
    omega

theorem Ty.decoder_agrees : Ty.decoder.Agrees toJson site :=
  ⟨(decoderTo_agrees (Nat.le_refl site.room)).reads, (decoderTo_agrees (Nat.le_refl site.room)).fits⟩

theorem Signature.decoder_agrees : Signature.decoder.Agrees toJson site :=
  decoderWith_agrees fun _ _ => Ty.decoder_agrees

/-! ### Plain values -/

mutual

theorem Ty.isPlain_toJson : (t : Ty) → t.toJson.IsPlain
  | anything | undefined | integer | float | boolean | string | anyFunction =>
    Json.isPlain_record (by simp)
  | function params returns => by
    have inner : (Json.record [("params", .array (toJsonAll params)), ("returns", toJson returns)]).IsPlain :=
      Json.isPlain_record (by
        simpa using ⟨Json.isPlain_array (isPlain_toJsonAll params), isPlain_toJson returns⟩)
    rw [toJson]
    exact Json.isPlain_record (by simpa using inner)

theorem Ty.isPlain_toJsonAll : (ts : List Ty) → ∀ j ∈ toJsonAll ts, j.IsPlain
  | [] => by simp [toJsonAll]
  | t :: ts => by
    rw [toJsonAll, List.forall_mem_cons]
    exact ⟨isPlain_toJson t, isPlain_toJsonAll ts⟩

end

theorem Signature.isPlain_toJson (s : Signature) : s.toJson.IsPlain := by
  have params : ∀ j ∈ s.params.map Ty.toJson, j.IsPlain :=
    List.forall_mem_map.mpr fun t _ => t.isPlain_toJson
  exact Json.isPlain_record (by simpa using ⟨Json.isPlain_array params, s.returns.isPlain_toJson⟩)

end EngineFuzz
