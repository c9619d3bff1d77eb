import EngineFuzz.Json.Basic
import EngineFuzz.Proofs.Json.Double

/-!
How deep a value nests, and what holding it asks for beyond that: every string has to be a text and every
number finite. Values written from data are plain, so that their depth alone settles whether they are
held.
-/

namespace EngineFuzz.Json

mutual

/-- How many arrays and objects stand inside each other. -/
def depth : Json → Nat
  | array items => depthAll items + 1
  | object fields => depthFields fields + 1
  | _ => 0

def depthAll : List Json → Nat
  | [] => 0
  | item :: items => max (depth item) (depthAll items)

def depthFields : List (Option String × Json) → Nat
  | [] => 0
  | (_, value) :: fields => max (depth value) (depthFields fields)

end

/-- Held wherever there is room for its depth. -/
def IsPlain (j : Json) : Prop := ∀ room, j.depth ≤ room → j.holds room = true

/-! ### Holding by parts -/

theorem holdsAll_iff {room : Nat} {items : List Json} :
    holdsAll room items = true ↔ ∀ item ∈ items, item.holds room = true := by
  induction items with
  | nil => simp [holdsAll]
  | cons item items ih => simp [holdsAll, ih]

theorem holdsFields_iff {room : Nat} {fields : List (Option String × Json)} :
    holdsFields room fields = true ↔
      ∀ field ∈ fields, field.1.isSome = true ∧ field.2.holds room = true := by
  induction fields with
  | nil => simp [holdsFields]
  | cons field fields ih => simp [holdsFields, ih, and_assoc]

@[simp] theorem holds_array {room : Nat} {items : List Json} :
    (array items).holds room = true ↔ 0 < room ∧ ∀ item ∈ items, item.holds (room - 1) = true := by
  simp [holds, holdsAll_iff]

@[simp] theorem holds_object {room : Nat} {fields : List (Option String × Json)} :
    (object fields).holds room = true ↔
      0 < room ∧ ∀ field ∈ fields, field.1.isSome = true ∧ field.2.holds (room - 1) = true := by
  simp [holds, holdsFields_iff]

@[simp] theorem holds_record {room : Nat} {fields : List (String × Json)} :
    (record fields).holds room = true ↔
      0 < room ∧ ∀ field ∈ fields, field.2.holds (room - 1) = true := by
  rw [record, holds_object, List.forall_mem_map]
  simp

@[simp] theorem holds_null (room : Nat) : null.holds room = true := rfl

@[simp] theorem holds_string (room : Nat) (s : String) : (string s).holds room = true := rfl

theorem holds_integer {n : Nat} (word : n < UInt64.size) (room : Nat) (negative : Bool) :
    (integer negative n).holds room = true :=
  Double.isFinite_of_word word

mutual

theorem depth_le_of_holds : (j : Json) → (room : Nat) → j.holds room = true → j.depth ≤ room
  | null, _, _ | bool _, _, _ | integer .., _, _ | decimal .., _, _ | text _, _, _ => Nat.zero_le _
  | array items, room, held => by
    obtain ⟨positive, inner⟩ := holds_array.mp held
    have deepest := depthAll_le items (room - 1) inner
    rw [depth]
    omega
  | object fields, room, held => by
    obtain ⟨positive, inner⟩ := holds_object.mp held
    have deepest := depthFields_le fields (room - 1) fun field member => (inner field member).2
    rw [depth]
    omega

theorem depthAll_le : (items : List Json) → (room : Nat) →
    (∀ item ∈ items, item.holds room = true) → depthAll items ≤ room
  | [], _, _ => Nat.zero_le _
  | item :: items, room, held => by
    rw [List.forall_mem_cons] at held
    exact Nat.max_le.mpr ⟨depth_le_of_holds item room held.1, depthAll_le items room held.2⟩

theorem depthFields_le : (fields : List (Option String × Json)) → (room : Nat) →
    (∀ field ∈ fields, field.2.holds room = true) → depthFields fields ≤ room
  | [], _, _ => Nat.zero_le _
  | (_, value) :: fields, room, held => by
    rw [List.forall_mem_cons] at held
    exact Nat.max_le.mpr ⟨depth_le_of_holds value room held.1, depthFields_le fields room held.2⟩

end

/-! ### Plain values -/

@[simp] theorem isPlain_null : null.IsPlain := fun room _ => holds_null room

@[simp] theorem isPlain_string (s : String) : (string s).IsPlain := fun room _ => holds_string room s

theorem depth_le_depthAll {item : Json} {items : List Json} (member : item ∈ items) :
    item.depth ≤ depthAll items := by
  induction member with
  | head => exact Nat.le_max_left ..
  | tail _ _ ih => exact Nat.le_trans ih (Nat.le_max_right ..)

theorem depth_le_depthFields {field : Option String × Json} {fields : List (Option String × Json)}
    (member : field ∈ fields) : field.2.depth ≤ depthFields fields := by
  induction member with
  | head => exact Nat.le_max_left ..
  | tail _ _ ih => exact Nat.le_trans ih (Nat.le_max_right ..)

theorem isPlain_array {items : List Json} (plain : ∀ item ∈ items, item.IsPlain) :
    (array items).IsPlain := by
  intro room deep
  rw [depth] at deep
  refine holds_array.mpr ⟨by omega, fun item member => plain item member _ ?_⟩
  have inner := depth_le_depthAll member
  omega

theorem isPlain_object {fields : List (Option String × Json)}
    (plain : ∀ field ∈ fields, field.1.isSome = true ∧ field.2.IsPlain) : (object fields).IsPlain := by
  intro room deep
  rw [depth] at deep
  refine holds_object.mpr ⟨by omega, fun field member => ⟨(plain field member).1, ?_⟩⟩
  have inner := depth_le_depthFields member
  exact (plain field member).2 _ (by omega)

theorem isPlain_record {fields : List (String × Json)} (plain : ∀ field ∈ fields, field.2.IsPlain) :
    (record fields).IsPlain :=
  isPlain_object (List.forall_mem_map.mpr fun field member => ⟨rfl, plain field member⟩)

end EngineFuzz.Json
