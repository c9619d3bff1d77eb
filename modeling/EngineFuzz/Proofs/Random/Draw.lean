import EngineFuzz.Random.Draw
import Mathlib.Data.List.Perm.Subperm

/-!
What draws can give, whatever the stream. An element that is picked is one of the list, and a sample has
elements at different positions of it. And what they do give where the next words of the stream are zeros.
-/

namespace EngineFuzz

namespace Draw

variable {α : Type} {xs : List α} {rng : Rng}

theorem mem_of_pick {x : α} (picked : (pick xs rng).1 = some x) : x ∈ xs := by
  unfold pick at picked
  split at picked
  next filled =>
    have drawn : xs[(below32 xs.length filled rng).1.val] = x := Option.some.inj picked
    exact drawn ▸ List.getElem_mem _
  next => cases picked

/-- An element of each list, in order. -/
theorem forall₂_of_pickEach {lists : List (List α)} {chosen : List α}
    (picked : (pickEach lists rng).1 = some chosen) : List.Forall₂ (· ∈ ·) chosen lists := by
  induction lists generalizing chosen rng with
  | nil =>
    cases picked
    exact .nil
  | cons xs lists ih =>
    simp only [pickEach, bind, StateT.bind] at picked
    cases first : pick xs rng with
    | mk found later =>
      rw [first] at picked
      cases found with
      | none => cases picked
      | some x =>
        have here : x ∈ xs := mem_of_pick (congrArg Prod.fst first)
        obtain ⟨others, rest, rfl⟩ := Option.map_eq_some_iff.mp picked
        exact .cons here (ih rest)

/-- Where there is something to choose from, something is found. -/
theorem exists_pick (filled : 0 < xs.length) (rng : Rng) : ∃ x rest, pick xs rng = (some x, rest) := by
  unfold pick
  rw [dif_pos filled]
  exact ⟨_, _, rfl⟩

theorem pick_eq_none_iff : (pick xs rng).1 = none ↔ xs = [] := by
  cases xs with
  | nil => exact iff_of_true rfl rfl
  | cons y ys =>
    have filled : 0 < (y :: ys).length := Nat.zero_lt_succ ys.length
    obtain ⟨x, rest, found⟩ := exists_pick filled rng
    simp [found]

/-- One element of one list is what is picked from it. -/
theorem pickEach_singleton (xs : List α) (rng : Rng) :
    pickEach [xs] rng = ((pick xs rng).1.map fun x => [x], (pick xs rng).2) := by
  cases picked : pick xs rng with
  | mk found rest =>
    simp only [pickEach, bind, StateT.bind, picked]
    cases found <;> rfl

/-- Whether there is one element of each list does not depend on the stream. -/
theorem pickEach_eq_none_iff (lists : List (List α)) (rng : Rng) :
    (pickEach lists rng).1 = none ↔ [] ∈ lists := by
  induction lists generalizing rng with
  | nil =>
    have drawn : (pickEach ([] : List (List α)) rng).1 = some [] := rfl
    simp [drawn]
  | cons xs lists ih =>
    cases xs with
    | nil => exact iff_of_true rfl List.mem_cons_self
    | cons y ys =>
      have filled : 0 < (y :: ys).length := Nat.zero_lt_succ ys.length
      obtain ⟨x, rest, found⟩ := exists_pick filled rng
      have whole : (pickEach ((y :: ys) :: lists) rng).1 = (pickEach lists rest).1.map (x :: ·) := by
        simp only [pickEach, bind, StateT.bind, found]
        rfl
      rw [whole, Option.map_eq_none_iff, ih, List.mem_cons, or_iff_right (List.cons_ne_nil y ys).symm]

/-- One position more, not above `last`, which is a new one if the others are below it. -/
theorem addPosition_perm {taken : List Nat} {last : Nat} (below : ∀ position ∈ taken, position < last)
    (rng : Rng) : ∃ position ≤ last, position ∉ taken ∧
      (addPosition taken last rng).1.Perm (position :: taken) := by
  cases step : below32 (last + 1) (Nat.succ_pos last) rng with
  | mk drawn rest =>
    cases found : taken.idxOf? drawn.val with
    | none =>
      have added : (addPosition taken last rng).1 = taken ++ [drawn.val] := by
        simp only [addPosition, bind, StateT.bind, step, found]
        rfl
      refine ⟨drawn.val, Nat.le_of_lt_succ drawn.isLt, List.idxOf?_eq_none_iff.mp found, ?_⟩
      rw [added]
      exact List.perm_append_singleton drawn.val taken
    | some place =>
      have added : (addPosition taken last rng).1 = taken.insertIdx place last := by
        simp only [addPosition, bind, StateT.bind, step, found]
        rfl
      have inside : place < taken.length := by
        rw [List.idxOf?_eq_map_finIdxOf?_val] at found
        obtain ⟨place, -, rfl⟩ := Option.map_eq_some_iff.mp found
        exact place.isLt
      refine ⟨last, Nat.le_refl last, fun taken => Nat.lt_irrefl last (below last taken), ?_⟩
      rw [added]
      exact List.perm_insertIdx last taken (Nat.le_of_lt inside)

/-- Positions drawn one after the other are different ones, as many as asked for. -/
theorem addPositions_nodup (count start : Nat) {taken : List Nat} (different : taken.Nodup)
    (below : ∀ position ∈ taken, position < start) (rng : Rng) :
    let all := ((List.range' start count).foldlM addPosition taken rng).1
    all.Nodup ∧ (∀ position ∈ all, position < start + count) ∧ all.length = taken.length + count := by
  induction count generalizing start taken rng with
  | zero => exact ⟨different, below, rfl⟩
  | succ count ih =>
    obtain ⟨position, above, new, permuted⟩ := addPosition_perm below rng
    have differentNow : (addPosition taken start rng).1.Nodup :=
      permuted.nodup_iff.mpr (List.nodup_cons.mpr ⟨new, different⟩)
    have belowNow : ∀ p ∈ (addPosition taken start rng).1, p < start + 1 := by
      intro p member
      rcases List.mem_cons.mp (permuted.mem_iff.mp member) with rfl | old
      · omega
      · have := below p old
        omega
    obtain ⟨nodup, bounded, length⟩ := ih (start + 1) differentNow belowNow (addPosition taken start rng).2
    have one : (addPosition taken start rng).1.length = taken.length + 1 := by
      rw [permuted.length_eq, List.length_cons]
    rw [List.range'_succ, List.foldlM_cons]
    rw [one] at length
    refine ⟨nodup, fun p member => ?_, ?_⟩
    · have := bounded p member
      omega
    · exact length.trans (by omega)

theorem filterMap_range (xs : List α) : (List.range xs.length).filterMap (xs[·]?) = xs := by
  induction xs with
  | nil => rfl
  | cons x xs ih =>
    rw [List.length_cons, List.range_succ_eq_map, List.filterMap_cons, List.filterMap_map]
    exact congrArg (x :: ·) ih

/-- A sample has elements at different positions, and no more of them than asked for. -/
theorem sample_subperm (count : Nat) (xs : List α) (rng : Rng) :
    (sample count xs rng).1.Subperm xs ∧ (sample count xs rng).1.length ≤ count := by
  let taken := (positions (min count xs.length) xs.length rng).1
  have sampled : (sample count xs rng).1 = taken.filterMap (xs[·]?) := rfl
  have start : xs.length - min count xs.length + min count xs.length = xs.length := by omega
  obtain ⟨different, below, length⟩ := addPositions_nodup (min count xs.length)
    (xs.length - min count xs.length) List.nodup_nil (List.forall_mem_nil _) rng
  rw [start] at below
  have places : taken.Subperm (List.range xs.length) := by
    apply List.subperm_of_subset different
    intro position member
    exact List.mem_range.mpr (below position member)
  obtain ⟨chosen, permuted, sublist⟩ := places
  have all : (List.range xs.length).filterMap (xs[·]?) = xs := filterMap_range xs
  constructor
  · have parts : (chosen.filterMap (xs[·]?)).Sublist ((List.range xs.length).filterMap (xs[·]?)) :=
      sublist.filterMap _
    rw [all] at parts
    exact ⟨chosen.filterMap (xs[·]?), permuted.filterMap _, parts⟩
  · calc (sample count xs rng).1.length
      _ ≤ taken.length := List.length_filterMap_le ..
      _ = min count xs.length := by
        rw [List.length_nil, Nat.zero_add] at length
        exact length
      _ ≤ count := Nat.min_le_left ..

end Draw

/-! ### Words that are known -/

/-- A stream with `words` put before it. -/
def Rng.ahead (rng : Rng) (words : List UInt32) : Rng := { rng with pending := words ++ rng.pending }

namespace Draw

variable {α : Type} {width range tries : Nat} {rng rest : Rng} {low high : UInt32}

/-- No word is drawn after one that is fair. -/
theorem below_of_fair {word : Draw (BitVec width)} {w : BitVec width} (positive : 0 < range)
    (drawn : word rng = (w, rest)) (fairly : fair range w = true) :
    below range positive word tries rng = (scaled range positive w, rest) := by
  cases tries with
  | zero =>
    simp only [below, bind, StateT.bind, drawn]
    rfl
  | succ tries =>
    simp only [below, bind, StateT.bind, drawn, fairly]
    rfl

theorem fair_zero (positive : 0 < range) : fair range (0 : BitVec width) = true := by
  have shifted : 0 < range <<< (width - 1 - range.log2) := by
    rw [Nat.shiftLeft_eq]
    exact Nat.mul_pos positive (Nat.two_pow_pos _)
  simpa [fair] using shifted

theorem below32_zero (positive : 0 < range) (words : List UInt32) :
    below32 range positive (rng.ahead (0 :: words)) = (⟨0, positive⟩, rng.ahead words) := by
  have drawn : (UInt32.toBitVec <$> word32) (rng.ahead (0 :: words)) = (0, rng.ahead words) := rfl
  rw [below32, below_of_fair positive drawn (fair_zero positive)]
  simp [scaled]

/-- Two words make a longer one, the low half first. -/
theorem below64_ahead (positive : 0 < range) (words : List UInt32)
    (fairly : fair range (high.toUInt64 <<< 32 ||| low.toUInt64).toBitVec = true) :
    below64 range positive (rng.ahead (low :: high :: words)) =
      (scaled range positive (high.toUInt64 <<< 32 ||| low.toUInt64).toBitVec, rng.ahead words) :=
  below_of_fair positive rfl fairly

theorem pick_zero (x : α) (xs : List α) (words : List UInt32) :
    pick (x :: xs) (rng.ahead (0 :: words)) = (some x, rng.ahead words) := by
  have filled : 0 < (x :: xs).length := Nat.zero_lt_succ xs.length
  rw [pick, dif_pos filled]
  simp only [Functor.map, StateT.map, element, bind, StateT.bind, below32_zero]
  rfl

theorem addPosition_zero (last : Nat) (words : List UInt32) :
    addPosition [] last (rng.ahead (0 :: words)) = ([0], rng.ahead words) := by
  simp only [addPosition, bind, StateT.bind, below32_zero]
  rfl

/-- The position is taken, and `last` goes in before it. -/
theorem addPosition_zero_again (last : Nat) (words : List UInt32) :
    addPosition [0] last (rng.ahead (0 :: words)) = ([last, 0], rng.ahead words) := by
  simp only [addPosition, bind, StateT.bind, below32_zero]
  rfl

theorem sample_zero (first last : α) (middle : List α) (words : List UInt32) :
    sample 2 (first :: (middle ++ [last])) (rng.ahead (0 :: 0 :: words)) =
      ([last, first], rng.ahead words) := by
  have drawn : positions 2 (middle.length + 2) (rng.ahead (0 :: 0 :: words)) =
      ([middle.length + 1, 0], rng.ahead words) := by
    have places : List.range' (middle.length + 2 - 2) 2 = [middle.length, middle.length + 1] := rfl
    simp only [positions, places, List.foldlM_cons, List.foldlM_nil, bind, StateT.bind, addPosition_zero,
      addPosition_zero_again]
    rfl
  have length : (first :: (middle ++ [last])).length = middle.length + 2 := by simp
  have two : min 2 (middle.length + 2) = 2 := by omega
  have sampled : sample 2 (first :: (middle ++ [last])) (rng.ahead (0 :: 0 :: words)) =
      ([middle.length + 1, 0].filterMap ((first :: (middle ++ [last]))[·]?), rng.ahead words) := by
    simp only [sample, length, two, bind, StateT.bind, drawn]
    rfl
  rw [sampled]
  simp

end Draw

end EngineFuzz
