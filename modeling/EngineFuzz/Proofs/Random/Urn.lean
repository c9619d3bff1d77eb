import EngineFuzz.Random.Urn
import Mathlib.Algebra.GroupWithZero.Nat
import Mathlib.Data.List.Induction

/-!
Urns by their entries. The running sums of an urn are those of its weights, whatever has been done to
it, and so a roll falls to the entry that it comes to when each entry in turn takes its weight off it.
Main statement: every entry has as many of the rolls as it weighs, and a draw fails only where there is
no weight.
-/

namespace EngineFuzz.Urn

universe u

variable {α : Type u} {urn : Urn α} {entries : List (α × UInt32)} {item : α} {rng rest : Rng}

/-- All the weights together. -/
def weigh (entries : List (α × UInt32)) : Nat := (entries.map fun (_, weight) => weight.toNat).sum

/-- The place of the entry at which a roll is used up, if each takes its weight off it. -/
def scan (roll : Nat) : List (α × UInt32) → Nat
  | [] => 0
  | (_, weight) :: entries =>
    if roll < weight.toNat then 0 else scan (roll - weight.toNat) entries + 1

/-- Something done to an urn. -/
inductive Edit (α : Type u) where
  | push (item : α) (weight : UInt32)
  | replaceFirst (wanted : α → Bool) (item : α) (weight : UInt32)
  | removeAll (unwanted : α → Bool)
  /-- A new urn takes the place of the old one. -/
  | refill (entries : List (α × UInt32))

def edit (urn : Urn α) : Edit α → Urn α
  | .push item weight => urn.push item weight
  | .replaceFirst wanted item weight => (urn.replaceFirst wanted item weight).2
  | .removeAll unwanted => (urn.removeAll unwanted).2
  | .refill entries => .ofList entries

def ofEdits (edits : List (Edit α)) : Urn α := edits.foldl edit empty

/-! ### The running sums -/

/-- Whether the running sums are those of the entries. -/
def IsSummed (urn : Urn α) : Prop := urn.cumulative = sums urn.entries

theorem weigh_cons (entry : α × UInt32) (entries : List (α × UInt32)) :
    weigh (entry :: entries) = entry.2.toNat + weigh entries := by
  rw [weigh, List.map_cons, List.sum_cons]
  rfl

theorem sumsFrom_append (before : Nat) (first second : List (α × UInt32)) :
    sumsFrom before (first ++ second) =
      sumsFrom before first ++ sumsFrom (before + weigh first) second := by
  induction first generalizing before with
  | nil => rfl
  | cons entry first ih =>
    rw [List.cons_append, sumsFrom, sumsFrom, ih, weigh_cons, Nat.add_assoc, List.cons_append]

theorem length_sumsFrom (before : Nat) (entries : List (α × UInt32)) :
    (sumsFrom before entries).length = entries.length := by
  induction entries generalizing before with
  | nil => rfl
  | cons entry entries ih => rw [sumsFrom, List.length_cons, ih, List.length_cons]

/-- The sum at a place has the weights up to there. -/
theorem getElem_sumsFrom (before i : Nat) (entries : List (α × UInt32))
    (inside : i < (sumsFrom before entries).length) :
    (sumsFrom before entries)[i] = before + weigh (entries.take (i + 1)) := by
  induction entries generalizing before i with
  | nil => exact absurd inside (Nat.not_lt_zero i)
  | cons entry entries ih =>
    cases i with
    | zero => simp [sumsFrom, weigh]
    | succ i =>
      simp only [sumsFrom, List.getElem_cons_succ, ih, List.take_succ_cons, weigh_cons, Nat.add_assoc]

theorem getLast?_sumsFrom (before : Nat) (entries : List (α × UInt32)) :
    (sumsFrom before entries).getLast?.getD before = before + weigh entries := by
  induction entries generalizing before with
  | nil => rfl
  | cons entry entries ih =>
    rw [sumsFrom, List.getLast?_cons, Option.getD_some, ih, weigh_cons, Nat.add_assoc]

theorem IsSummed.total_eq (summed : urn.IsSummed) : urn.total = weigh urn.entries := by
  have last := getLast?_sumsFrom 0 urn.entries
  rw [Nat.zero_add] at last
  rw [total, summed, sums, List.back?_toArray, last]

theorem isSummed_empty : (empty : Urn α).IsSummed := rfl

theorem IsSummed.push (summed : urn.IsSummed) (item : α) (weight : UInt32) :
    (urn.push item weight).IsSummed := by
  have one : (urn.push item weight).cumulative = urn.cumulative.push (urn.total + weight.toNat) := rfl
  rw [IsSummed, one, summed.total_eq, summed]
  simp [Urn.push, sums, sumsFrom_append, sumsFrom]

theorem ofList_snoc (entries : List (α × UInt32)) (item : α) (weight : UInt32) :
    ofList (entries ++ [(item, weight)]) = (ofList entries).push item weight := by
  rw [ofList, List.foldl_append]
  rfl

theorem isSummed_ofList (entries : List (α × UInt32)) : (ofList entries).IsSummed := by
  induction entries using List.reverseRecOn with
  | nil => exact isSummed_empty
  | append_singleton entries entry ih =>
    rw [ofList_snoc]
    exact ih.push entry.1 entry.2

theorem entries_ofList (entries : List (α × UInt32)) : (ofList entries).entries = entries := by
  induction entries using List.reverseRecOn with
  | nil => rfl
  | append_singleton entries entry ih => rw [ofList_snoc, Urn.push, ih]

/-- Nothing is left of the way that the entries have been put in. -/
theorem IsSummed.eq_ofList (summed : urn.IsSummed) : urn = ofList urn.entries := by
  have entries : (ofList urn.entries).entries = urn.entries := entries_ofList urn.entries
  have cumulative : (ofList urn.entries).cumulative = urn.cumulative := by
    rw [isSummed_ofList urn.entries, entries, summed]
  cases urn
  cases made : ofList _
  rw [made] at entries cumulative
  rw [Urn.mk.injEq]
  exact ⟨entries.symm, cumulative.symm⟩

theorem IsSummed.replaceFirst (summed : urn.IsSummed) (wanted : α → Bool) (item : α) (weight : UInt32) :
    (urn.replaceFirst wanted item weight).2.IsSummed := by
  unfold Urn.replaceFirst
  split
  · rfl
  · exact summed

theorem IsSummed.removeAll (summed : urn.IsSummed) (unwanted : α → Bool) :
    (urn.removeAll unwanted).2.IsSummed := by
  simp only [Urn.removeAll]
  split
  · rfl
  · exact summed

theorem IsSummed.edit (summed : urn.IsSummed) (change : Edit α) : (urn.edit change).IsSummed := by
  cases change with
  | push item weight => exact summed.push item weight
  | replaceFirst wanted item weight => exact summed.replaceFirst wanted item weight
  | removeAll unwanted => exact summed.removeAll unwanted
  | refill entries => exact isSummed_ofList entries

theorem isSummed_ofEdits (edits : List (Edit α)) : (ofEdits edits).IsSummed := by
  induction edits using List.reverseRecOn with
  | nil => exact isSummed_empty
  | append_singleton edits change ih =>
    rw [ofEdits, List.foldl_append]
    exact ih.edit change

/-- Nothing is removed if no entry is unwanted, and the urn is left as it is. -/
theorem entries_removeAll (urn : Urn α) (unwanted : α → Bool) :
    (urn.removeAll unwanted).2.entries = urn.entries.filter fun (item, _) => !unwanted item := by
  simp only [Urn.removeAll]
  split
  · rfl
  next none =>
    have all := List.length_filter_le (fun entry => !unwanted entry.1) urn.entries
    have same : (urn.entries.filter fun entry => !unwanted entry.1).length = urn.entries.length := by omega
    exact (List.filter_eq_self.mpr (List.length_filter_eq_length_iff.mp same)).symm

theorem removeAll_fst (urn : Urn α) (unwanted : α → Bool) :
    (urn.removeAll unwanted).1 = urn.entries.countP fun (item, _) => unwanted item := by
  have all := List.length_eq_countP_add_countP (fun entry : α × UInt32 => unwanted entry.1) (l := urn.entries)
  simp only [List.countP_eq_length_filter, Bool.not_eq_true, Bool.decide_eq_false] at all
  simp only [Urn.removeAll, List.countP_eq_length_filter]
  split <;> omega

theorem weigh_le (entries : List (α × UInt32)) : weigh entries ≤ entries.length * (UInt32.size - 1) := by
  induction entries with
  | nil => exact Nat.zero_le _
  | cons entry entries ih =>
    have one : entry.2.toNat < UInt32.size := entry.2.toNat_lt
    rw [weigh_cons, List.length_cons, Nat.add_mul, Nat.one_mul]
    omega

/-! ### The search for a roll -/

/-- The sums before the place of a roll are not above it, and those from there on are. -/
theorem search_eq_findIdx {sums : Array Nat} {roll low high : Nat}
    (ascending : sums.toList.Pairwise (· ≤ ·)) (inside : high ≤ sums.size)
    (above : low ≤ sums.toList.findIdx (roll < ·)) (below : sums.toList.findIdx (roll < ·) ≤ high) :
    search sums roll low high = sums.toList.findIdx (roll < ·) := by
  fun_induction search sums roll low high with
  | case1 low high more middle passed ih =>
    have here : middle < sums.toList.length := by
      rw [Array.length_toList]
      omega
    refine ih inside (List.lt_findIdx_of_not here fun j before => ?_) below
    have ordered : sums.toList[j] ≤ sums.toList[middle] := by
      rcases Nat.lt_or_eq_of_le before with earlier | rfl
      · exact List.pairwise_iff_getElem.mp ascending j middle _ here earlier
      · exact Nat.le_refl _
    have small : sums.toList[middle] ≤ roll := by
      simpa [Array.getD, Array.length_toList ▸ here] using passed
    simp only [decide_eq_true_eq, Nat.not_lt]
    exact Nat.le_trans ordered small
  | case2 low high more middle reached ih =>
    refine ih (by omega) above (Nat.le_of_not_lt fun later => ?_)
    have here : middle < sums.size := by omega
    have large : roll < sums.toList[middle] := by
      simpa [Array.getD, here] using reached
    have small := List.not_of_lt_findIdx later
    simp only [decide_eq_false_iff_not] at small
    exact small large
  | case3 low high done => omega

theorem findIdx_sumsFrom (before roll : Nat) (entries : List (α × UInt32)) :
    (sumsFrom before entries).findIdx (before + roll < ·) = scan roll entries := by
  induction entries generalizing before roll with
  | nil => rfl
  | cons entry entries ih =>
    rw [sumsFrom, List.findIdx_cons, scan]
    by_cases here : roll < entry.2.toNat
    · simp [here]
    · have left : before + roll = before + entry.2.toNat + (roll - entry.2.toNat) := by omega
      simp only [here, if_false, Nat.add_lt_add_iff_left, decide_false, cond_false]
      rw [left, ih]

theorem pairwise_sumsFrom (before : Nat) (entries : List (α × UInt32)) :
    (sumsFrom before entries).Pairwise (· ≤ ·) ∧ ∀ sum ∈ sumsFrom before entries, before ≤ sum := by
  induction entries generalizing before with
  | nil => exact ⟨.nil, List.forall_mem_nil _⟩
  | cons entry entries ih =>
    obtain ⟨ascending, above⟩ := ih (before + entry.2.toNat)
    refine ⟨List.pairwise_cons.mpr ⟨above, ascending⟩, ?_⟩
    intro sum member
    rcases List.mem_cons.mp member with rfl | later
    · exact Nat.le_add_right _ _
    · exact Nat.le_trans (Nat.le_add_right _ _) (above sum later)

/-- The binary search comes to the entry that a walk along the entries comes to. -/
theorem IsSummed.search_eq_scan (summed : urn.IsSummed) (roll : Nat) :
    search urn.cumulative roll 0 urn.cumulative.size = scan roll urn.entries := by
  have ascending := (pairwise_sumsFrom 0 urn.entries).1
  have walked := findIdx_sumsFrom 0 roll urn.entries
  rw [Nat.zero_add] at walked
  rw [summed, ← walked]
  have limit : (sumsFrom 0 urn.entries).findIdx (roll < ·) ≤ (sums urn.entries).size := by
    simpa [sums] using List.findIdx_le_length (p := fun sum => decide (roll < sum))
  exact search_eq_findIdx ascending (Nat.le_refl _) (Nat.zero_le _) limit

/-! ### The share of an entry -/

theorem scan_lt {roll : Nat} (below : roll < weigh entries) : scan roll entries < entries.length := by
  induction entries generalizing roll with
  | nil => exact absurd below (Nat.not_lt_zero roll)
  | cons entry entries ih =>
    rw [weigh_cons] at below
    rw [scan, List.length_cons]
    split
    · omega
    next later =>
      have left : roll - entry.2.toNat < weigh entries := by omega
      exact Nat.succ_lt_succ (ih left)

/-- Of all the rolls, those for an entry are as many as it weighs. -/
theorem countP_scan (entries : List (α × UInt32)) (i : Nat) (inside : i < entries.length) :
    (List.range (weigh entries)).countP (scan · entries = i) = entries[i].2.toNat := by
  induction entries generalizing i with
  | nil => exact absurd inside (Nat.not_lt_zero i)
  | cons entry entries ih =>
    have first : ∀ roll ∈ List.range entry.2.toNat, scan roll (entry :: entries) = 0 := by
      intro roll member
      rw [scan, if_pos (List.mem_range.mp member)]
    have later : ∀ roll, scan (entry.2.toNat + roll) (entry :: entries) = scan roll entries + 1 := by
      intro roll
      rw [scan, if_neg (by omega), Nat.add_sub_cancel_left]
    rw [weigh_cons, List.range_add, List.countP_append, List.countP_map]
    cases i with
    | zero =>
      have all : (List.range entry.2.toNat).countP (scan · (entry :: entries) = 0) = entry.2.toNat := by
        rw [List.countP_eq_length.mpr fun roll member => decide_eq_true (first roll member), List.length_range]
      have none : (List.range (weigh entries)).countP
          ((scan · (entry :: entries) = 0) ∘ fun roll => entry.2.toNat + roll) = 0 := by
        rw [List.countP_eq_zero]
        intro roll _
        simp [later]
      rw [all, none, List.getElem_cons_zero, Nat.add_zero]
    | succ i =>
      have none : (List.range entry.2.toNat).countP (scan · (entry :: entries) = i + 1) = 0 := by
        rw [List.countP_eq_zero]
        intro roll member
        simp [first roll member]
      have rest : ((scan · (entry :: entries) = i + 1) : Nat → Bool) ∘ (fun roll => entry.2.toNat + roll) =
          (scan · entries = i) := by
        funext roll
        simp [later]
      rw [none, rest, ih i (Nat.lt_of_succ_lt_succ inside), List.getElem_cons_succ, Nat.zero_add]

/-- An entry that a roll falls to has a share of the rolls. -/
theorem weight_pos_of_scan {roll : Nat} {entry : α × UInt32} (below : roll < weigh entries)
    (found : entries[scan roll entries]? = some entry) : entry.2 ≠ 0 := by
  intro none
  obtain ⟨inside, same⟩ := List.getElem?_eq_some_iff.mp found
  have share := countP_scan entries (scan roll entries) inside
  rw [same, none, UInt32.toNat_zero, List.countP_eq_zero] at share
  exact share roll (List.mem_range.mpr below) (decide_eq_true rfl)

/-! ### Draws -/

theorem IsSummed.entryAt_eq (summed : urn.IsSummed) (roll : Nat) :
    urn.entryAt roll = urn.entries[scan roll urn.entries]? := by
  rw [entryAt, summed.search_eq_scan]

theorem IsSummed.exists_entryAt (summed : urn.IsSummed) {roll : Nat} (below : roll < urn.total) :
    ∃ entry, urn.entryAt roll = some entry ∧ entry ∈ urn.entries := by
  rw [summed.total_eq] at below
  rw [summed.entryAt_eq]
  exact ⟨_, List.getElem?_eq_getElem (scan_lt below), List.getElem_mem _⟩

/-- An urn without entries fails, one without weight fails in another way, and any other gives the item
of the entry that the roll falls to. -/
theorem IsSummed.draw_cases (summed : urn.IsSummed) (rng : Rng) :
    (urn.entries = [] ∧ urn.draw rng = (.error .empty, rng)) ∨
    (urn.entries ≠ [] ∧ weigh urn.entries = 0 ∧ urn.draw rng = (.error (.weightless urn.size), rng)) ∨
    ∃ (heavy : 0 < urn.total) (entry : α × UInt32), entry ∈ urn.entries ∧
      urn.entryAt (Draw.below64 urn.total heavy rng).1 = some entry ∧
      urn.draw rng = (.ok entry.1, (Draw.below64 urn.total heavy rng).2) := by
  by_cases none : urn.entries = []
  · exact .inl ⟨none, by simp [draw, isEmpty, none]⟩
  · by_cases heavy : 0 < urn.total
    · obtain ⟨entry, found, member⟩ := summed.exists_entryAt (Draw.below64 urn.total heavy rng).1.isLt
      refine .inr (.inr ⟨heavy, entry, member, found, ?_⟩)
      cases rolled : Draw.below64 urn.total heavy rng with
      | mk roll later =>
        rw [rolled] at found
        simp [draw, isEmpty, none, heavy, rolled, found]
    · have light : weigh urn.entries = 0 := by
        rw [← summed.total_eq]
        exact Nat.eq_zero_of_not_pos heavy
      exact .inr (.inl ⟨none, light, by simp [draw, isEmpty, none, heavy]⟩)

/-- A roll draws the item of the entry that it falls to. -/
theorem IsSummed.draw_of_roll (summed : urn.IsSummed) {heavy : 0 < urn.total} {roll : Fin urn.total}
    (rolled : Draw.below64 urn.total heavy rng = (roll, rest)) {weight : UInt32}
    (there : urn.entries[scan roll urn.entries]? = some (item, weight)) :
    urn.draw rng = (.ok item, rest) := by
  rcases summed.draw_cases rng with ⟨none, -⟩ | ⟨-, light, -⟩ | ⟨_, entry, -, found, given⟩
  · simp [none] at there
  · rw [← summed.total_eq] at light
    omega
  · rw [rolled, summed.entryAt_eq, there] at found
    rw [given, rolled]
    cases found
    rfl

/-- Whatever is drawn from an urn has been put into it. -/
theorem mem_of_draw (drawn : urn.draw rng = (.ok item, rest)) : ∃ weight, (item, weight) ∈ urn.entries := by
  unfold draw at drawn
  split at drawn
  · cases drawn
  · split at drawn
    next positive =>
      cases rolled : Draw.below64 urn.total positive rng with
      | mk roll later =>
        simp only [rolled] at drawn
        cases found : urn.entryAt roll.val with
        | none => simp [found] at drawn
        | some entry =>
          simp only [found, Prod.mk.injEq, Except.ok.injEq] at drawn
          refine ⟨entry.2, ?_⟩
          rw [← drawn.1]
          exact List.mem_of_getElem? found
    · cases drawn

/-- And it has a weight. -/
theorem IsSummed.weight_of_draw (summed : urn.IsSummed) (drawn : urn.draw rng = (.ok item, rest)) :
    ∃ weight, (item, weight) ∈ urn.entries ∧ weight ≠ 0 := by
  rcases summed.draw_cases rng with ⟨-, failed⟩ | ⟨-, -, failed⟩ | ⟨heavy, entry, member, found, given⟩
  · cases failed.symm.trans drawn
  · cases failed.symm.trans drawn
  · have below : (Draw.below64 urn.total heavy rng).1.val < weigh urn.entries :=
      summed.total_eq ▸ (Draw.below64 urn.total heavy rng).1.isLt
    rw [summed.entryAt_eq] at found
    cases given.symm.trans drawn
    exact ⟨entry.2, member, weight_pos_of_scan below found⟩

/-- What the running sums of an urn have to be. -/
structure IsInStep (urn : Urn α) : Prop where
  size : urn.cumulative.size = urn.entries.length
  sums : ∀ i (inside : i < urn.cumulative.size), urn.cumulative[i] = weigh (urn.entries.take (i + 1))
  /-- The sums of fewer than 2^32 weights are words of 64 bits. -/
  bounded : urn.size < UInt32.size → ∀ sum ∈ urn.cumulative, sum < UInt64.size
  total : urn.total = weigh urn.entries
  refilled : urn = ofList urn.entries

theorem IsSummed.isInStep (summed : urn.IsSummed) : urn.IsInStep := by
  have size : urn.cumulative.size = urn.entries.length := by
    rw [summed, Urn.sums, List.size_toArray, length_sumsFrom]
  have sums : ∀ i (inside : i < urn.cumulative.size),
      urn.cumulative[i] = weigh (urn.entries.take (i + 1)) := by
    intro i inside
    have inList : i < (sumsFrom 0 urn.entries).length := by
      rw [length_sumsFrom, ← size]
      exact inside
    have one := getElem_sumsFrom 0 i urn.entries inList
    rw [Nat.zero_add] at one
    rw [← one]
    simp only [show urn.cumulative = (sumsFrom 0 urn.entries).toArray from summed, List.getElem_toArray]
  refine ⟨size, sums, fun few sum member => ?_, summed.total_eq, summed.eq_ofList⟩
  obtain ⟨i, inside, rfl⟩ := Array.getElem_of_mem member
  rw [sums i inside]
  have part : (urn.entries.take (i + 1)).length ≤ UInt32.size - 1 := by
    have shorter := List.length_take_le' (i + 1) urn.entries
    have whole : urn.entries.length < UInt32.size := few
    omega
  calc weigh (urn.entries.take (i + 1))
    _ ≤ (urn.entries.take (i + 1)).length * (UInt32.size - 1) := weigh_le _
    _ ≤ (UInt32.size - 1) * (UInt32.size - 1) := Nat.mul_le_mul_right _ part
    _ < UInt64.size := by decide

/-- What the draws from an urn have to be. -/
structure IsFair (urn : Urn α) : Prop where
  place : ∀ roll < urn.total, scan roll urn.entries < urn.entries.length ∧
    search urn.cumulative roll 0 urn.cumulative.size = scan roll urn.entries
  share : ∀ i (inside : i < urn.entries.length),
    (List.range urn.total).countP (search urn.cumulative · 0 urn.cumulative.size = i) =
      urn.entries[i].2.toNat
  positive : ∀ roll < urn.total, ∀ entry, urn.entryAt roll = some entry → entry.2 ≠ 0
  empty : ∀ rng, (urn.draw rng).1 = .error .empty ↔ urn.entries = []
  weightless : ∀ rng count, (urn.draw rng).1 = .error (.weightless count) ↔
    urn.entries ≠ [] ∧ weigh urn.entries = 0 ∧ count = urn.entries.length
  drawn : ∀ rng, urn.entries ≠ [] → weigh urn.entries ≠ 0 → ∃ (heavy : 0 < urn.total),
    ∃ entry ∈ urn.entries, urn.entryAt (Draw.below64 urn.total heavy rng).1 = some entry ∧
      (urn.draw rng).1 = .ok entry.1

theorem IsSummed.isFair (summed : urn.IsSummed) : urn.IsFair := by
  have total : urn.total = weigh urn.entries := summed.total_eq
  constructor
  · intro roll below
    exact ⟨scan_lt (total ▸ below), summed.search_eq_scan roll⟩
  · intro i inside
    simp only [summed.search_eq_scan, total]
    exact countP_scan urn.entries i inside
  · intro roll below entry found
    rw [summed.entryAt_eq] at found
    exact weight_pos_of_scan (total ▸ below) found
  · intro rng
    rcases summed.draw_cases rng with ⟨none, failed⟩ | ⟨filled, -, failed⟩ | ⟨_, entry, member, -, drawn⟩
    · simp [failed, none]
    · simp [failed, filled]
    · simp [drawn, List.ne_nil_of_mem member]
  · intro rng count
    rcases summed.draw_cases rng with ⟨none, failed⟩ | ⟨filled, light, failed⟩ | ⟨heavy, entry, -, -, drawn⟩
    · simp [failed, none]
    · simp [failed, filled, light, size, eq_comm]
    · have some : weigh urn.entries ≠ 0 := total ▸ Nat.ne_of_gt heavy
      simp [drawn, some]
  · intro rng filled heavy
    rcases summed.draw_cases rng with ⟨none, -⟩ | ⟨-, light, -⟩ | ⟨positive, entry, member, found, drawn⟩
    · exact absurd none filled
    · exact absurd light heavy
    · exact ⟨positive, entry, member, found, congrArg Prod.fst drawn⟩

/-- An urn is in step with its entries, and fair, after any edits. -/
theorem ofEdits_isFair (edits : List (Edit α)) : (ofEdits edits).IsInStep ∧ (ofEdits edits).IsFair :=
  ⟨(isSummed_ofEdits edits).isInStep, (isSummed_ofEdits edits).isFair⟩

/-- Entries of no weight at both ends and in a row in the middle. -/
example : (List.range 5).map (search
    (ofEdits [.refill [("a", 0), ("b", 7), ("c", 0), ("d", 0), ("e", 3)], .push "f" 0,
      .replaceFirst (· == "b") "g" 2]).cumulative · 0 6) = [1, 1, 4, 4, 4] := by decide +kernel

end EngineFuzz.Urn
