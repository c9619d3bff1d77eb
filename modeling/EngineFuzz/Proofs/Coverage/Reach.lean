import EngineFuzz.Coverage.Basic

/-!
Sets of edges by their members, and what coverage takes in of a run: the trace has the edges not known
before, and each of them counts once. Whether the edges of a run are looked at together or one by one, each
known to the next, makes no difference.
-/

namespace EngineFuzz

/-! ### Lists that have got one more -/

section

variable {α : Type} {past : List α} {last item : α} {i : Nat}

/-- Whatever a longer list has was in it before or is the last. -/
theorem getElem?_snoc (found : (past ++ [last])[i]? = some item) :
    past[i]? = some item ∧ i < past.length ∨ i = past.length ∧ item = last := by
  obtain ⟨inside, -⟩ := List.getElem?_eq_some_iff.mp found
  rw [List.length_append, List.length_singleton] at inside
  by_cases before : i < past.length
  · rw [List.getElem?_append_left before] at found
    exact .inl ⟨found, before⟩
  · obtain rfl : i = past.length := by omega
    rw [List.getElem?_concat_length, Option.some.injEq] at found
    exact .inr ⟨rfl, found.symm⟩

theorem exists_mem_snoc {p : α → Prop} :
    (∃ earlier ∈ past ++ [last], p earlier) ↔ (∃ earlier ∈ past, p earlier) ∨ p last := by
  simp [or_and_right, exists_or]

end

/-! ### Sets by their members -/

namespace EdgeSet

theorem nodup (set : EdgeSet) : set.edges.Nodup := by
  apply set.ascending.imp
  intro a b below same
  exact UInt64.lt_irrefl b (same ▸ below)

/-- A list of the members in order, each of them once, is the one that the set is kept as. -/
theorem eq_edges {set : EdgeSet} {edges : List UInt64} (ascending : edges.Pairwise (· ≤ ·)) (once : edges.Nodup)
    (same : ∀ edge, edge ∈ edges ↔ edge ∈ set.edges) : edges = set.edges := by
  have permuted : edges.Perm set.edges := (List.perm_ext_iff_of_nodup once set.nodup).mpr same
  refine permuted.eq_of_pairwise (fun a b _ _ before after => ?_) ascending (set.ascending.imp UInt64.le_of_lt)
  exact UInt64.le_antisymm before after

/-- Sets with the same members are equal. -/
theorem ext_mem {s t : EdgeSet} (same : ∀ edge, edge ∈ s.edges ↔ edge ∈ t.edges) : s = t := by
  have equal : s.edges = t.edges := eq_edges (s.ascending.imp UInt64.le_of_lt) s.nodup same
  cases s
  cases t
  cases equal
  rfl

/-- The members of a set, put together again. -/
theorem ofList_edges (set : EdgeSet) : ofList set.edges = set := ext_mem fun _ => mem_ofList

/-- Lists with the same members make the same set, in whatever order and however often they have them. -/
theorem ofList_eq_iff {edges edges' : List UInt64} :
    ofList edges = ofList edges' ↔ ∀ edge, edge ∈ edges ↔ edge ∈ edges' := by
  constructor
  · intro same edge
    rw [← mem_ofList, same, mem_ofList]
  · intro same
    apply ext_mem
    intro edge
    rw [mem_ofList, mem_ofList, same]

theorem isEmpty_eq_false_iff {set : EdgeSet} : set.isEmpty = false ↔ ∃ edge, edge ∈ set.edges := by
  rw [isEmpty, List.isEmpty_eq_false_iff_exists_mem]

/-- New members, none of them named twice, all count. -/
theorem size_insertAll {set : EdgeSet} {edges : List UInt64} (once : edges.Nodup)
    (absent : ∀ edge ∈ edges, edge ∉ set.edges) :
    (set.insertAll edges).size = set.size + edges.length := by
  have apart : (edges ++ set.edges).Nodup :=
    List.nodup_append.mpr ⟨once, set.nodup, fun a new b old same => absent a new (same ▸ old)⟩
  have permuted : (set.insertAll edges).edges.Perm (edges ++ set.edges) := by
    apply (List.perm_ext_iff_of_nodup (set.insertAll edges).nodup apart).mpr
    intro edge
    rw [mem_insertAll, List.mem_append]
  rw [size, permuted.length_eq, List.length_append, Nat.add_comm, size]

/-! ### One edge after the other -/

/-- Puts edges in one by one. Those that were not in yet when their turn came are told, in that order. -/
def takeIn (set : EdgeSet) : List UInt64 → List UInt64 × EdgeSet
  | [] => ([], set)
  | edge :: edges =>
    if set.contains edge then set.takeIn edges
    else
      let (told, all) := (set.insert edge).takeIn edges
      (edge :: told, all)

variable {set : EdgeSet} {edges : List UInt64} {edge : UInt64}

theorem takeIn_cons_of_mem (old : edge ∈ set.edges) (edges : List UInt64) :
    set.takeIn (edge :: edges) = set.takeIn edges := by
  rw [takeIn, if_pos (contains_iff.mpr old)]

theorem takeIn_cons_of_not_mem (new : edge ∉ set.edges) (edges : List UInt64) :
    set.takeIn (edge :: edges) =
      (edge :: ((set.insert edge).takeIn edges).1, ((set.insert edge).takeIn edges).2) := by
  rw [takeIn, if_neg (mt contains_iff.mp new)]

/-- An edge is told only if it was not in at first, even if the edges before it have been put in since. -/
theorem mem_takeIn_fst {e : UInt64} : e ∈ (set.takeIn edges).1 ↔ e ∈ edges ∧ e ∉ set.edges := by
  induction edges generalizing set with
  | nil => simp [takeIn]
  | cons edge edges ih =>
    by_cases old : edge ∈ set.edges
    · rw [takeIn_cons_of_mem old, ih, List.mem_cons, or_and_right]
      refine (or_iff_right ?_).symm
      rintro ⟨rfl, new⟩
      exact new old
    · rw [takeIn_cons_of_not_mem old, List.mem_cons, ih, mem_insert, List.mem_cons, or_and_right]
      by_cases same : e = edge
      · simp [same, old]
      · simp [same]

/-- An edge that has been put in is not told again. -/
theorem nodup_takeIn_fst (set : EdgeSet) (edges : List UInt64) : (set.takeIn edges).1.Nodup := by
  induction edges generalizing set with
  | nil => exact .nil
  | cons edge edges ih =>
    by_cases old : edge ∈ set.edges
    · rw [takeIn_cons_of_mem old]
      exact ih set
    · rw [takeIn_cons_of_not_mem old]
      refine List.nodup_cons.mpr ⟨fun again => ?_, ih _⟩
      exact (mem_takeIn_fst.mp again).2 (mem_insert.mpr (.inl rfl))

theorem mem_takeIn_snd {e : UInt64} : e ∈ (set.takeIn edges).2.edges ↔ e ∈ edges ∨ e ∈ set.edges := by
  induction edges generalizing set with
  | nil => simp [takeIn]
  | cons edge edges ih =>
    by_cases old : edge ∈ set.edges
    · rw [takeIn_cons_of_mem old, ih, List.mem_cons, or_assoc]
      refine (or_iff_right_of_imp ?_).symm
      rintro rfl
      exact .inr old
    · rw [takeIn_cons_of_not_mem old, ih, mem_insert, List.mem_cons, or_left_comm, or_assoc]

/-- Sorting puts a list of the members in the order of the set. -/
theorem mergeSort_eq_edges (once : edges.Nodup) (same : ∀ e, e ∈ edges ↔ e ∈ set.edges) :
    edges.mergeSort = set.edges := by
  have permuted : edges.mergeSort.Perm edges := List.mergeSort_perm _ _
  have sorted : edges.mergeSort.Pairwise fun a b => decide (a ≤ b) = true := by
    apply List.pairwise_mergeSort
    · intro a b c first second
      exact decide_eq_true (UInt64.le_trans (of_decide_eq_true first) (of_decide_eq_true second))
    · intro a b
      rw [Bool.or_eq_true, decide_eq_true_eq, decide_eq_true_eq]
      exact UInt64.le_total a b
  refine eq_edges (by simpa only [decide_eq_true_eq] using sorted) (permuted.nodup_iff.mpr once) fun e => ?_
  rw [permuted.mem_iff, same]

end EdgeSet

namespace Coverage

/-- Coverage is known by its edges. -/
theorem ext_mem {a b : Coverage} (same : ∀ edge, edge ∈ a.known.edges ↔ edge ∈ b.known.edges) : a = b :=
  congrArg Coverage.mk (EdgeSet.ext_mem same)

variable {coverage : Coverage} {hits : List UInt64} {edge : UInt64}

theorem mem_newEdges_reach :
    edge ∈ (coverage.reach hits).1.newEdges ↔ edge ∈ hits ∧ edge ∉ coverage.known.edges := by
  simp [reach, EdgeSet.mem_ofList, EdgeSet.contains]

/-- What is known after a run is what was known before and what is new. -/
theorem mem_known_iff_newEdges : edge ∈ (coverage.reach hits).2.known.edges ↔
    edge ∈ (coverage.reach hits).1.newEdges ∨ edge ∈ coverage.known.edges := EdgeSet.mem_insertAll

theorem mem_known_reach :
    edge ∈ (coverage.reach hits).2.known.edges ↔ edge ∈ hits ∨ edge ∈ coverage.known.edges := by
  rw [mem_known_iff_newEdges, mem_newEdges_reach]
  by_cases old : edge ∈ coverage.known.edges
  · simp [old]
  · simp [old]

theorem ascending_newEdges (coverage : Coverage) (hits : List UInt64) :
    (coverage.reach hits).1.newEdges.Pairwise (· < ·) := EdgeSet.ascending _

theorem size_reach :
    (coverage.reach hits).2.size = coverage.size + (coverage.reach hits).1.newEdges.length := by
  apply EdgeSet.size_insertAll (EdgeSet.nodup _)
  intro edge new
  exact (mem_newEdges_reach.mp new).2

/-- Coverage that takes the hits in one by one and puts the news in order comes to the same. -/
theorem reach_eq_takeIn (coverage : Coverage) (hits : List UInt64) : coverage.reach hits =
    (⟨(coverage.known.takeIn hits).1.mergeSort⟩, ⟨(coverage.known.takeIn hits).2⟩) := by
  refine Prod.ext (congrArg Trace.mk (EdgeSet.mergeSort_eq_edges (EdgeSet.nodup_takeIn_fst _ _) fun e => ?_).symm)
    (ext_mem fun e => ?_)
  · exact EdgeSet.mem_takeIn_fst.trans mem_newEdges_reach.symm
  · exact mem_known_reach.trans EdgeSet.mem_takeIn_snd.symm

end Coverage

end EngineFuzz
