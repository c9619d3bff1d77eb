import EngineFuzz.Program.Tree

/-!
Calls in loops by their trees. In a flat program they are found with nothing but the kinds of the blocks that
are open; in a tree, every instruction stands in blocks of which one may be a loop. Main statement: the calls
found in a tree written out flat are exactly those with a loop among the blocks around them, each at its own
position and in order.
-/

namespace EngineFuzz

namespace Statement

def isLoop : Statement → Bool
  | loop .. => true
  | simple .. | function .. => false

/-- An instruction of a tree and the blocks it stands in, innermost first. -/
structure Placed where
  blocks : List Statement
  instr : Instr

namespace Placed

/-- A call that has a loop around it, directly or through other blocks. -/
def isLoopCall (place : Placed) : Bool := place.instr.isCall && place.blocks.any isLoop

end Placed

mutual

/-- The instructions of a statement that stands in `blocks`. A block's head and its end stand outside of it. -/
def places (blocks : List Statement) : Statement → List Placed
  | simple instr _ => [⟨blocks, instr⟩]
  | function output params signature body =>
    ⟨blocks, .beginFunction output params signature⟩ ::
      (placesAll (function output params signature body :: blocks) body ++ [⟨blocks, .endFunction⟩])
  | loop index head body =>
    ⟨blocks, .beginFor index head⟩ ::
      (placesAll (loop index head body :: blocks) body ++ [⟨blocks, .endFor⟩])

def placesAll (blocks : List Statement) : List Statement → List Placed
  | [] => []
  | s :: ss => places blocks s ++ placesAll blocks ss

end

mutual

/-- The places of a statement, without their blocks, are the statement written out flat. -/
theorem map_instr_places (blocks : List Statement) : (s : Statement) →
    (places blocks s).map Placed.instr = flatten s
  | .simple instr flat => rfl
  | .function output params signature body => by
    simp only [places, flatten, List.map_cons, List.map_append, List.map_nil, map_instr_placesAll]
  | .loop index head body => by
    simp only [places, flatten, List.map_cons, List.map_append, List.map_nil, map_instr_placesAll]

theorem map_instr_placesAll (blocks : List Statement) : (statements : List Statement) →
    (placesAll blocks statements).map Placed.instr = flattenAll statements
  | [] => rfl
  | s :: statements => by
    simp only [placesAll, flattenAll, List.map_append, map_instr_places, map_instr_placesAll]

end

mutual

/-- By recursion on the blocks, a call is taken where a loop has been entered. -/
theorem loopCalls_eq (blocks : List Statement) : (s : Statement) →
    loopCalls (blocks.any isLoop) s = ((places blocks s).filter Placed.isLoopCall).map Placed.instr
  | .simple instr flat => by
    cases call : instr.isCall <;> cases inside : blocks.any isLoop <;>
      simp [loopCalls, places, Placed.isLoopCall, call, inside]
  | .function output params signature body => by
    have inner := loopCallsAll_eq (function output params signature body :: blocks) body
    rw [List.any_cons, isLoop, Bool.false_or] at inner
    simp [loopCalls, places, Placed.isLoopCall, Instr.isCall, inner]
  | .loop index head body => by
    have inner := loopCallsAll_eq (loop index head body :: blocks) body
    rw [List.any_cons, isLoop, Bool.true_or] at inner
    simp [loopCalls, places, Placed.isLoopCall, Instr.isCall, inner]

theorem loopCallsAll_eq (blocks : List Statement) : (statements : List Statement) →
    loopCallsAll (blocks.any isLoop) statements =
      ((placesAll blocks statements).filter Placed.isLoopCall).map Placed.instr
  | [] => rfl
  | s :: statements => by
    rw [loopCallsAll, placesAll, loopCalls_eq blocks s, loopCallsAll_eq blocks statements,
      List.filter_append, List.map_append]

end

/-- The calls in loops among places of which the first has the number `position`. -/
def loopCallsAt (position : Nat) (all : List Placed) : List (Nat × Instr) :=
  ((all.zipIdx position).filter fun (place, _) => place.isLoopCall).map fun (place, position) =>
    (position, place.instr)

theorem loopCallsAt_nil (position : Nat) : loopCallsAt position [] = [] := rfl

theorem loopCallsAt_append (position : Nat) (first second : List Placed) :
    loopCallsAt position (first ++ second) =
      loopCallsAt position first ++ loopCallsAt (position + first.length) second := by
  rw [loopCallsAt, List.zipIdx_append, List.filter_append, List.map_append]
  rfl

theorem loopCallsAt_cons (position : Nat) (place : Placed) (rest : List Placed) :
    loopCallsAt position (place :: rest) =
      (if place.isLoopCall then [(position, place.instr)] else []) ++ loopCallsAt (position + 1) rest := by
  cases taken : place.isLoopCall <;> simp [loopCallsAt, taken]

theorem mem_loopCallsAt {all : List Placed} {position : Nat} {instr : Instr} :
    (position, instr) ∈ loopCallsAt 0 all ↔ ∃ blocks, all[position]? = some ⟨blocks, instr⟩ ∧
      instr.isCall = true ∧ ∃ block ∈ blocks, block.isLoop = true := by
  simp only [loopCallsAt, List.mem_map, List.mem_filter, Prod.exists, Prod.mk.injEq, List.mem_zipIdx_iff_getElem?,
    Placed.isLoopCall, Bool.and_eq_true, List.any_eq_true]
  constructor
  · rintro ⟨place, number, ⟨found, call, inside⟩, rfl, rfl⟩
    exact ⟨place.blocks, found, call, inside⟩
  · rintro ⟨blocks, found, call, inside⟩
    exact ⟨⟨blocks, instr⟩, position, ⟨found, call, inside⟩, rfl, rfl⟩

theorem map_snd_loopCallsAt (position : Nat) (all : List Placed) :
    (loopCallsAt position all).map Prod.snd = (all.filter Placed.isLoopCall).map Placed.instr := by
  induction all generalizing position with
  | nil => rfl
  | cons place all ih =>
    rw [loopCallsAt_cons, List.map_append, ih, List.filter_cons]
    cases place.isLoopCall <;> rfl

end Statement

namespace Program

open Statement

variable {opened : List Bool} {position : Nat} {instr : Instr}

theorem loopCallsFrom_flat (flat : instr.opensBlock = false ∧ instr.closesBlock = false)
    (rest : List Instr) : loopCallsFrom opened position (instr :: rest) =
      (if instr.isCall && opened.any id then [(position, instr)] else []) ++
        loopCallsFrom opened (position + 1) rest := by
  cases instr with
  | beginFunction | beginFor => cases flat.1
  | endFunction | endFor => cases flat.2
  | call =>
    cases inside : opened.any id <;> simp [loopCallsFrom, Instr.isCall, inside]
  | _ => simp [loopCallsFrom, Instr.isCall]

theorem loopCallsFrom_open (opening : instr.opensBlock = true) (rest : List Instr) :
    loopCallsFrom opened position (instr :: rest) =
      loopCallsFrom (instr.isLoop :: opened) (position + 1) rest := by
  cases instr with
  | beginFunction | beginFor => rfl
  | _ => cases opening

theorem loopCallsFrom_close (closing : instr.closesBlock = true) (rest : List Instr) :
    loopCallsFrom opened position (instr :: rest) = loopCallsFrom opened.tail (position + 1) rest := by
  cases instr with
  | endFunction | endFor => rfl
  | _ => cases closing

/-- A block with a head of its kind, and with a body in which the calls in loops are those of `inner`. -/
theorem loopCallsFrom_block {block : Statement} {blocks : List Statement} {first last : Instr}
    {body : List Instr} {inner : List Placed} (opening : first.opensBlock = true)
    (kind : first.isLoop = block.isLoop) (closing : last.closesBlock = true)
    (found : ∀ rest, loopCallsFrom ((block :: blocks).map isLoop) (position + 1) (body ++ rest) =
      loopCallsAt (position + 1) inner ++
        loopCallsFrom ((block :: blocks).map isLoop) (position + 1 + inner.length) rest)
    (rest : List Instr) :
    loopCallsFrom (blocks.map isLoop) position (first :: (body ++ [last]) ++ rest) =
      loopCallsAt position (⟨blocks, first⟩ :: (inner ++ [⟨blocks, last⟩])) ++
        loopCallsFrom (blocks.map isLoop)
          (position + (Placed.mk blocks first :: (inner ++ [⟨blocks, last⟩])).length) rest := by
  have headPasses : Placed.isLoopCall ⟨blocks, first⟩ = false := by
    cases first with
    | call => cases opening
    | _ => rfl
  have endPasses : Placed.isLoopCall ⟨blocks, last⟩ = false := by
    cases last with
    | call => cases closing
    | _ => rfl
  have taken : loopCallsAt position (⟨blocks, first⟩ :: (inner ++ [⟨blocks, last⟩])) =
      loopCallsAt (position + 1) inner := by
    simp [loopCallsAt_cons, loopCallsAt_append, loopCallsAt_nil, headPasses, endPasses]
  have length : position + (Placed.mk blocks first :: (inner ++ [⟨blocks, last⟩])).length =
      position + 1 + inner.length + 1 := by
    simp only [List.length_cons, List.length_append, List.length_nil]
    omega
  rw [taken, length, List.cons_append, List.append_assoc, List.singleton_append,
    loopCallsFrom_open opening, kind, ← List.map_cons, found, loopCallsFrom_close closing, List.map_cons,
    List.tail_cons]

-- By recursion on the tree, for all that is open and whatever follows: a statement leaves the open blocks as
-- they were, so that only the position goes on.
mutual

theorem loopCallsFrom_flatten (blocks : List Statement) (position : Nat) (rest : List Instr) :
    (s : Statement) → loopCallsFrom (blocks.map isLoop) position (flatten s ++ rest) =
      loopCallsAt position (places blocks s) ++
        loopCallsFrom (blocks.map isLoop) (position + (places blocks s).length) rest
  | .simple instr flat => by
    rw [flatten, places, List.singleton_append, loopCallsFrom_flat flat, List.any_map, Function.id_comp,
      loopCallsAt_cons, loopCallsAt_nil, List.append_nil]
    rfl
  | .function output params signature body => by
    rw [flatten, places]
    exact loopCallsFrom_block rfl rfl rfl (loopCallsFrom_flattenAll _ (position + 1) · body) rest
  | .loop index head body => by
    rw [flatten, places]
    exact loopCallsFrom_block rfl rfl rfl (loopCallsFrom_flattenAll _ (position + 1) · body) rest

theorem loopCallsFrom_flattenAll (blocks : List Statement) (position : Nat) (rest : List Instr) :
    (statements : List Statement) → loopCallsFrom (blocks.map isLoop) position (flattenAll statements ++ rest) =
      loopCallsAt position (placesAll blocks statements) ++
        loopCallsFrom (blocks.map isLoop) (position + (placesAll blocks statements).length) rest
  | [] => rfl
  | s :: statements => by
    rw [flattenAll, placesAll, List.append_assoc, loopCallsFrom_flatten blocks position _ s,
      loopCallsFrom_flattenAll blocks _ rest statements, loopCallsAt_append, List.length_append,
      List.append_assoc, Nat.add_assoc]

end

theorem loopCalls_ofTree (statements : List Statement) :
    (ofTree statements).loopCalls = loopCallsAt 0 (placesAll [] statements) := by
  have whole := loopCallsFrom_flattenAll [] 0 [] statements
  rw [List.append_nil] at whole
  exact whole.trans (List.append_nil _)

/-! ### Among all calls -/

/-- All calls, in loops or not, with the positions that follow on `position`. -/
def callsFrom (position : Nat) (instrs : List Instr) : List (Nat × Instr) :=
  ((instrs.zipIdx position).filter fun (instr, _) => instr.isCall).map Prod.swap

theorem callsFrom_cons (position : Nat) (instr : Instr) (rest : List Instr) :
    callsFrom position (instr :: rest) =
      (if instr.isCall then [(position, instr)] else []) ++ callsFrom (position + 1) rest := by
  cases call : instr.isCall <;> simp [callsFrom, call]

/-- Nothing is found in a program that is not a call of it, nested or not. -/
theorem loopCallsFrom_sublist (opened : List Bool) (position : Nat) (instrs : List Instr) :
    (loopCallsFrom opened position instrs).Sublist (callsFrom position instrs) := by
  induction instrs generalizing opened position with
  | nil => exact .slnil
  | cons instr rest ih =>
    rw [callsFrom_cons]
    by_cases flat : instr.opensBlock = false ∧ instr.closesBlock = false
    · rw [loopCallsFrom_flat flat]
      refine .append ?_ (ih opened (position + 1))
      cases instr.isCall <;> cases opened.any id <;> simp
    · refine .trans ?_ (List.sublist_append_right _ _)
      cases opening : instr.opensBlock with
      | true =>
        rw [loopCallsFrom_open opening]
        exact ih _ _
      | false =>
        have closing : instr.closesBlock = true := by simpa [opening] using flat
        rw [loopCallsFrom_close closing]
        exact ih _ _

theorem pairwise_callsFrom (position : Nat) (instrs : List Instr) :
    (callsFrom position instrs).Pairwise fun a b => a.1 < b.1 := by
  have numbers : ((instrs.zipIdx position).map Prod.snd).Pairwise (· < ·) := by
    rw [List.zipIdx_map_snd]
    exact List.pairwise_lt_range'
  exact List.pairwise_map.mpr ((List.pairwise_map.mp numbers).filter _)

theorem map_snd_callsFrom (position : Nat) (instrs : List Instr) :
    (callsFrom position instrs).map Prod.snd = instrs.filter Instr.isCall := by
  induction instrs generalizing position with
  | nil => rfl
  | cons instr rest ih =>
    rw [callsFrom_cons, List.map_append, ih, List.filter_cons]
    cases instr.isCall <;> rfl

/-- The calls found in a program are some of its calls, in order and none of them twice. -/
theorem loopCalls_among_calls (p : Program) :
    p.loopCalls.Pairwise (fun a b => a.1 < b.1) ∧
      (p.loopCalls.map Prod.snd).Sublist (p.instrs.filter Instr.isCall) ∧ p.loopCalls.length ≤ p.calls := by
  have among : p.loopCalls.Sublist (callsFrom 0 p.instrs) := loopCallsFrom_sublist [] 0 p.instrs
  have some : (p.loopCalls.map Prod.snd).Sublist (p.instrs.filter Instr.isCall) :=
    map_snd_callsFrom 0 p.instrs ▸ among.map Prod.snd
  refine ⟨(pairwise_callsFrom 0 p.instrs).sublist among, some, ?_⟩
  rw [calls, List.countP_eq_length_filter, ← List.length_map]
  exact some.length_le

/-- The calls found in a tree written out flat are those with a loop among the blocks around them. -/
theorem loopCalls_follow_trees (statements : List Statement) :
    (placesAll [] statements).map Placed.instr = (ofTree statements).instrs ∧
    (∀ position instr, (position, instr) ∈ (ofTree statements).loopCalls ↔
      ∃ blocks, (placesAll [] statements)[position]? = some ⟨blocks, instr⟩ ∧
        instr.isCall = true ∧ ∃ block ∈ blocks, block.isLoop = true) ∧
    (ofTree statements).loopCalls.map Prod.snd = loopCallsAll false statements ∧
    (ofTree statements).loopCalls.Pairwise (fun a b => a.1 < b.1) ∧
    ((ofTree statements).loopCalls.map Prod.snd).Sublist ((ofTree statements).instrs.filter Instr.isCall) ∧
    (ofTree statements).loopCalls.length ≤ (ofTree statements).calls := by
  refine ⟨map_instr_placesAll [] statements, fun position instr => ?_, ?_, loopCalls_among_calls _⟩
  · rw [loopCalls_ofTree, mem_loopCallsAt]
  · rw [loopCalls_ofTree, map_snd_loopCallsAt]
    exact (loopCallsAll_eq [] statements).symm

-- A function in a loop, with a call of its own and one after it, and calls in a function and at the top.
example : (ofTree [.loop ⟨3⟩ ⟨⟨0⟩, .lessThan, ⟨1⟩, .add, ⟨2⟩⟩
      [.function ⟨4⟩ [] ⟨[], .anything⟩ [.simple (.call ⟨5⟩ ⟨4⟩ []) ⟨rfl, rfl⟩], .simple (.call ⟨6⟩ ⟨4⟩ []) ⟨rfl, rfl⟩],
    .function ⟨7⟩ [] ⟨[], .anything⟩ [.simple (.call ⟨8⟩ ⟨7⟩ []) ⟨rfl, rfl⟩],
    .simple (.call ⟨9⟩ ⟨7⟩ []) ⟨rfl, rfl⟩]).loopCalls =
      [(2, .call ⟨5⟩ ⟨4⟩ []), (4, .call ⟨6⟩ ⟨4⟩ [])] := by decide

end Program

end EngineFuzz
