import EngineFuzz.Program.Tree

/-!
Scripts by their trees. The script of a flat program is written with nothing but a count of the blocks
that are open; where the blocks are nested, the count is the depth in the tree. Main statement: the
script of a tree written out flat is the one that is written block by block, and after a nested program
the count is back where it was.
-/

namespace EngineFuzz

namespace Program

open Statement

/-- The script of instructions before which `depth` blocks are open. -/
def scriptFrom (depth : Nat) (instrs : List Instr) : String := String.join (linesFrom depth instrs)

theorem scriptFrom_nil (depth : Nat) : scriptFrom depth [] = "" := rfl

/-- A line, and the rest with one block fewer or more. -/
theorem scriptFrom_cons (depth : Nat) (instr : Instr) (rest : List Instr) :
    scriptFrom depth (instr :: rest) =
      lineAt (if instr.closesBlock then depth - 1 else depth) instr.text ++
        scriptFrom (if instr.opensBlock then (if instr.closesBlock then depth - 1 else depth) + 1
          else if instr.closesBlock then depth - 1 else depth) rest := by
  simp only [scriptFrom, linesFrom, String.join_cons, lineAt]

theorem scriptFrom_simple (depth : Nat) {instr : Instr}
    (flat : instr.opensBlock = false ∧ instr.closesBlock = false) (rest : List Instr) :
    scriptFrom depth (instr :: rest) = lineAt depth instr.text ++ scriptFrom depth rest := by
  simp only [scriptFrom_cons, flat, Bool.false_eq_true, if_false]

theorem scriptFrom_open (depth : Nat) {instr : Instr}
    (opening : instr.opensBlock = true ∧ instr.closesBlock = false) (rest : List Instr) :
    scriptFrom depth (instr :: rest) = lineAt depth instr.text ++ scriptFrom (depth + 1) rest := by
  simp only [scriptFrom_cons, opening, Bool.false_eq_true, if_false, if_true]

/-- An end with a block open around it. -/
theorem scriptFrom_close (depth : Nat) {instr : Instr}
    (closing : instr.opensBlock = false ∧ instr.closesBlock = true) (rest : List Instr) :
    scriptFrom (depth + 1) (instr :: rest) = lineAt depth instr.text ++ scriptFrom depth rest := by
  simp only [scriptFrom_cons, closing, Bool.false_eq_true, if_false, if_true, Nat.add_sub_cancel]

/-- A block whose body is written as `inner`. -/
theorem scriptFrom_block (depth : Nat) {first last : Instr} {body : List Instr} {inner : String}
    (opening : first.opensBlock = true ∧ first.closesBlock = false)
    (closing : last.opensBlock = false ∧ last.closesBlock = true)
    (written : ∀ rest, scriptFrom (depth + 1) (body ++ rest) = inner ++ scriptFrom (depth + 1) rest)
    (rest : List Instr) :
    scriptFrom depth (first :: (body ++ [last]) ++ rest) =
      lineAt depth first.text ++ inner ++ lineAt depth last.text ++ scriptFrom depth rest := by
  rw [List.cons_append, List.append_assoc, List.singleton_append, scriptFrom_open depth opening,
    written, scriptFrom_close depth closing]
  simp only [String.append_assoc]

-- By recursion on the tree, for every depth and whatever follows: the count of open blocks is the only
-- thing that is carried on, and a statement leaves it as it was.
mutual

theorem scriptFrom_flatten (depth : Nat) (rest : List Instr) : (s : Statement) →
    scriptFrom depth (flatten s ++ rest) = scriptAt depth s ++ scriptFrom depth rest
  | .simple instr flat => by
    rw [flatten, scriptAt, List.singleton_append]
    exact scriptFrom_simple depth flat rest
  | .function output params signature body => by
    rw [flatten, scriptAt]
    exact scriptFrom_block depth ⟨rfl, rfl⟩ ⟨rfl, rfl⟩
      (fun rest => scriptFrom_flattenAll (depth + 1) rest body) rest
  | .loop index head body => by
    rw [flatten, scriptAt]
    exact scriptFrom_block depth ⟨rfl, rfl⟩ ⟨rfl, rfl⟩
      (fun rest => scriptFrom_flattenAll (depth + 1) rest body) rest

theorem scriptFrom_flattenAll (depth : Nat) (rest : List Instr) : (statements : List Statement) →
    scriptFrom depth (flattenAll statements ++ rest) =
      scriptAllAt depth statements ++ scriptFrom depth rest
  | [] => by
    rw [flattenAll, scriptAllAt, List.nil_append, String.empty_append]
  | s :: statements => by
    rw [flattenAll, scriptAllAt, List.append_assoc, scriptFrom_flatten depth _ s,
      scriptFrom_flattenAll depth rest statements, String.append_assoc]

end

theorem script_ofTree (statements : List Statement) :
    (ofTree statements).script = scriptAllAt 0 statements := by
  have whole := scriptFrom_flattenAll 0 [] statements
  rw [List.append_nil, scriptFrom_nil, String.append_empty] at whole
  exact whole

theorem toList_indent (depth : Nat) : (indent depth).toList = List.replicate (4 * depth) ' ' := by
  rw [indent, String.pushn_eq_repeat_push]
  generalize 4 * depth = width
  induction width with
  | zero => rfl
  | succ width ih => rw [Nat.repeat, String.toList_push, ih, List.replicate_succ']

/-- Four blanks for every block around a line, its text, and the end of the line. -/
theorem toList_lineAt (depth : Nat) (text : String) :
    (lineAt depth text).toList = List.replicate (4 * depth) ' ' ++ text.toList ++ ['\n'] := by
  simp [lineAt, toList_indent]

theorem scripts_follow_trees :
    (∀ statements, (ofTree statements).script = scriptAllAt 0 statements) ∧
    (∀ depth text, (lineAt depth text).toList =
      List.replicate (4 * depth) ' ' ++ text.toList ++ ['\n']) ∧
    ∀ p q : Program, p.IsNested → (Program.mk (p.instrs ++ q.instrs)).script = p.script ++ q.script := by
  refine ⟨script_ofTree, toList_lineAt, ?_⟩
  rintro p q ⟨statements, rfl⟩
  calc (Program.mk ((ofTree statements).instrs ++ q.instrs)).script
    _ = scriptAllAt 0 statements ++ scriptFrom 0 q.instrs :=
      scriptFrom_flattenAll 0 q.instrs statements
    _ = (ofTree statements).script ++ q.script := by rw [script_ofTree]; rfl

end Program

end EngineFuzz
