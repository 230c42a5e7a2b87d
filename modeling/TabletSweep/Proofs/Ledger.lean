import TabletSweep.Proofs.Pass.Exec

/-!
# What a ledger has noted

A ledger notes candidates one after another, and what it has noted in the end is said here of all of
them at once: the tables of deleted tablet directories (`mem_emptied_deletedAll`) and the tables of
candidates that stay (`mem_kept_keptAll`).
-/

namespace TabletSweep.TableLedger

variable {ledger : TableLedger} {cs : List Candidate} {table : String}

theorem mem_emptied_noteDeleted {key : Key} :
    table ∈ (ledger.noteDeleted key).emptied ↔
      table ∈ ledger.emptied ∨ key.isDirectory = true ∧ table = key.table := by
  unfold noteDeleted
  split
  · rename_i h
    rw [NameSet.mem_insert]
    simp [h, or_comm]
  · rename_i h
    simp [h]

theorem kept_noteDeleted {key : Key} : (ledger.noteDeleted key).kept = ledger.kept := by
  unfold noteDeleted
  split <;> rfl

/-- Deleting candidates empties the tables of the tablet directories among them. -/
theorem mem_emptied_deletedAll :
    table ∈ (ledger.deletedAll cs).emptied ↔
      table ∈ ledger.emptied ∨ ∃ c ∈ cs, c.key.isDirectory = true ∧ table = c.key.table := by
  induction cs generalizing ledger with
  | nil => simp [deletedAll]
  | cons c cs ih =>
    rw [deletedAll, List.foldl_cons, ← deletedAll, ih, mem_emptied_noteDeleted, or_assoc]
    simp only [List.mem_cons, exists_eq_or_imp]

theorem deletedAll_append {ds : List Candidate} :
    ledger.deletedAll (cs ++ ds) = (ledger.deletedAll cs).deletedAll ds := List.foldl_append

@[simp] theorem kept_deletedAll : (ledger.deletedAll cs).kept = ledger.kept := by
  induction cs generalizing ledger with
  | nil => rfl
  | cons c cs ih => rw [deletedAll, List.foldl_cons, ← deletedAll, ih, kept_noteDeleted]

/-- Leaving candidates keeps their tables. -/
theorem mem_kept_keptAll :
    table ∈ (ledger.keptAll cs).kept ↔ table ∈ ledger.kept ∨ ∃ c ∈ cs, table = c.key.table := by
  induction cs generalizing ledger with
  | nil => simp [keptAll]
  | cons c cs ih =>
    rw [keptAll, List.foldl_cons, ← keptAll, ih]
    simp only [noteKept, List.mem_insert_iff, List.mem_cons, exists_eq_or_imp]
    rw [or_comm (a := table = c.key.table), or_assoc]

@[simp] theorem emptied_keptAll : (ledger.keptAll cs).emptied = ledger.emptied := by
  induction cs generalizing ledger with
  | nil => rfl
  | cons c cs ih => rw [keptAll, List.foldl_cons, ← keptAll, ih, noteKept]

end TabletSweep.TableLedger
