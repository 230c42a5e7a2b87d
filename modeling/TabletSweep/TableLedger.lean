import TabletSweep.LiveKeys
import TabletSweep.NameSet

/-!
# Which table directories can go

When a table is dropped, its tablet directories are deleted one after another; with the last of them
the directory of the table can go too. The ledger notes, over one pass, the tables that lost a
tablet directory and the tables that keep a candidate. A table's directory can go when the table
lost a tablet directory and keeps no candidate, does not exist any more, and is not pointed into.
-/

namespace TabletSweep

/-- What one pass has done to the tables. -/
structure TableLedger where
  /-- The tables that lost a tablet directory. -/
  emptied : NameSet := .empty
  /-- The tables that keep a candidate. -/
  kept : List String := []

namespace TableLedger

/-- The ledger at the start of a pass. -/
def empty : TableLedger := {}

/-- Notes that the target of a key was deleted. Only a tablet directory counts. -/
def noteDeleted (ledger : TableLedger) (key : Key) : TableLedger :=
  if key.isDirectory then { ledger with emptied := ledger.emptied.insert key.table } else ledger

/-- Notes that a candidate with this key stays in the log. -/
def noteKept (ledger : TableLedger) (key : Key) : TableLedger :=
  { ledger with kept := ledger.kept.insert key.table }

/-- The tables whose directories can go, in ascending order. -/
def removable (ledger : TableLedger) (existing : List String) (live : LiveKeys) : List String :=
  ledger.emptied.toList.filter fun table =>
    !existing.contains table && !ledger.kept.contains table && !live.reaches table

theorem mem_removable {ledger : TableLedger} {existing : List String} {live : LiveKeys}
    {table : String} :
    table ∈ ledger.removable existing live ↔
      table ∈ ledger.emptied ∧ table ∉ existing ∧ table ∉ ledger.kept ∧
        live.reaches table = false := by
  simp [removable, NameSet.mem_def, and_assoc]

/-- The tables whose directories can go are listed in ascending order, each once. -/
theorem sorted_removable (ledger : TableLedger) (existing : List String) (live : LiveKeys) :
    (ledger.removable existing live).Pairwise (· < ·) :=
  ledger.emptied.sorted.filter _

end TableLedger

end TabletSweep
