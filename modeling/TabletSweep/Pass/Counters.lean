/-!
# Phases and counters of a pass

A pass fetches a page of candidates, reconciles it with its snapshot and deletes what is confirmed,
page after page, and at last cleans up table directories. The counters tell what it did so far.
-/

namespace TabletSweep

/-- What a pass is doing. -/
inductive Phase
  /-- It reads the snapshot or a page of the log. -/
  | fetching
  /-- It judges the candidates of a page. -/
  | reconciling
  /-- It deletes the confirmed candidates of a page. -/
  | deleting
  /-- It removes the directories of dropped tables. -/
  | cleaningTableDirs
  deriving DecidableEq, Repr, Inhabited

/-- The name of a phase. -/
def Phase.name : Phase → String
  | fetching => "Fetching"
  | reconciling => "Reconciling"
  | deleting => "Deleting"
  | cleaningTableDirs => "CleaningTableDirs"

/-- The counters of a pass. -/
structure Counters where
  /-- Pages that had candidates and moved past the cursor. -/
  pages : Nat := 0
  /-- Candidates on those pages. -/
  candidates : Nat := 0
  /-- Candidates kept because something refers to them. -/
  inUse : Nat := 0
  /-- Other candidates kept because of a bulk load. -/
  blipProtected : Nat := 0
  /-- Candidates found to be deletable. -/
  confirmed : Nat := 0
  /-- Candidates deleted. -/
  deleted : Nat := 0
  /-- Deletable candidates that were still not deleted when their page was left. -/
  deleteFailures : Nat := 0
  /-- Candidates submitted for deletion again. -/
  deleteRetries : Nat := 0
  /-- Requests to remove the directory of a table that were answered. -/
  tableDirsRemoved : Nat := 0
  deriving DecidableEq, Repr, Inhabited

end TabletSweep
