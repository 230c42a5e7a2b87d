import TabletSweep.BulkLoads
import TabletSweep.LiveKeys

/-!
# The snapshot that a pass judges by

References, bulk loads and table ids are read once, at the start of a pass, and every page is judged
by that snapshot. A candidate that a reference keeps is in use, whether or not a bulk load covers it
too; of the others, those that a bulk load covers are kept; the rest is confirmed for deletion.
-/

namespace TabletSweep

/-- What a pass reads at its start. -/
structure Snapshot where
  live : LiveKeys
  loads : BulkLoads
  /-- The ids of the tables that exist. -/
  tables : List String

/-- How the candidates of a page are judged, each list in page order. -/
structure Verdict where
  /-- Candidates that may be deleted. -/
  confirmed : List Candidate
  /-- Candidates that something refers to. -/
  inUse : List Candidate
  /-- Other candidates that a bulk load covers. -/
  blipProtected : List Candidate
  deriving Repr

/-- The candidates that are to be kept. -/
def Verdict.kept (verdict : Verdict) : List Candidate := verdict.inUse ++ verdict.blipProtected

/-- Judges the candidates of a page. -/
def Snapshot.judge (snapshot : Snapshot) (page : List Candidate) : Verdict :=
  let (free, inUse) := snapshot.live.split page
  let (confirmed, blipProtected) := snapshot.loads.split free
  ⟨confirmed, inUse, blipProtected⟩

end TabletSweep
