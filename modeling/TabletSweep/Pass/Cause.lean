import TabletSweep.Environment
import TabletSweep.Pass.Counters
import TabletSweep.Reference

/-!
# Why a pass fails

A pass fails on a path or an entry that it cannot read, on an error of the environment, and on a
page of the log that would not move it past its cursor. Candidates that could not be deleted are no
reason to fail.
-/

namespace TabletSweep

/-- The requests to the environment that may fail. -/
inductive Request
  | references
  | blips
  | tableIds
  | candidates
  | delete
  | removeTableDir
  deriving DecidableEq, Repr, Inhabited

/-- The name of a request. -/
def Request.name : Request → String
  | references => "references"
  | blips => "blips"
  | tableIds => "table_ids"
  | candidates => "candidates"
  | delete => "delete"
  | removeTableDir => "delete_table_dir_if_empty"

/-- Why a pass fails. -/
inductive Cause
  /-- A candidate or a blip is no path of a target. -/
  | malformedPath (error : PathError)
  /-- An entry of the metadata cannot be read as a reference. -/
  | malformedEntry (error : EntryError)
  /-- The environment failed on a request, or within the scan that it answered. -/
  | environment (request : Request) (error : ServiceError)
  /-- A page of the log ends at or before its cursor. -/
  | stalled (cursor : String)
  deriving DecidableEq, Repr

namespace Cause

/-- The wording of a cause. -/
def message : Cause → String
  | malformedPath error => "malformed path: " ++ error.message
  | malformedEntry error => "malformed reference: " ++ error.message
  | environment request error => request.name ++ " failed: " ++ error.message
  | stalled cursor => "candidate log did not advance past " ++ Text.quoted cursor

/-- Whether the input is at fault and not the environment. -/
def isMalformed : Cause → Bool
  | malformedPath _ | malformedEntry _ => true
  | environment .. | stalled _ => false

end Cause

/-- The failure of a pass: its cause, and the phase in which it arose. -/
structure Failure where
  cause : Cause
  phase : Phase
  deriving DecidableEq, Repr

/-- The wording of a failure. -/
def Failure.message (failure : Failure) : String :=
  "collection pass failed while " ++ failure.phase.name ++ ": " ++ failure.cause.message

end TabletSweep
