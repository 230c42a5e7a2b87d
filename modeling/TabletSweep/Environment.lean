import TabletSweep.Candidate
import TabletSweep.Entry
import TabletSweep.IoError

/-!
# The environment of a pass

The collector owns no storage. What it reads and what it changes it asks of an `Environment`: the
candidate log, the metadata scan, the markers of bulk loads, the ids of the tables, and deletion.
An environment is a set of actions on states of some type `σ`. Nothing is assumed of them: an
environment may answer wrongly, and any action may fail, with a new state all the same.

What an environment should do is this. A page of the log holds, in ascending order, texts that
follow the cursor, and is empty when none is left. A deletion takes every candidate that it does not
report as failed out of storage and out of the log, and succeeds on what is already gone.
-/

namespace TabletSweep

/-- An error of the environment. -/
inductive ServiceError
  /-- An input or output operation failed. -/
  | io (error : IoError)
  /-- A service could not be reached. -/
  | unavailable (reason : String)
  /-- A service found itself in an impossible state. -/
  | internal (reason : String)
  deriving DecidableEq, Repr, Inhabited

/-- The wording of an error of the environment. -/
def ServiceError.message : ServiceError → String
  | io error => "I/O error: " ++ error.message
  | unavailable reason => "unavailable: " ++ reason
  | internal reason => "internal error: " ++ reason

/-- A finite scan. An item may be an error in place of a value. -/
abbrev Scan (α : Type) := List (Except ServiceError α)

/-- What a deletion reports: the literals of the candidates that were not deleted. -/
structure DeleteReport where
  failed : List String := []
  deriving DecidableEq, Repr, Inhabited

namespace DeleteReport

/-- The report that everything was deleted. -/
def clean : DeleteReport := {}

/-- Whether everything was deleted. -/
def isClean (report : DeleteReport) : Bool := report.failed.isEmpty

/-- Whether the report names the candidate. -/
def lists (report : DeleteReport) (c : Candidate) : Bool := report.failed.contains c.literal

end DeleteReport

/-- An action on states of type `σ` that may fail. A failed action also leaves a state. -/
abbrev Action (σ α : Type) := ExceptT ServiceError (StateM σ) α

/-- What a collector asks of the world around it, for states of type `σ`. -/
structure Environment (σ : Type) where
  /-- The entries of the metadata that may keep a target alive. -/
  references : Action σ (Scan Entry)
  /-- The markers of bulk loads. -/
  blips : Action σ (Scan String)
  /-- The ids of the tables that exist. -/
  tableIds : Action σ (List String)
  /-- A page of the candidate log: what follows the cursor, up to about a limit. -/
  candidates (cursor : String) (limit : Nat) : Action σ (List String)
  /-- Deletes candidates from storage and from the log. -/
  delete (batch : List Candidate) : Action σ DeleteReport
  /-- Removes the directory of a table if it is empty. Tells whether it was removed. -/
  removeTableDir (table : String) : Action σ Bool
  /-- Adds to the number of candidates seen. -/
  countCandidates (n : Nat) : StateM σ Unit
  /-- Adds to the number of candidates kept. -/
  countInUse (n : Nat) : StateM σ Unit

end TabletSweep
