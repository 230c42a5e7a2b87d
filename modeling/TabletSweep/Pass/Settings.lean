/-!
# Settings of a pass

The settings say how many candidates are asked of the log at a time, what the tables directory is
called, what becomes of candidates that could not be deleted, and whether anything may be deleted at
all. A pass can be run with any settings; a collector takes only those that `Settings.check`
accepts.
-/

namespace TabletSweep

/-- What becomes of the candidates that a deletion reports as failed. -/
inductive OnFailure
  /-- They stay in the log for the next pass. -/
  | defer
  /-- They are deleted again within the page, at most so many times more, and then stay. -/
  | retry (attempts : Nat)
  deriving DecidableEq, Repr, Inhabited

/-- How many times a failed deletion is repeated at most. -/
def OnFailure.retries : OnFailure → Nat
  | defer => 0
  | retry attempts => attempts

/-- The settings of a pass. -/
structure Settings where
  /-- The number of candidates asked of the log for a page. -/
  batchSize : Nat := 1000
  /-- The name of the directory that holds the directories of the tables. -/
  tablesDir : String := "tables"
  onFailure : OnFailure := .defer
  /-- Whether candidates are judged but never deleted. -/
  safeMode : Bool := false
  deriving DecidableEq, Repr, Inhabited

/-- Why settings are not accepted. -/
inductive SettingsError
  /-- A page would have no candidate. -/
  | emptyBatch
  /-- The name of the tables directory is not a single segment. -/
  | tablesDirNotSegment
  /-- Failed deletions are to be repeated, but never. -/
  | noAttempts
  deriving DecidableEq, Repr

/-- The wording of an error in the settings. -/
def SettingsError.message : SettingsError → String
  | emptyBatch => "invalid config: candidate_batch_size must be >= 1"
  | tablesDirNotSegment => "invalid config: tables_dir must be a single non-empty path segment"
  | noAttempts => "invalid config: delete_failure_policy retry needs max_attempts >= 1"

/-- Accepts settings, or tells the first thing that is wrong with them. -/
def Settings.check (settings : Settings) : Except SettingsError Unit :=
  if settings.batchSize = 0 then .error .emptyBatch
  else if settings.tablesDir = "" || settings.tablesDir.toList.contains '/' then
    .error .tablesDirNotSegment
  else if settings.onFailure = .retry 0 then .error .noAttempts
  else .ok ()

end TabletSweep
