import TabletSweep.Pass.Progress
import TabletSweep.Pass.Settings
import TabletSweep.Pass.Snapshot

/-!
# A collection pass

A pass reads its snapshot and then works through the candidate log page by page. A page is what the
log answers to the last text of the page before; each page is judged and its confirmed candidates
are deleted before the next is fetched, so a failure leaves earlier pages deleted and later ones
untouched. An empty page ends the log, and then the directories of dropped tables are removed.

A log may grow faster than it is read, so a pass is given a number of pages that it may ask for, and
`Pass.run` tells a pass that has used them up apart from one that is done and one that failed.
-/

namespace TabletSweep

/-- How a pass ends. -/
inductive Outcome
  /-- It has worked through the log and cleaned up. -/
  | done
  | failed (failure : Failure)
  /-- It has asked for all the pages that it was allowed to. -/
  | unfinished
  deriving DecidableEq, Repr

/-- What is left of a pass. -/
structure Report (σ : Type) where
  outcome : Outcome
  counters : Counters
  /-- The calls that were made, in order. -/
  calls : List Call
  /-- The state in which the pass left the environment. -/
  world : σ

namespace Pass

open PassM

variable {σ : Type} (settings : Settings) (env : Environment σ)

/-- Takes an entry of the metadata scan among the references. -/
def takeEntry (live : LiveKeys) (entry : Entry) : Except Cause LiveKeys :=
  ((Reference.ofEntry settings.tablesDir entry).map live.insert).mapError .malformedEntry

/-- Takes a blip among the bulk loads. -/
def takeBlip (loads : BulkLoads) (blip : String) : Except Cause BulkLoads :=
  (loads.mark settings.tablesDir blip).mapError .malformedPath

/-- Reads references, bulk loads and table ids, in this order. -/
def readSnapshot : PassM σ Snapshot := do
  let live ← scan .references .references env.references (takeEntry settings) .empty
  let loads ← scan .blips .blips env.blips (takeBlip settings) .empty
  let tables ← ask .tableIds .tableIds env.tableIds
  return ⟨live, loads, tables⟩

/-- Judges a page. Gives the candidates that are confirmed for deletion. -/
def judgePage (snapshot : Snapshot) (page : List String) : PassM σ (List Candidate) := do
  match Candidate.ofPage settings.tablesDir page with
  | .error e => fail (.malformedPath e)
  | .ok candidates =>
    let verdict := snapshot.judge candidates
    noteKept verdict.kept
    count fun c => { c with
      inUse := c.inUse + verdict.inUse.length
      blipProtected := c.blipProtected + verdict.blipProtected.length
      confirmed := c.confirmed + verdict.confirmed.length }
    tell (.countInUse verdict.kept.length) (env.countInUse verdict.kept.length)
    return verdict.confirmed

/-- Deletes a batch, and again what the answer reports as failed, at most so many times more. Gives
the candidates that the last answer reports as failed. -/
def deleteBatch : Nat → List Candidate → PassM σ (List Candidate)
  | retries, batch => do
    let report ← ask .delete (.delete batch) (env.delete batch)
    let (failed, deleted) := batch.partition report.lists
    noteDeleted deleted
    count fun c => { c with deleted := c.deleted + deleted.length }
    match retries with
    | 0 => return failed
    | retries + 1 =>
      if failed.isEmpty then return []
      else do
        count fun c => { c with deleteRetries := c.deleteRetries + failed.length }
        deleteBatch retries failed

/-- Deletes the confirmed candidates of a page, unless there are none or the pass is to delete
nothing. What is left of them stays in the log. -/
def deletePage (confirmed : List Candidate) : PassM σ Unit :=
  if confirmed.isEmpty then return ()
  else do
    enter .deleting
    if settings.safeMode then noteKept confirmed
    else do
      let failed ← deleteBatch env settings.onFailure.retries confirmed
      noteKept failed
      count fun c => { c with deleteFailures := c.deleteFailures + failed.length }

/-- Works through a page that moves past its cursor. -/
def processPage (snapshot : Snapshot) (page : List String) : PassM σ Unit := do
  count fun c => { c with
    pages := c.pages + 1
    candidates := c.candidates + page.length }
  tell (.countCandidates page.length) (env.countCandidates page.length)
  enter .reconciling
  let confirmed ← judgePage settings env snapshot page
  deletePage settings env confirmed

/-- Works through the log after a cursor, asking for at most so many pages. The cursor is empty for
the first page; every page after that has to end beyond it. -/
def processLog (snapshot : Snapshot) : Nat → String → PassM σ Unit
  | 0, _ => throw .outOfPages
  | budget + 1, cursor => do
    enter .fetching
    let page ← ask .candidates (.candidates cursor settings.batchSize)
      (env.candidates cursor settings.batchSize)
    match page.getLast? with
    | none => return ()
    | some last =>
      if cursor ≠ "" ∧ last ≤ cursor then fail (.stalled cursor)
      else do
        processPage settings env snapshot page
        processLog snapshot budget last

/-- Requests the removal of the directories of tables, one after another. -/
def removeTableDirs : List String → PassM σ Unit
  | [] => return ()
  | table :: tables => do
    let _ ← ask .removeTableDir (.removeTableDir table) (env.removeTableDir table)
    count fun c => { c with tableDirsRemoved := c.tableDirsRemoved + 1 }
    removeTableDirs tables

/-- All steps of a pass. -/
def steps (budget : Nat) : PassM σ Unit := do
  let snapshot ← readSnapshot settings env
  processLog settings env snapshot budget ""
  enter .cleaningTableDirs
  let p ← get
  removeTableDirs env (p.ledger.removable snapshot.tables snapshot.live)

/-- Runs a pass that may ask for so many pages, from a state of the environment. -/
def run (budget : Nat) (world : σ) : Report σ :=
  let (result, p) := (steps settings env budget).run.run { world }
  let outcome := match result with
    | .ok () => .done
    | .error (.failed cause) => .failed ⟨cause, p.phase⟩
    | .error .outOfPages => .unfinished
  ⟨outcome, p.counters, p.calls, p.world⟩

end Pass

end TabletSweep
