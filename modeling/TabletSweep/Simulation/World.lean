import TabletSweep.NameSet
import TabletSweep.Pass.Cause
import TabletSweep.Volume

/-!
# A world kept in memory

A `World` holds all that a pass asks for: the candidate log as a sorted set, the entries of the
metadata, the blips and the table ids, and on demand a volume with its tree. It also holds the ways
in which it is to misbehave: requests that are refused, scans that break, a log that ignores the
cursor or answers by a script, deletions that fail, and changes that are planned for the time after
a page was served. Without any of these it is as well behaved as an environment can be.

Between passes a world is changed by `Edit`s.
-/

namespace TabletSweep.Simulation

/-- A request that is refused: the one of a number among its kind in a pass, counted from 0. -/
structure Outage where
  request : Request
  number : Nat
  error : ServiceError
  deriving Repr

/-- An error within a scan, after so many items or at its end. -/
structure Break where
  position : Nat
  error : ServiceError
  deriving Repr

/-- A volume with its tree. -/
structure Disk where
  volume : Volume
  tree : Tree
  deriving Repr

/-- A change of the world. -/
inductive Edit
  | setLog (literals : List String)
  | addToLog (literals : List String)
  | dropFromLog (literals : List String)
  | setReferences (entries : List Entry)
  | addReferences (entries : List Entry)
  | dropReferences (entries : List Entry)
  | setBlips (paths : List String)
  | setTableIds (ids : List String)
  | setPageCap (cap : Option Nat)
  | setScript (pages : Option (List (List String)))
  | setIgnoresCursor (ignores : Bool)
  | setOutages (outages : List Outage)
  | setReferencesBreak (place : Option Break)
  | setBlipsBreak (place : Option Break)
  | setDeleteFailures (failures : List (String × Nat))
  | setExtraFailed (literals : List String)
  | setPlan (plan : List (Nat × List Edit))
  | setDisk (disk : Option Disk)

/-- A world that a pass can be run on. -/
structure World where
  /-- The candidate log. -/
  log : NameSet := .empty
  references : List Entry := []
  blips : List String := []
  tableIds : List String := []
  /-- The number of candidates that a page has at most, whatever is asked for. -/
  pageCap : Option Nat := none
  /-- Pages that are served one after another in each pass in place of the log. -/
  script : Option (List (List String)) := none
  /-- Whether every page is served from the start of the log. -/
  ignoresCursor : Bool := false
  outages : List Outage := []
  referencesBreak : Option Break := none
  blipsBreak : Option Break := none
  /-- How many more times the deletion of a literal is to fail. -/
  deleteFailures : List (String × Nat) := []
  /-- Literals that every report of a deletion names besides those that failed. -/
  extraFailed : List String := []
  /-- Changes to be made after the page of a number, counted from 0, was served. -/
  plan : List (Nat × List Edit) := []
  disk : Option Disk := none
  /-- The requests of the current pass, the last one first. -/
  asked : List Request := []
  /-- Whether the last request was refused by an outage. -/
  refused : Bool := false

namespace World

/-- The world after a change. -/
def edit (w : World) : Edit → World
  | .setLog literals => { w with log := .ofList literals }
  | .addToLog literals => { w with log := w.log.insertAll literals }
  | .dropFromLog literals => { w with log := w.log.eraseAll literals }
  | .setReferences entries => { w with references := entries }
  | .addReferences entries => { w with references := w.references ++ entries }
  | .dropReferences entries =>
    { w with references := w.references.filter (!entries.contains ·) }
  | .setBlips paths => { w with blips := paths }
  | .setTableIds ids => { w with tableIds := ids }
  | .setPageCap cap => { w with pageCap := cap }
  | .setScript pages => { w with script := pages }
  | .setIgnoresCursor ignores => { w with ignoresCursor := ignores }
  | .setOutages outages => { w with outages }
  | .setReferencesBreak place => { w with referencesBreak := place }
  | .setBlipsBreak place => { w with blipsBreak := place }
  | .setDeleteFailures failures => { w with deleteFailures := failures }
  | .setExtraFailed literals => { w with extraFailed := literals }
  | .setPlan plan => { w with plan }
  | .setDisk disk => { w with disk }

/-- The world after changes, made in order. -/
def edits (w : World) (changes : List Edit) : World := changes.foldl edit w

/-- The world at the start of a pass. -/
def beginPass (w : World) : World := { w with asked := [], refused := false }

end World

/-- How many literals a change can bring into the pages of a log. -/
def Edit.literals : Edit → Nat
  | .setLog literals | .addToLog literals => literals.length
  | .setScript (some pages) => pages.flatten.length
  | .setPlan plan => planned plan
  | _ => 0
where
  /-- How many literals planned changes can bring in. -/
  planned : List (Nat × List Edit) → Nat
    | [] => 0
    | (_, changes) :: plan => all changes + planned plan
  /-- How many literals changes can bring in. -/
  all : List Edit → Nat
    | [] => 0
    | change :: changes => change.literals + all changes

/-- A number of pages that no pass over the world uses up: one more than there are literals that a
page can end with, because the last texts of the pages ascend. -/
def World.pageBudget (w : World) : Nat :=
  w.log.toList.length + (w.script.getD []).flatten.length + Edit.literals.planned w.plan + 1

end TabletSweep.Simulation
