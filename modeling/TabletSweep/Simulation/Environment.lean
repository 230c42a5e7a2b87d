import TabletSweep.Collector
import TabletSweep.Simulation.World

/-!
# The environment that a world in memory makes

`environment` answers the requests of a pass from a `World`. Every request is counted, and refused
if an outage is planned for it. A page holds the entries of the log that follow the cursor, as many
as both the limit and the cap of the world allow. A deletion takes its candidates out of the log but
for those that failed, whether on the volume or because the world wants them to.
-/

namespace TabletSweep.Simulation

namespace World

/-- Counts a request. Gives its number among those of its kind in the pass, or refuses it. -/
def receive (request : Request) : Action World Nat := do
  let w ← get
  let number := w.asked.count request
  let w := { w with asked := request :: w.asked }
  match w.outages.find? fun o => o.request = request && o.number = number with
  | none =>
    set w
    return number
  | some outage =>
    set { w with refused := true }
    throw outage.error

/-- A scan of items that breaks at a place and goes on after it. -/
def scanOf {α : Type} (items : List α) : Option Break → Scan α
  | none => items.map .ok
  | some place =>
    (items.take place.position).map .ok ++ .error place.error ::
      (items.drop place.position).map .ok

/-- The page that is served to a request of a number. -/
def page (w : World) (number : Nat) (cursor : String) (limit : Nat) : List String :=
  match w.script with
  | some pages => pages.getD number []
  | none =>
    let literals := if w.ignoresCursor then w.log.toList else w.log.after cursor
    literals.take (w.pageCap.elim limit (min limit))

/-- Makes the changes planned for the time after the page of a number was served. -/
def advance (w : World) (number : Nat) : World :=
  (w.plan.filter (·.1 = number)).foldl (fun w step => w.edits step.2) w

/-- Tries the deletion of a literal. Tells whether it fails, and what is left of the failures. -/
def spendFailure (failures : List (String × Nat)) (literal : String) :
    Bool × List (String × Nat) :=
  if 0 < (failures.lookup literal).getD 0 then
    (true, failures.map fun f => if f.1 = literal then (f.1, f.2 - 1) else f)
  else (false, failures)

/-- Tries the deletion of candidates in order. Gives the literals that fail, and what is left of the
failures. -/
def spendFailures (failures : List (String × Nat)) :
    List Candidate → List String × List (String × Nat)
  | [] => ([], failures)
  | c :: cs =>
    let (fails, failures) := spendFailure failures c.literal
    let (failed, failures) := spendFailures failures cs
    (if fails then c.literal :: failed else failed, failures)

/-- Deletes a batch from storage. Gives the literals that fail. -/
def deleteStored (w : World) (batch : List Candidate) : List String × World :=
  match w.disk with
  | some disk =>
    let (report, tree) := disk.volume.deleteBatch disk.tree batch
    (report.failed, { w with disk := some { disk with tree } })
  | none =>
    let (failed, deleteFailures) := spendFailures w.deleteFailures batch
    (failed, { w with deleteFailures })

/-- Deletes a batch from storage and from the log. -/
def deleteBatch (w : World) (batch : List Candidate) : DeleteReport × World :=
  let (failed, w) := w.deleteStored batch
  let gone := (batch.map (·.literal)).filter (!failed.contains ·)
  (⟨failed ++ w.extraFailed⟩, { w with log := w.log.eraseAll gone })

/-- Removes the directory of a table from the volume, if there is a volume and nothing is in the
directory. -/
def removeTableDir (w : World) (table : String) : Except ServiceError Bool × World :=
  match w.disk with
  | some disk =>
    let (answer, tree) := disk.volume.removeTableDir disk.tree table
    (answer.mapError fun e => .io e.toIoError, { w with disk := some { disk with tree } })
  | none => (.ok false, w)

end World

/-- The environment that answers from a world. -/
def environment : Environment World where
  references := do
    let _ ← World.receive .references
    let w ← get
    return World.scanOf w.references w.referencesBreak
  blips := do
    let _ ← World.receive .blips
    let w ← get
    return World.scanOf w.blips w.blipsBreak
  tableIds := do
    let _ ← World.receive .tableIds
    let w ← get
    return w.tableIds
  candidates cursor limit := do
    let number ← World.receive .candidates
    let w ← get
    set (w.advance number)
    return w.page number cursor limit
  delete batch := do
    let _ ← World.receive .delete
    modifyGet fun w => w.deleteBatch batch
  removeTableDir table := do
    let _ ← World.receive .removeTableDir
    let w ← get
    let (answer, w) := w.removeTableDir table
    set w
    liftExcept answer
  countCandidates _ := return ()
  countInUse _ := return ()

/-- Runs a pass on a world, with as many pages as the world can need. -/
def runPass (settings : Settings) (w : World) : Report World :=
  Pass.run settings environment w.pageBudget w.beginPass

/-- Runs a pass of a collector on a world, with as many pages as the world can need. -/
def runCollector (collector : Collector) (w : World) : Collector × Report World :=
  collector.runPass environment w.pageBudget w.beginPass

end TabletSweep.Simulation
