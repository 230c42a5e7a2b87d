import TabletSweep.Pass.Call
import TabletSweep.TableLedger

/-!
# What a pass keeps track of

The steps of a pass are programs of `PassM σ`: they read and change a `Progress`, which holds the
state of the environment, the phase, the counters, the ledger of tables and the calls made so far,
and they may stop the pass. What was done before a stop stays done.

`ask` and `scan` are the only ways to a request of the environment, and `tell` the only way to its
counters. Each notes its call, so the calls of a pass are complete.
-/

namespace TabletSweep

/-- What a pass keeps track of, over an environment with states of type `σ`. -/
structure Progress (σ : Type) where
  world : σ
  phase : Phase := .fetching
  counters : Counters := {}
  ledger : TableLedger := .empty
  /-- The calls made so far, in order. -/
  calls : List Call := []

/-- Why a pass stops before its end. -/
inductive Stop
  /-- It failed. -/
  | failed (cause : Cause)
  /-- It has used up the pages that it was allowed to ask for. -/
  | outOfPages
  deriving DecidableEq, Repr

/-- A step of a pass. -/
abbrev PassM (σ α : Type) := ExceptT Stop (StateM (Progress σ)) α

namespace PassM

variable {σ α β : Type}

/-- Fails the pass. -/
def fail (cause : Cause) : PassM σ α := throw (.failed cause)

/-- Moves to a phase. -/
def enter (phase : Phase) : PassM σ Unit := modify fun p => { p with phase }

/-- Changes the counters. -/
def count (change : Counters → Counters) : PassM σ Unit :=
  modify fun p => { p with counters := change p.counters }

/-- Notes a call. -/
def note (call : Call) : PassM σ Unit := modify fun p => { p with calls := p.calls ++ [call] }

/-- Notes in the ledger that candidates were deleted. -/
def noteDeleted (cs : List Candidate) : PassM σ Unit :=
  modify fun p => { p with ledger := cs.foldl (fun ledger c => ledger.noteDeleted c.key) p.ledger }

/-- Notes in the ledger that candidates stay in the log. -/
def noteKept (cs : List Candidate) : PassM σ Unit :=
  modify fun p => { p with ledger := cs.foldl (fun ledger c => ledger.noteKept c.key) p.ledger }

/-- Runs an action of the environment and gives its answer, be it an error. -/
def attempt (action : Action σ α) : PassM σ (Except ServiceError α) := do
  let p ← get
  let (answer, world) := action.run.run p.world
  set { p with world }
  return answer

/-- Makes a request and notes it. An error of the environment fails the pass. -/
def ask (request : Request) (call : Except ServiceError α → Call) (action : Action σ α) :
    PassM σ α := do
  let answer ← attempt action
  note (call answer)
  match answer with
  | .ok a => return a
  | .error e => fail (.environment request e)

/-- Tells the environment a number and notes it. -/
def tell (call : Call) (action : StateM σ Unit) : PassM σ Unit := do
  modify fun p => { p with world := (action.run p.world).2 }
  note call

/-- Reads a scan item by item. Gives the number of items read and what they were gathered into,
unless one was an error or could not be taken. Nothing is read beyond the first such item. -/
def readItems (request : Request) (take : β → α → Except Cause β) :
    Scan α → β → Nat × Except Cause β
  | [], gathered => (0, .ok gathered)
  | .error e :: _, _ => (1, .error (.environment request e))
  | .ok a :: items, gathered =>
    match take gathered a with
    | .error cause => (1, .error cause)
    | .ok gathered =>
      let (read, result) := readItems request take items gathered
      (read + 1, result)

/-- Requests a scan, reads it, and notes how many items were read. -/
def scan (request : Request) (call : Except ServiceError (Scan α) → Nat → Call)
    (action : Action σ (Scan α)) (take : β → α → Except Cause β) (start : β) : PassM σ β := do
  match ← attempt action with
  | .error e =>
    note (call (.error e) 0)
    fail (.environment request e)
  | .ok items =>
    let (read, result) := readItems request take items start
    note (call (.ok items) read)
    match result with
    | .ok gathered => return gathered
    | .error cause => fail cause

end PassM

end TabletSweep
