import TabletSweep.Pass.Run

/-!
# Running the steps of a pass

`PassM.exec` runs a step of a pass from a progress: it gives the result, or why the pass stops, and
the progress made. Steps that are put in sequence are run in sequence (`exec_bind`), and a request
and a scan have an equation for each way in which they can go, so that no proof opens the
definitions of `PassM` again.

An answer of the environment is what `Action.perform` gives, and `Progress.noted` is the progress
after a call that was answered.
-/

namespace TabletSweep

variable {σ α β : Type}

/-- What an action answers in a state, and the state that it leaves. -/
def Action.perform (action : Action σ α) (world : σ) : Except ServiceError α × σ :=
  action.run.run world

namespace Progress

/-- The progress after a call that left the environment in a state. -/
def noted (p : Progress σ) (world : σ) (call : Call) : Progress σ :=
  { p with world, calls := p.calls ++ [call] }

variable (p : Progress σ) (world : σ) (call : Call)

@[simp] theorem noted_world : (p.noted world call).world = world := rfl

@[simp] theorem noted_phase : (p.noted world call).phase = p.phase := rfl

@[simp] theorem noted_counters : (p.noted world call).counters = p.counters := rfl

@[simp] theorem noted_ledger : (p.noted world call).ledger = p.ledger := rfl

@[simp] theorem noted_calls : (p.noted world call).calls = p.calls ++ [call] := rfl

end Progress

namespace TableLedger

/-- The ledger once the targets of candidates were deleted. -/
def deletedAll (ledger : TableLedger) (cs : List Candidate) : TableLedger :=
  cs.foldl (fun ledger c => ledger.noteDeleted c.key) ledger

/-- The ledger once candidates stay in the log. -/
def keptAll (ledger : TableLedger) (cs : List Candidate) : TableLedger :=
  cs.foldl (fun ledger c => ledger.noteKept c.key) ledger

end TableLedger

namespace PassM

/-- Runs a step of a pass. -/
def exec (m : PassM σ α) (p : Progress σ) : Except Stop α × Progress σ := m.run.run p

variable (p : Progress σ)

/-- The second of two steps is run from where the first leads, unless the pass has stopped. -/
theorem exec_bind (m : PassM σ α) (next : α → PassM σ β) :
    exec (m >>= next) p =
      match exec m p with
      | (.ok a, q) => exec (next a) q
      | (.error stop, q) => (.error stop, q) := by
  change (ExceptT.bindCont next (m.run.run p).1).run (m.run.run p).2 = _
  rcases h : m.run.run p with ⟨a | stop, q⟩ <;> simp only [exec, h] <;> rfl

theorem exec_bind_ok {m : PassM σ α} {next : α → PassM σ β} {p q : Progress σ} {a : α}
    (h : exec m p = (.ok a, q)) : exec (m >>= next) p = exec (next a) q := by
  rw [exec_bind, h]

theorem exec_bind_error {m : PassM σ α} {next : α → PassM σ β} {p q : Progress σ} {stop : Stop}
    (h : exec m p = (.error stop, q)) : exec (m >>= next) p = (.error stop, q) := by
  rw [exec_bind, h]

@[simp] theorem exec_fail (cause : Cause) :
    exec (fail cause : PassM σ α) p = (.error (.failed cause), p) := rfl

@[simp] theorem exec_get : exec (get : PassM σ (Progress σ)) p = (.ok p, p) := rfl

@[simp] theorem exec_enter (phase : Phase) :
    exec (enter phase) p = (.ok (), { p with phase }) := rfl

theorem exec_attempt (action : Action σ α) :
    exec (attempt action) p =
      (.ok (action.perform p.world).1, { p with world := (action.perform p.world).2 }) := rfl

theorem exec_note (call : Call) : exec (note call) p = (.ok (), p.noted p.world call) := rfl

/-- A request that is answered is noted, and the answer is its result. -/
theorem exec_ask_ok {request : Request} {call : Except ServiceError α → Call}
    {action : Action σ α} {p : Progress σ} {a : α} {world : σ}
    (h : action.perform p.world = (.ok a, world)) :
    exec (ask request call action) p = (.ok a, p.noted world (call (.ok a))) := by
  simp only [ask, exec_bind, exec_attempt, exec_note, h]
  rfl

/-- A request that fails is noted, and fails the pass. -/
theorem exec_ask_error {request : Request} {call : Except ServiceError α → Call}
    {action : Action σ α} {p : Progress σ} {e : ServiceError} {world : σ}
    (h : action.perform p.world = (.error e, world)) :
    exec (ask request call action) p =
      (.error (.failed (.environment request e)), p.noted world (call (.error e))) := by
  simp only [ask, exec_bind, exec_attempt, exec_note, h]
  rfl

/-- How many items are read of the answer to the request for a scan, and what they are gathered
into, if none is in the way. -/
def readAnswer (request : Request) (take : β → α → Except Cause β) (start : β) :
    Except ServiceError (Scan α) → Nat × Except Cause β
  | .error e => (0, .error (.environment request e))
  | .ok items => readItems request take items start

/-- A scan is noted with what was read of it, and what it is gathered into is its result. -/
theorem exec_scan {request : Request} {call : Except ServiceError (Scan α) → Nat → Call}
    {action : Action σ (Scan α)} {take : β → α → Except Cause β} {start : β} {p : Progress σ}
    {answer : Except ServiceError (Scan α)} {world : σ} {read : Nat} {result : Except Cause β}
    (h : action.perform p.world = (answer, world))
    (hread : readAnswer request take start answer = (read, result)) :
    exec (scan request call action take start) p =
      (result.mapError .failed, p.noted world (call answer read)) := by
  cases answer with
  | error e =>
    cases hread
    simp only [scan, exec_bind, exec_attempt, exec_note, exec_fail, h]
    rfl
  | ok items =>
    simp only [readAnswer] at hread
    simp only [scan, exec_bind, exec_attempt, exec_note, h, hread]
    cases result <;> rfl

end PassM

end TabletSweep
