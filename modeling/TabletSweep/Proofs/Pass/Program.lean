import TabletSweep.Proofs.Pass.Exec

/-!
# What the steps of a pass do

For each step of a pass the equations that say, case by case, what it gives and what it changes:
deleting a batch (`exec_deleteBatch_end`, `exec_deleteBatch_repeat`), deleting what is confirmed of
a page (`exec_deletePage`), working through a page (`exec_processPage`) and through the log
(`exec_processLog_page`). The changes of the progress have names of their own.
-/

namespace TabletSweep

namespace Pass

open PassM

variable {σ : Type}

/-! ## The changes -/

section Changes

variable (env : Environment σ)

/-- The progress once a page that moves past its cursor is counted. -/
def counted (page : List String) (p : Progress σ) : Progress σ :=
  { p.noted ((env.countCandidates page.length).run p.world).2 (.countCandidates page.length) with
    phase := .reconciling
    counters := { p.counters with
      pages := p.counters.pages + 1
      candidates := p.counters.candidates + page.length } }

/-- The progress once a page is judged. -/
def judged (verdict : Verdict) (p : Progress σ) : Progress σ :=
  { p.noted ((env.countInUse verdict.kept.length).run p.world).2
      (.countInUse verdict.kept.length) with
    ledger := p.ledger.keptAll verdict.kept
    counters := { p.counters with
      inUse := p.counters.inUse + verdict.inUse.length
      blipProtected := p.counters.blipProtected + verdict.blipProtected.length
      confirmed := p.counters.confirmed + verdict.confirmed.length } }

/-- The candidates of a batch that a report names. -/
def failedOf (report : DeleteReport) (batch : List Candidate) : List Candidate :=
  batch.filter report.lists

/-- The candidates of a batch that a report does not name. -/
def deletedOf (report : DeleteReport) (batch : List Candidate) : List Candidate :=
  batch.filter (!report.lists ·)

/-- The progress once the deletion of a batch is reported. -/
def deleted (batch : List Candidate) (report : DeleteReport) (p : Progress σ) : Progress σ :=
  { p with
    ledger := p.ledger.deletedAll (deletedOf report batch)
    counters := { p.counters with
      deleted := p.counters.deleted + (deletedOf report batch).length } }

/-- The progress once candidates are to be deleted again. -/
def repeated (failed : List Candidate) (p : Progress σ) : Progress σ :=
  { p with
    counters := { p.counters with deleteRetries := p.counters.deleteRetries + failed.length } }

/-- The progress once candidates that could not be deleted are left. -/
def givenUp (failed : List Candidate) (p : Progress σ) : Progress σ :=
  { p with
    ledger := p.ledger.keptAll failed
    counters := { p.counters with deleteFailures := p.counters.deleteFailures + failed.length } }

/-- The progress once the removal of a table's directory is answered. -/
def removedDir (p : Progress σ) : Progress σ :=
  { p with counters := { p.counters with tableDirsRemoved := p.counters.tableDirsRemoved + 1 } }

end Changes

/-! ## The equations -/

variable {settings : Settings} {env : Environment σ}

/-- Reading the snapshot keeps what each of its three requests keeps, whether or not it succeeds. -/
theorem exec_readSnapshot_keeps (P : Progress σ → Prop)
    (references : ∀ p answer world read, P p → env.references.perform p.world = (answer, world) →
      P (p.noted world (.references answer read)))
    (blips : ∀ p answer world read, P p → env.blips.perform p.world = (answer, world) →
      P (p.noted world (.blips answer read)))
    (tableIds : ∀ p answer world, P p → env.tableIds.perform p.world = (answer, world) →
      P (p.noted world (.tableIds answer)))
    {p : Progress σ} (start : P p) : P (exec (readSnapshot settings env) p).2 := by
  rcases hr : env.references.perform p.world with ⟨answer, w⟩
  rcases hg : readAnswer .references (takeEntry settings) .empty answer with ⟨read, cause | live⟩
  · rw [readSnapshot, exec_bind_error (exec_scan hr hg)]
    exact references _ _ _ _ start hr
  have afterReferences := references _ _ _ read start hr
  rw [readSnapshot, exec_bind_ok (exec_scan hr hg)]
  rcases hb : env.blips.perform w with ⟨answer', w'⟩
  rcases hg' : readAnswer .blips (takeBlip settings) .empty answer' with ⟨read', cause | loads⟩
  · rw [exec_bind_error (exec_scan hb hg')]
    exact blips _ _ _ _ afterReferences hb
  have afterBlips := blips _ _ _ read' afterReferences hb
  rw [exec_bind_ok (exec_scan hb hg')]
  rcases ht : env.tableIds.perform w' with ⟨e | tables, w''⟩
  · rw [exec_bind_error (exec_ask_error ht)]
    exact tableIds _ _ _ afterBlips ht
  · rw [exec_bind_ok (exec_ask_ok ht)]
    exact tableIds _ _ _ afterBlips ht

section DeleteBatch

variable {retries : Nat} {batch : List Candidate} {p : Progress σ} {world : σ}

theorem exec_deleteBatch_error {e : ServiceError}
    (answered : (env.delete batch).perform p.world = (.error e, world)) :
    exec (deleteBatch env retries batch) p =
      (.error (.failed (.environment .delete e)), p.noted world (.delete batch (.error e))) := by
  cases retries <;> rw [deleteBatch, exec_bind_error (exec_ask_error answered)]

variable {report : DeleteReport}
  (answered : (env.delete batch).perform p.world = (.ok report, world))
include answered

theorem exec_deleteBatch_end (ends : retries = 0 ∨ failedOf report batch = []) :
    exec (deleteBatch env retries batch) p =
      (.ok (failedOf report batch),
        deleted batch report (p.noted world (.delete batch (.ok report)))) := by
  cases retries with
  | zero =>
    rw [deleteBatch, exec_bind_ok (exec_ask_ok answered), List.partition_eq_filter_filter]
    rfl
  | succ retries =>
    have none : failedOf report batch = [] := ends.resolve_left (Nat.succ_ne_zero retries)
    rw [deleteBatch, exec_bind_ok (exec_ask_ok answered), List.partition_eq_filter_filter, none]
    simp only [failedOf] at none
    simp only [none]
    rfl

theorem exec_deleteBatch_repeat (some : failedOf report batch ≠ []) :
    exec (deleteBatch env (retries + 1) batch) p =
      exec (deleteBatch env retries (failedOf report batch))
        (repeated (failedOf report batch)
          (deleted batch report (p.noted world (.delete batch (.ok report))))) := by
  rw [deleteBatch, exec_bind_ok (exec_ask_ok answered), List.partition_eq_filter_filter]
  change exec (if (failedOf report batch).isEmpty then _ else _) _ = _
  rw [if_neg (by simpa using some)]
  rfl

end DeleteBatch

/-- Leaves the candidates of a page that could not be deleted. -/
def giveUp (failed : List Candidate) : PassM σ Unit := do
  noteKept failed
  count fun c => { c with deleteFailures := c.deleteFailures + failed.length }

@[simp] theorem exec_giveUp (failed : List Candidate) (p : Progress σ) :
    exec (giveUp failed) p = (.ok (), givenUp failed p) := rfl

section DeletePage

variable {confirmed : List Candidate} {p : Progress σ}

theorem exec_deletePage_nil : exec (deletePage settings env []) p = (.ok (), p) := rfl

theorem exec_deletePage_safe (some : confirmed ≠ []) (safe : settings.safeMode = true) :
    exec (deletePage settings env confirmed) p =
      (.ok (), { p with phase := .deleting, ledger := p.ledger.keptAll confirmed }) := by
  rw [deletePage, if_neg (by simpa using some), if_pos safe]
  rfl

theorem exec_deletePage (some : confirmed ≠ []) (deletes : settings.safeMode = false) :
    exec (deletePage settings env confirmed) p =
      exec (deleteBatch env settings.onFailure.retries confirmed >>= giveUp)
        { p with phase := .deleting } := by
  rw [deletePage, if_neg (by simpa using some), if_neg (by simp [deletes])]
  rfl

end DeletePage

section ProcessPage

variable {snapshot : Snapshot} {page : List String} {cs : List Candidate} {p : Progress σ}

theorem exec_processPage_malformed {e : PathError}
    (read : Candidate.ofPage settings.tablesDir page = .error e) :
    exec (processPage settings env snapshot page) p =
      (.error (.failed (.malformedPath e)), counted env page p) := by
  change exec (judgePage settings env snapshot page >>= deletePage settings env)
    (counted env page p) = _
  rw [exec_bind_error]
  rw [judgePage, read]
  rfl

/-- A page that can be read is judged. -/
theorem exec_judgePage (read : Candidate.ofPage settings.tablesDir page = .ok cs) :
    exec (judgePage settings env snapshot page) p =
      (.ok (snapshot.judge cs).confirmed, judged env (snapshot.judge cs) p) := by
  rw [judgePage, read]
  rfl

theorem exec_processPage (read : Candidate.ofPage settings.tablesDir page = .ok cs) :
    exec (processPage settings env snapshot page) p =
      exec (deletePage settings env (snapshot.judge cs).confirmed)
        (judged env (snapshot.judge cs) (counted env page p)) := by
  change exec (judgePage settings env snapshot page >>= deletePage settings env)
    (counted env page p) = _
  exact exec_bind_ok (exec_judgePage read)

end ProcessPage

section ProcessLog

variable {snapshot : Snapshot} {budget : Nat} {cursor : String} {p : Progress σ} {world : σ}

theorem exec_processLog_error {e : ServiceError}
    (answered : (env.candidates cursor settings.batchSize).perform p.world = (.error e, world)) :
    exec (processLog settings env snapshot (budget + 1) cursor) p =
      (.error (.failed (.environment .candidates e)), { p with phase := .fetching }.noted world
        (.candidates cursor settings.batchSize (.error e))) := by
  rw [processLog, exec_bind_ok (exec_enter p .fetching)]
  exact exec_bind_error (exec_ask_error answered)

variable {page : List String}
  (answered : (env.candidates cursor settings.batchSize).perform p.world = (.ok page, world))
include answered

theorem exec_processLog_end (ends : page.getLast? = none) :
    exec (processLog settings env snapshot (budget + 1) cursor) p =
      (.ok (), { p with phase := .fetching }.noted world
        (.candidates cursor settings.batchSize (.ok page))) := by
  rw [processLog, exec_bind_ok (exec_enter p .fetching)]
  rw [exec_bind_ok (exec_ask_ok (p := { p with phase := .fetching }) answered)]
  rw [ends]
  rfl

variable {last : String} (ends : page.getLast? = some last)
include ends

theorem exec_processLog_stall (stays : cursor ≠ "" ∧ last ≤ cursor) :
    exec (processLog settings env snapshot (budget + 1) cursor) p =
      (.error (.failed (.stalled cursor)), { p with phase := .fetching }.noted world
        (.candidates cursor settings.batchSize (.ok page))) := by
  rw [processLog, exec_bind_ok (exec_enter p .fetching)]
  rw [exec_bind_ok (exec_ask_ok (p := { p with phase := .fetching }) answered)]
  simp only [ends, if_pos stays]
  rfl

theorem exec_processLog_page (moves : ¬(cursor ≠ "" ∧ last ≤ cursor)) :
    exec (processLog settings env snapshot (budget + 1) cursor) p =
      exec (processPage settings env snapshot page >>= fun _ =>
          processLog settings env snapshot budget last)
        ({ p with phase := .fetching }.noted world
          (.candidates cursor settings.batchSize (.ok page))) := by
  rw [processLog, exec_bind_ok (exec_enter p .fetching)]
  rw [exec_bind_ok (exec_ask_ok (p := { p with phase := .fetching }) answered)]
  simp only [ends, if_neg moves]

end ProcessLog

section Run

variable {budget : Nat} {world : σ} {q : Progress σ}

theorem run_of_ok (h : exec (steps settings env budget) { world } = (.ok (), q)) :
    run settings env budget world = ⟨.done, q.counters, q.calls, q.world⟩ := by
  rw [exec] at h
  simp only [run, h]

theorem run_of_failed {cause : Cause}
    (h : exec (steps settings env budget) { world } = (.error (.failed cause), q)) :
    run settings env budget world =
      ⟨.failed ⟨cause, q.phase⟩, q.counters, q.calls, q.world⟩ := by
  rw [exec] at h
  simp only [run, h]

theorem run_of_outOfPages
    (h : exec (steps settings env budget) { world } = (.error .outOfPages, q)) :
    run settings env budget world = ⟨.unfinished, q.counters, q.calls, q.world⟩ := by
  rw [exec] at h
  simp only [run, h]

end Run

end Pass

end TabletSweep
