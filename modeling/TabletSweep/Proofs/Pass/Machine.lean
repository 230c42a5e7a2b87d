import Mathlib.Logic.Relation
import TabletSweep.Proofs.Pass.Calls
import TabletSweep.Proofs.Pass.Program

/-!
# A pass as a machine

A pass goes from point to point: it reads its snapshot in three requests, then fetches a page,
judges it and deletes what is confirmed, over and over, and at last it cleans up. `Point` says what
is to be done next, a `Config` is a point with the progress made, and `Step` lists all that can
happen at each point, with what it changes.

`exists_reaches_run` says that a run of a pass is a way through this machine, and `run_invariant`
that what every step keeps holds where the run ends. All that is said about passes over an
environment that may answer anything rests on these two, and none of it opens the program.
-/

namespace TabletSweep

namespace Pass

open PassM Relation

variable {σ α : Type}

/-- What a pass does next. -/
inductive Point
  /-- Read the references. -/
  | references
  /-- Read the blips. -/
  | blips (live : LiveKeys)
  /-- Read the ids of the tables. -/
  | tableIds (live : LiveKeys) (loads : BulkLoads)
  /-- Fetch the page after the cursor. -/
  | fetch (snapshot : Snapshot) (cursor : String)
  /-- Judge a page that ends with the text. -/
  | judge (snapshot : Snapshot) (page : List String) (last : String)
  /-- Delete a batch, and what fails at most so many times more; then fetch after the cursor. -/
  | delete (snapshot : Snapshot) (cursor : String) (retries : Nat) (batch : List Candidate)
  /-- Remove the directories of the tables. -/
  | clean (snapshot : Snapshot) (tables : List String)
  | done
  | failed (cause : Cause)

/-- Where a pass stands. -/
structure Config (σ : Type) where
  point : Point
  progress : Progress σ

/-! ## The steps -/

variable (settings : Settings) (env : Environment σ)

/-- One step of a pass. -/
inductive Step : Config σ → Config σ → Prop
  | readReferences {p answer world read live}
      (answered : env.references.perform p.world = (answer, world))
      (gathered : readAnswer .references (takeEntry settings) .empty answer = (read, .ok live)) :
      Step ⟨.references, p⟩ ⟨.blips live, p.noted world (.references answer read)⟩
  | failReferences {p answer world read cause}
      (answered : env.references.perform p.world = (answer, world))
      (gathered : readAnswer .references (takeEntry settings) .empty answer =
        (read, .error cause)) :
      Step ⟨.references, p⟩ ⟨.failed cause, p.noted world (.references answer read)⟩
  | readBlips {live p answer world read loads}
      (answered : env.blips.perform p.world = (answer, world))
      (gathered : readAnswer .blips (takeBlip settings) .empty answer = (read, .ok loads)) :
      Step ⟨.blips live, p⟩ ⟨.tableIds live loads, p.noted world (.blips answer read)⟩
  | failBlips {live p answer world read cause}
      (answered : env.blips.perform p.world = (answer, world))
      (gathered : readAnswer .blips (takeBlip settings) .empty answer = (read, .error cause)) :
      Step ⟨.blips live, p⟩ ⟨.failed cause, p.noted world (.blips answer read)⟩
  | readTableIds {live loads p tables world}
      (answered : env.tableIds.perform p.world = (.ok tables, world)) :
      Step ⟨.tableIds live loads, p⟩
        ⟨.fetch ⟨live, loads, tables⟩ "", p.noted world (.tableIds (.ok tables))⟩
  | failTableIds {live loads p e world}
      (answered : env.tableIds.perform p.world = (.error e, world)) :
      Step ⟨.tableIds live loads, p⟩
        ⟨.failed (.environment .tableIds e), p.noted world (.tableIds (.error e))⟩
  | fetchPage {snapshot cursor p page last world}
      (answered : (env.candidates cursor settings.batchSize).perform p.world = (.ok page, world))
      (ends : page.getLast? = some last) (moves : ¬(cursor ≠ "" ∧ last ≤ cursor)) :
      Step ⟨.fetch snapshot cursor, p⟩
        ⟨.judge snapshot page last,
          counted env page (p.noted world (.candidates cursor settings.batchSize (.ok page)))⟩
  | stall {snapshot cursor p page last world}
      (answered : (env.candidates cursor settings.batchSize).perform p.world = (.ok page, world))
      (ends : page.getLast? = some last) (stays : cursor ≠ "" ∧ last ≤ cursor) :
      Step ⟨.fetch snapshot cursor, p⟩
        ⟨.failed (.stalled cursor), { p with phase := .fetching }.noted world
          (.candidates cursor settings.batchSize (.ok page))⟩
  | failFetch {snapshot cursor p e world}
      (answered : (env.candidates cursor settings.batchSize).perform p.world = (.error e, world)) :
      Step ⟨.fetch snapshot cursor, p⟩
        ⟨.failed (.environment .candidates e), { p with phase := .fetching }.noted world
          (.candidates cursor settings.batchSize (.error e))⟩
  | endLog {snapshot cursor p world}
      (answered : (env.candidates cursor settings.batchSize).perform p.world = (.ok [], world)) :
      Step ⟨.fetch snapshot cursor, p⟩
        ⟨.clean snapshot (p.ledger.removable snapshot.tables snapshot.live),
          { p with phase := .cleaningTableDirs }.noted world
            (.candidates cursor settings.batchSize (.ok []))⟩
  | malformedPage {snapshot page last p e}
      (read : Candidate.ofPage settings.tablesDir page = .error e) :
      Step ⟨.judge snapshot page last, p⟩ ⟨.failed (.malformedPath e), p⟩
  | keepPage {snapshot page last p cs}
      (read : Candidate.ofPage settings.tablesDir page = .ok cs)
      (none : (snapshot.judge cs).confirmed = []) :
      Step ⟨.judge snapshot page last, p⟩
        ⟨.fetch snapshot last, judged env (snapshot.judge cs) p⟩
  | sparePage {snapshot page last p cs}
      (read : Candidate.ofPage settings.tablesDir page = .ok cs)
      (some : (snapshot.judge cs).confirmed ≠ []) (safe : settings.safeMode = true) :
      Step ⟨.judge snapshot page last, p⟩
        ⟨.fetch snapshot last, { judged env (snapshot.judge cs) p with
          phase := .deleting
          ledger := (judged env (snapshot.judge cs) p).ledger.keptAll
            (snapshot.judge cs).confirmed }⟩
  | confirmPage {snapshot page last p cs}
      (read : Candidate.ofPage settings.tablesDir page = .ok cs)
      (some : (snapshot.judge cs).confirmed ≠ []) (deletes : settings.safeMode = false) :
      Step ⟨.judge snapshot page last, p⟩
        ⟨.delete snapshot last settings.onFailure.retries (snapshot.judge cs).confirmed,
          { judged env (snapshot.judge cs) p with phase := .deleting }⟩
  | failDelete {snapshot cursor retries batch p e world}
      (answered : (env.delete batch).perform p.world = (.error e, world)) :
      Step ⟨.delete snapshot cursor retries batch, p⟩
        ⟨.failed (.environment .delete e), p.noted world (.delete batch (.error e))⟩
  | endDelete {snapshot cursor retries batch p report world}
      (answered : (env.delete batch).perform p.world = (.ok report, world))
      (ends : retries = 0 ∨ failedOf report batch = []) :
      Step ⟨.delete snapshot cursor retries batch, p⟩
        ⟨.fetch snapshot cursor, givenUp (failedOf report batch)
          (deleted batch report (p.noted world (.delete batch (.ok report))))⟩
  | repeatDelete {snapshot cursor retries batch p report world}
      (answered : (env.delete batch).perform p.world = (.ok report, world))
      (some : failedOf report batch ≠ []) :
      Step ⟨.delete snapshot cursor (retries + 1) batch, p⟩
        ⟨.delete snapshot cursor retries (failedOf report batch),
          repeated (failedOf report batch)
            (deleted batch report (p.noted world (.delete batch (.ok report))))⟩
  | removeDir {snapshot table tables p removed world}
      (answered : (env.removeTableDir table).perform p.world = (.ok removed, world)) :
      Step ⟨.clean snapshot (table :: tables), p⟩
        ⟨.clean snapshot tables, removedDir (p.noted world (.removeTableDir table (.ok removed)))⟩
  | failRemove {snapshot table tables p e world}
      (answered : (env.removeTableDir table).perform p.world = (.error e, world)) :
      Step ⟨.clean snapshot (table :: tables), p⟩
        ⟨.failed (.environment .removeTableDir e),
          p.noted world (.removeTableDir table (.error e))⟩
  | finish {snapshot p} : Step ⟨.clean snapshot [], p⟩ ⟨.done, p⟩

/-- A pass can get from one configuration to another. -/
abbrev Reaches : Config σ → Config σ → Prop := ReflTransGen (Step settings env)

/-! ## A run is a way through the machine -/

/-- The end of a program step leads on to a point, or to a failure of the pass. -/
def Leads (start : Config σ) (next : α → Point) : Except Stop α × Progress σ → Prop
  | (.ok a, q) => Reaches settings env start ⟨next a, q⟩ ∧
      fetches q.calls = fetches start.progress.calls
  | (.error (.failed cause), q) => Reaches settings env start ⟨.failed cause, q⟩
  | (.error .outOfPages, _) => False

variable {settings env}

theorem Leads.of_step {c d : Config σ} {next : α → Point} {r : Except Stop α × Progress σ}
    (step : Step settings env c d) (h : fetches d.progress.calls = fetches c.progress.calls)
    (leads : Leads settings env d next r) : Leads settings env c next r := by
  match r, leads with
  | (.ok _, _), leads => exact ⟨.head step leads.1, leads.2.trans h⟩
  | (.error (.failed _), _), leads => exact .head step leads
  | (.error .outOfPages, _), leads => exact leads

variable (settings env) in
theorem readSnapshot_leads (p : Progress σ) :
    Leads settings env ⟨.references, p⟩ (.fetch · "") (exec (readSnapshot settings env) p) := by
  rcases hr : env.references.perform p.world with ⟨answer, w⟩
  rcases hg : readAnswer .references (takeEntry settings) .empty answer with ⟨read, cause | live⟩
  · rw [readSnapshot, exec_bind_error (exec_scan hr hg)]
    exact .single (.failReferences hr hg)
  have toBlips : Reaches settings env ⟨.references, p⟩ _ := .single (.readReferences hr hg)
  rw [readSnapshot, exec_bind_ok (exec_scan hr hg)]
  rcases hb : env.blips.perform w with ⟨answer', w'⟩
  rcases hg' : readAnswer .blips (takeBlip settings) .empty answer' with ⟨read', cause | loads⟩
  · rw [exec_bind_error (exec_scan hb hg')]
    exact toBlips.tail (.failBlips hb hg')
  have toTables := toBlips.tail (.readBlips hb hg')
  rw [exec_bind_ok (exec_scan hb hg')]
  rcases ht : env.tableIds.perform w' with ⟨e | tables, w''⟩
  · rw [exec_bind_error (exec_ask_error ht)]
    exact toTables.tail (.failTableIds ht)
  · rw [exec_bind_ok (exec_ask_ok ht)]
    exact ⟨toTables.tail (.readTableIds ht), by simp [Call.isFetch]⟩

variable (settings env) in
/-- Deleting a batch, and giving up what is left of it, leads on to the next page. -/
theorem deleteBatch_leads (snapshot : Snapshot) (cursor : String) (retries : Nat)
    (batch : List Candidate) (p : Progress σ) :
    Leads settings env ⟨.delete snapshot cursor retries batch, p⟩ (fun _ => .fetch snapshot cursor)
      (exec (deleteBatch env retries batch >>= giveUp) p) := by
  induction retries generalizing batch p with
  | zero =>
    rcases answered : (env.delete batch).perform p.world with ⟨e | report, w⟩
    · rw [exec_bind_error (exec_deleteBatch_error answered)]
      exact .single (.failDelete answered)
    · rw [exec_bind_ok (exec_deleteBatch_end answered (.inl rfl)), exec_giveUp]
      exact ⟨.single (.endDelete answered (.inl rfl)), by simp [givenUp, deleted, Call.isFetch]⟩
  | succ retries ih =>
    rcases answered : (env.delete batch).perform p.world with ⟨e | report, w⟩
    · rw [exec_bind_error (exec_deleteBatch_error answered)]
      exact .single (.failDelete answered)
    by_cases some : failedOf report batch = []
    · rw [exec_bind_ok (exec_deleteBatch_end answered (.inr some)), exec_giveUp]
      exact ⟨.single (.endDelete answered (.inr some)), by simp [givenUp, deleted, Call.isFetch]⟩
    · rw [exec_bind, exec_deleteBatch_repeat answered some, ← exec_bind]
      exact (ih _ _).of_step (.repeatDelete answered some)
        (by simp [repeated, deleted, Call.isFetch])

variable (settings env) in
/-- A page that moves past its cursor leads on to the next. -/
theorem processPage_leads (snapshot : Snapshot) (page : List String) (last : String)
    (p : Progress σ) :
    Leads settings env ⟨.judge snapshot page last, counted env page p⟩
      (fun _ => .fetch snapshot last) (exec (processPage settings env snapshot page) p) := by
  rcases read : Candidate.ofPage settings.tablesDir page with e | cs
  · rw [exec_processPage_malformed read]
    exact .single (.malformedPage read)
  rw [exec_processPage read]
  by_cases some : (snapshot.judge cs).confirmed = []
  · rw [some, exec_deletePage_nil]
    exact ⟨.single (.keepPage read some), by simp [judged, Call.isFetch]⟩
  cases safe : settings.safeMode with
  | true =>
    rw [exec_deletePage_safe some safe]
    exact ⟨.single (.sparePage read some safe), by simp [judged, Call.isFetch]⟩
  | false =>
    rw [exec_deletePage some safe]
    exact (deleteBatch_leads ..).of_step (.confirmPage read some safe)
      (by simp [judged, Call.isFetch])

variable (settings env) in
theorem removeTableDirs_leads (snapshot : Snapshot) (tables : List String) (p : Progress σ) :
    Leads settings env ⟨.clean snapshot tables, p⟩ (fun _ => .done)
      (exec (removeTableDirs env tables) p) := by
  induction tables generalizing p with
  | nil => exact ⟨.single .finish, rfl⟩
  | cons table tables ih =>
    rcases answered : (env.removeTableDir table).perform p.world with ⟨e | removed, w⟩
    · rw [removeTableDirs, exec_bind_error (exec_ask_error answered)]
      exact .single (.failRemove answered)
    rw [removeTableDirs, exec_bind_ok (exec_ask_ok answered)]
    exact (ih (removedDir _)).of_step (.removeDir answered) (by simp [removedDir, Call.isFetch])

variable (settings env) in
/-- Working through the log leads to its end or to a failure, unless all pages that were allowed
have been asked for. -/
theorem processLog_leads (snapshot : Snapshot) (budget : Nat) (cursor : String) (p : Progress σ) :
    match exec (processLog settings env snapshot budget cursor) p with
    | (.ok (), q) =>
      Reaches settings env ⟨.fetch snapshot cursor, p⟩
        ⟨.clean snapshot (q.ledger.removable snapshot.tables snapshot.live),
          { q with phase := .cleaningTableDirs }⟩
    | (.error (.failed cause), q) =>
      Reaches settings env ⟨.fetch snapshot cursor, p⟩ ⟨.failed cause, q⟩
    | (.error .outOfPages, q) =>
      fetches q.calls = fetches p.calls + budget ∧
        ∃ cursor',
          Reaches settings env ⟨.fetch snapshot cursor, p⟩ ⟨.fetch snapshot cursor', q⟩ := by
  induction budget generalizing cursor p with
  | zero => exact ⟨rfl, cursor, .refl⟩
  | succ budget ih =>
    rcases answered : (env.candidates cursor settings.batchSize).perform p.world with ⟨e | page, w⟩
    · rw [exec_processLog_error answered]
      exact .single (.failFetch answered)
    rcases ends : page.getLast? with _ | last
    · rw [exec_processLog_end answered ends]
      obtain rfl := List.getLast?_eq_none_iff.mp ends
      exact .single (.endLog answered)
    by_cases stays : cursor ≠ "" ∧ last ≤ cursor
    · rw [exec_processLog_stall answered ends stays]
      exact .single (.stall answered ends stays)
    rw [exec_processLog_page answered ends stays]
    let q := { p with phase := .fetching }.noted w
      (.candidates cursor settings.batchSize (.ok page))
    have toPage : Reaches settings env ⟨.fetch snapshot cursor, p⟩
        ⟨.judge snapshot page last, counted env page q⟩ :=
      .single (.fetchPage answered ends stays)
    have leads : Leads settings env _ _ (exec (processPage settings env snapshot page) q) :=
      processPage_leads settings env snapshot page last q
    rcases hpage : exec (processPage settings env snapshot page) q with ⟨(cause | _) | _, q'⟩ <;>
      rw [hpage] at leads
    · rw [exec_bind_error hpage]
      exact toPage.trans leads
    · exact leads.elim
    rw [exec_bind_ok hpage]
    have rest := ih last q'
    have toNext := toPage.trans leads.1
    have hfetches : fetches q'.calls = fetches p.calls + 1 := by
      rw [leads.2]
      simp [q, counted, Call.isFetch]
    split at rest
    · exact toNext.trans rest
    · exact toNext.trans rest
    · obtain ⟨hcount, cursor', reaches⟩ := rest
      exact ⟨by omega, cursor', toNext.trans reaches⟩

variable (settings env) in
/-- All steps of a pass lead to its end or to a failure, unless all pages that were allowed have
been asked for. -/
theorem steps_leads (budget : Nat) (p : Progress σ) :
    match exec (steps settings env budget) p with
    | (.ok (), q) => Reaches settings env ⟨.references, p⟩ ⟨.done, q⟩
    | (.error (.failed cause), q) => Reaches settings env ⟨.references, p⟩ ⟨.failed cause, q⟩
    | (.error .outOfPages, q) =>
      fetches q.calls = fetches p.calls + budget ∧
        ∃ snapshot cursor, Reaches settings env ⟨.references, p⟩ ⟨.fetch snapshot cursor, q⟩ := by
  have toLog := readSnapshot_leads settings env p
  rcases hs : exec (readSnapshot settings env) p with ⟨(cause | _) | snapshot, q⟩ <;>
    rw [hs] at toLog
  · rw [steps, exec_bind_error hs]
    exact toLog
  · exact toLog.elim
  rw [steps, exec_bind_ok hs]
  have toEnd := processLog_leads settings env snapshot budget "" q
  rcases hl : exec (processLog settings env snapshot budget "") q with ⟨(cause | _) | ⟨⟩, r⟩ <;>
    rw [hl] at toEnd
  · rw [exec_bind_error hl]
    exact toLog.1.trans toEnd
  · rw [exec_bind_error hl]
    obtain ⟨hcount, cursor, reaches⟩ := toEnd
    exact ⟨by rw [hcount, toLog.2], snapshot, cursor, toLog.1.trans reaches⟩
  rw [exec_bind_ok hl]
  rw [exec_bind_ok (exec_enter r .cleaningTableDirs), exec_bind_ok (exec_get _)]
  have toDone := removeTableDirs_leads settings env snapshot
    (r.ledger.removable snapshot.tables snapshot.live) { r with phase := .cleaningTableDirs }
  rcases hr : exec (removeTableDirs env (r.ledger.removable snapshot.tables snapshot.live))
      { r with phase := .cleaningTableDirs } with ⟨(cause | _) | ⟨⟩, q'⟩ <;> rw [hr] at toDone
  · exact (toLog.1.trans toEnd).trans toDone
  · exact toDone.elim
  · exact (toLog.1.trans toEnd).trans toDone.1

/-! ## Where a run ends -/

/-- A report tells of a pass that has come to a configuration. -/
structure Ends (report : Report σ) (c : Config σ) : Prop where
  calls : report.calls = c.progress.calls
  counters : report.counters = c.progress.counters
  world : report.world = c.progress.world
  done : report.outcome = .done → c.point = .done
  failed : ∀ failure, report.outcome = .failed failure →
    c.point = .failed failure.cause ∧ c.progress.phase = failure.phase
  unfinished : report.outcome = .unfinished → ∃ snapshot cursor, c.point = .fetch snapshot cursor

variable (settings env)

/-- A run of a pass is a way through the machine from its first point, and a run that did not come
to an end has asked for all the pages that it was allowed. -/
theorem exists_reaches_run (budget : Nat) (world : σ) :
    ∃ c, Reaches settings env ⟨.references, { world }⟩ c ∧
      Ends (run settings env budget world) c ∧
      ((run settings env budget world).outcome = .unfinished →
        fetches c.progress.calls = budget) := by
  have leads := steps_leads settings env budget { world }
  rcases h : exec (steps settings env budget) { world } with ⟨(cause | _) | ⟨⟩, q⟩ <;>
    rw [h] at leads <;> rw [exec] at h
  · have hrun : run settings env budget world =
        ⟨.failed ⟨cause, q.phase⟩, q.counters, q.calls, q.world⟩ := by simp only [run, h]
    rw [hrun]
    refine ⟨_, leads, ⟨rfl, rfl, rfl, ?_, ?_, ?_⟩, ?_⟩
    · intro done
      cases done
    · rintro failure ⟨⟩
      exact ⟨rfl, rfl⟩
    · intro unfinished
      cases unfinished
    · intro unfinished
      cases unfinished
  · have hrun : run settings env budget world = ⟨.unfinished, q.counters, q.calls, q.world⟩ := by
      simp only [run, h]
    obtain ⟨hcount, snapshot, cursor, reaches⟩ := leads
    rw [hrun]
    refine ⟨_, reaches, ⟨rfl, rfl, rfl, ?_, ?_, ?_⟩, ?_⟩
    · intro done
      cases done
    · rintro failure ⟨⟩
    · intro _
      exact ⟨snapshot, cursor, rfl⟩
    · intro _
      simpa using hcount
  · have hrun : run settings env budget world = ⟨.done, q.counters, q.calls, q.world⟩ := by
      simp only [run, h]
    rw [hrun]
    refine ⟨_, leads, ⟨rfl, rfl, rfl, ?_, ?_, ?_⟩, ?_⟩
    · intro _
      rfl
    · rintro failure ⟨⟩
    · intro unfinished
      cases unfinished
    · intro unfinished
      cases unfinished

/-- What holds at the start of a pass and is kept by every step holds where a run ends. -/
theorem run_invariant (Inv : Config σ → Prop) (budget : Nat) (world : σ)
    (start : Inv ⟨.references, { world }⟩)
    (step : ∀ c d, Inv c → Step settings env c d → Inv d) :
    ∃ c, Inv c ∧ Ends (run settings env budget world) c := by
  obtain ⟨c, reaches, ends, -⟩ := exists_reaches_run settings env budget world
  refine ⟨c, ?_, ends⟩
  clear ends
  induction reaches with
  | refl => exact start
  | tail _ next ih => exact step _ _ ih next

end Pass

end TabletSweep
