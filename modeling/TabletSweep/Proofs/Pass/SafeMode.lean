import TabletSweep.Proofs.Pass.Interruption
import TabletSweep.Proofs.Pass.Logged

/-!
# Passes that delete nothing

A pass in safe mode goes the way of the pass that deletes. The two are compared while they run side
by side over the same log: after every page they are `Abreast`, although the log of one has lost
what the other has left. What was deleted stands at or before the cursor, and no page shows that
again, so both are served the same pages (`Ahead`).

At the end one has made the calls of the other without the deletions and the removals of
directories, has counted the same but for these, and has failed where the other has failed
(`safe_mode_is_dry_run`).
-/

namespace TabletSweep

variable {σ : Type}

/-- Whether a call leaves log and storage alone. -/
def Call.spares : Call → Bool
  | .delete .. | .removeTableDir .. => false
  | _ => true

/-- The counters without what only deletions and removals of directories add to. -/
def Counters.dry (c : Counters) : Counters :=
  { c with deleted := 0, deleteFailures := 0, deleteRetries := 0, tableDirsRemoved := 0 }

/-- An environment that refuses no deletion and no removal of a directory. A page may be refused,
but whether it is depends only on its cursor and on what is known of the requests for pages before.
That may be their number, or nothing at all; a state is `asked` for it, and each request for a page
takes it to the `next`. -/
structure Steady {κ : Type} (env : Environment σ) (v : LogView σ) (asked : σ → κ) (next : κ → κ)
    (refused : κ → String → Option ServiceError) : Prop where
  candidates : ∀ w cursor limit answer w', v.good w →
    (env.candidates cursor limit).perform w = (answer, w') →
      asked w' = next (asked w) ∧ ∀ e, answer = .error e ↔ refused (asked w) cursor = some e
  delete : ∀ w batch, v.good w → (batch.map (·.literal)).Nodup →
    ∃ report w', (env.delete batch).perform w = (.ok report, w') ∧ asked w' = asked w
  removeTableDir : ∀ w table, v.good w →
    ∃ removed w', (env.removeTableDir table).perform w = (.ok removed, w') ∧ asked w' = asked w
  countCandidates : ∀ w n, v.good w → asked ((env.countCandidates n).run w).2 = asked w
  countInUse : ∀ w n, v.good w → asked ((env.countInUse n).run w).2 = asked w

namespace Pass

open PassM

variable {κ : Type} {settings : Settings} {env : Environment σ} {v : LogView σ} {cap : Nat}
  {asked : σ → κ} {next : κ → κ} {refused : κ → String → Option ServiceError} {log : NameSet}
  {p q : Progress σ} {cursor last : String} {w w' : σ}

/-! ## Side by side -/

/-- Two passes are abreast, the first of which deletes nothing: it has made the calls of the second
but for those that delete, has counted the same but for what they add, and still has the whole
log. -/
structure Abreast (v : LogView σ) (asked : σ → κ) (log : NameSet) (p q : Progress σ) : Prop where
  phase : p.phase = q.phase
  counters : p.counters = q.counters.dry
  calls : p.calls = q.calls.filter Call.spares
  emptied : p.ledger.emptied = .empty
  keeps : v.good p.world ∧ v.log p.world = log
  good : v.good q.world
  asked : asked p.world = asked q.world

/-- A log holds all that follows the cursor. -/
def Ahead (v : LogView σ) (log : NameSet) (cursor : String) (w : σ) : Prop :=
  ∀ x, cursor < x → (x ∈ v.log w ↔ x ∈ log)

theorem Ahead.same (ahead : Ahead v log cursor w) (same : v.Same w w') :
    Ahead v log cursor w' := by
  intro x hx
  rw [same.log]
  exact ahead x hx

theorem Ahead.mono (ahead : Ahead v log cursor w) (beyond : cursor < last) : Ahead v log last w :=
  fun x hx => ahead x (String.lt_trans beyond hx)

section Abreast

variable (abreast : Abreast v asked log p q)
include abreast

/-- A call of both that spares the log. -/
theorem Abreast.noted (call : Call) (same : v.Same p.world w) (same' : v.Same q.world w')
    (hasked : asked w = asked w') (spares : call.spares = true) :
    Abreast v asked log (p.noted w call) (q.noted w' call) where
  phase := abreast.phase
  counters := abreast.counters
  calls := by
    rw [Progress.noted_calls, Progress.noted_calls, List.filter_append, abreast.calls]
    simp [spares]
  emptied := abreast.emptied
  keeps := ⟨same.good, same.log.trans abreast.keeps.2⟩
  good := same'.good
  asked := hasked

theorem Abreast.enter (phase : Phase) :
    Abreast v asked log { p with phase } { q with phase } :=
  ⟨rfl, abreast.counters, abreast.calls, abreast.emptied, abreast.keeps, abreast.good,
    abreast.asked⟩

/-- A call of the second that does not spare the log. -/
theorem Abreast.spared (call : Call) (good : v.good w) (hasked : asked w = asked q.world)
    (removes : call.spares = false) : Abreast v asked log p (q.noted w call) where
  phase := abreast.phase
  counters := abreast.counters
  calls := by
    rw [Progress.noted_calls, List.filter_append, abreast.calls]
    simp [removes]
  emptied := abreast.emptied
  keeps := abreast.keeps
  good := good
  asked := abreast.asked.trans hasked.symm

/-- What the second adds to its ledger, and counts of deletions and removals, does not matter. -/
theorem Abreast.account (q' : Progress σ) (world : q'.world = q.world) (phase : q'.phase = q.phase)
    (calls : q'.calls = q.calls) (counters : q'.counters.dry = q.counters.dry) :
    Abreast v asked log p q' := by
  refine ⟨?_, ?_, ?_, abreast.emptied, abreast.keeps, ?_, ?_⟩
  · rw [phase, abreast.phase]
  · rw [counters, abreast.counters]
  · rw [calls, abreast.calls]
  · rw [world]
    exact abreast.good
  · rw [world, abreast.asked]

variable (logged : Logged env v cap) (steady : Steady env v asked next refused)
include logged steady

/-- Both are served the same page, or refused a page alike. -/
theorem Abreast.fetch (ahead : Ahead v log cursor q.world) (limit : Nat) :
    ∃ answer w w', (env.candidates cursor limit).perform p.world = (answer, w) ∧
      (env.candidates cursor limit).perform q.world = (answer, w') ∧
      Abreast v asked log
        ({ p with phase := .fetching }.noted w (.candidates cursor limit answer))
        ({ q with phase := .fetching }.noted w' (.candidates cursor limit answer)) ∧
      Ahead v log cursor w' ∧ Follows q.calls (.candidates cursor limit answer) := by
  rcases hp : (env.candidates cursor limit).perform p.world with ⟨answer, w⟩
  rcases hq : (env.candidates cursor limit).perform q.world with ⟨answer', w'⟩
  obtain ⟨hasked, hrefused⟩ := steady.candidates _ _ _ _ _ abreast.keeps.1 hp
  obtain ⟨hasked', hrefused'⟩ := steady.candidates _ _ _ _ _ abreast.good hq
  have same := logged.candidates _ _ _ _ _ abreast.keeps.1 hp
  have same' := logged.candidates _ _ _ _ _ abreast.good hq
  -- What follows the cursor is the same in both logs.
  have rest : (v.log p.world).after cursor = (v.log q.world).after cursor := by
    refine eq_of_ascending (NameSet.sorted_after ..) (NameSet.sorted_after ..) fun x => ?_
    rw [NameSet.mem_after, NameSet.mem_after, abreast.keeps.2]
    exact and_congr_left fun hx => (ahead x hx).symm
  have alike : answer' = answer := by
    rw [abreast.asked] at hrefused
    cases answer with
    | error e => exact (hrefused' e).mpr ((hrefused e).mp rfl)
    | ok page =>
      cases answer' with
      | error e => exact ((hrefused e).mpr ((hrefused' e).mp rfl)).symm
      | ok page' =>
        rw [logged.page _ _ _ _ _ abreast.keeps.1 hp, logged.page _ _ _ _ _ abreast.good hq, rest]
  refine ⟨answer, w, w', rfl, alike ▸ rfl, ?_, ahead.same same', ?_⟩
  · exact (abreast.enter .fetching).noted _ same same'
      (hasked.trans (abreast.asked ▸ hasked'.symm)) rfl
  · cases answer with
    | error e => trivial
    | ok page =>
      rw [logged.page _ _ _ _ _ abreast.keeps.1 hp]
      exact follows_take_after ..

/-- A deletion of what stands at or before a cursor takes nothing out of the log behind it. -/
theorem Abreast.delete {batch : List Candidate} (ahead : Ahead v log last q.world)
    (nodup : (batch.map (·.literal)).Nodup) (passed : ∀ c ∈ batch, c.literal ≤ last) :
    ∃ report w', (env.delete batch).perform q.world = (.ok report, w') ∧
      Abreast v asked log p (deleted batch report (q.noted w' (.delete batch (.ok report)))) ∧
      Ahead v log last w' := by
  obtain ⟨report, w', answered, hasked⟩ := steady.delete q.world batch abreast.good nodup
  have drops := logged.delete _ _ _ _ abreast.good nodup answered
  refine ⟨report, w', answered, (abreast.spared _ drops.good hasked rfl).account _ rfl rfl rfl rfl,
    fun x hx => ?_⟩
  rw [drops.log, NameSet.mem_eraseAll, ← ahead x hx]
  refine and_iff_left fun mem => ?_
  obtain ⟨c, hc, rfl⟩ := List.mem_map.mp mem
  exact absurd hx (String.not_lt.mpr (passed c (List.mem_filter.mp hc).1))

theorem Abreast.deleteBatch (retries : Nat) {batch : List Candidate}
    (ahead : Ahead v log last q.world) (nodup : (batch.map (·.literal)).Nodup)
    (passed : ∀ c ∈ batch, c.literal ≤ last) :
    ∃ failed q', exec (deleteBatch env retries batch) q = (.ok failed, q') ∧
      Abreast v asked log p q' ∧ Ahead v log last q'.world := by
  induction retries generalizing batch q with
  | zero =>
    obtain ⟨report, w', answered, abreast', ahead'⟩ :=
      abreast.delete logged steady ahead nodup passed
    exact ⟨_, _, exec_deleteBatch_end answered (.inl rfl), abreast', ahead'⟩
  | succ retries ih =>
    obtain ⟨report, w', answered, abreast', ahead'⟩ :=
      abreast.delete logged steady ahead nodup passed
    by_cases none : failedOf report batch = []
    · exact ⟨_, _, exec_deleteBatch_end answered (.inr none), abreast', ahead'⟩
    rw [exec_deleteBatch_repeat answered none]
    refine ih ?_ ahead' ((List.filter_sublist.map _).nodup nodup) fun c hc => ?_
    · exact abreast'.account _ rfl rfl rfl rfl
    · exact passed c (List.mem_filter.mp hc).1

variable (settings) in
/-- One spares what the other deletes of what is confirmed. -/
theorem Abreast.deletePage {confirmed : List Candidate} (ahead : Ahead v log last q.world)
    (nodup : (confirmed.map (·.literal)).Nodup) (passed : ∀ c ∈ confirmed, c.literal ≤ last) :
    ∃ p' q', exec (deletePage { settings with safeMode := true } env confirmed) p = (.ok (), p') ∧
      exec (deletePage { settings with safeMode := false } env confirmed) q = (.ok (), q') ∧
      Abreast v asked log p' q' ∧ Ahead v log last q'.world := by
  by_cases some : confirmed = []
  · subst some
    exact ⟨p, q, rfl, rfl, abreast, ahead⟩
  have entered := abreast.enter .deleting
  obtain ⟨failed, q', hq, abreast', ahead'⟩ :=
    entered.deleteBatch logged steady settings.onFailure.retries ahead nodup passed
  have left := abreast'.account (givenUp failed q') rfl rfl rfl rfl
  refine ⟨_, givenUp failed q', exec_deletePage_safe some rfl, ?_, ?_, ahead'⟩
  · rw [exec_deletePage some rfl, exec_bind_ok hq, exec_giveUp]
  · exact ⟨left.phase, left.counters, left.calls, TableLedger.emptied_keptAll.trans left.emptied,
      left.keeps, left.good, left.asked⟩

theorem Abreast.counted (page : List String) :
    Abreast v asked log (Pass.counted env page p) (Pass.counted env page q) := by
  have noted := abreast.noted (.countCandidates page.length)
    (logged.countCandidates p.world page.length abreast.keeps.1)
    (logged.countCandidates q.world page.length abreast.good)
    (by rw [steady.countCandidates _ _ abreast.keeps.1, steady.countCandidates _ _ abreast.good,
      abreast.asked]) rfl
  refine ⟨rfl, ?_, noted.calls, noted.emptied, noted.keeps, noted.good, noted.asked⟩
  simp only [Pass.counted, abreast.counters]
  rfl

theorem Abreast.judged (verdict : Verdict) :
    Abreast v asked log (Pass.judged env verdict p) (Pass.judged env verdict q) := by
  have noted := abreast.noted (.countInUse verdict.kept.length)
    (logged.countInUse p.world verdict.kept.length abreast.keeps.1)
    (logged.countInUse q.world verdict.kept.length abreast.good)
    (by rw [steady.countInUse _ _ abreast.keeps.1, steady.countInUse _ _ abreast.good,
      abreast.asked]) rfl
  refine ⟨noted.phase, ?_, noted.calls, TableLedger.emptied_keptAll.trans noted.emptied,
    noted.keeps, noted.good, noted.asked⟩
  simp only [Pass.judged, abreast.counters]
  rfl

variable (settings) in
/-- Both work through a page alike, or fail alike because it cannot be read. -/
theorem Abreast.processPage (snapshot : Snapshot) {page : List String}
    (ahead : Ahead v log last q.world) (ascending : page.Pairwise (· < ·))
    (hlast : page.getLast? = some last) :
    ∃ result p' q',
      exec (processPage { settings with safeMode := true } env snapshot page) p = (result, p') ∧
      exec (processPage { settings with safeMode := false } env snapshot page) q = (result, q') ∧
      Abreast v asked log p' q' ∧ Ahead v log last q'.world := by
  have counts := abreast.counted logged steady page
  have ahead' : Ahead v log last (Pass.counted env page q).world :=
    ahead.same (logged.countCandidates q.world page.length abreast.good)
  rcases read : Candidate.ofPage settings.tablesDir page with e | cs
  · refine ⟨.error (.failed (.malformedPath e)), Pass.counted env page p, Pass.counted env page q,
      ?_, ?_, counts, ahead'⟩
    · exact exec_processPage_malformed read
    · exact exec_processPage_malformed read
  have judges := counts.judged logged steady (snapshot.judge cs)
  have ahead'' := ahead'.same (logged.countInUse _ (snapshot.judge cs).kept.length counts.good)
  obtain ⟨rfl, -⟩ := ofPage_eq_ok_iff.mp read
  have sub : (snapshot.judge cs).confirmed.Sublist cs := by
    rw [Snapshot.judge_confirmed]
    exact List.filter_sublist
  obtain ⟨p', q', hp, hq, deletes⟩ := judges.deletePage settings logged steady ahead''
    ((sub.map _).nodup (ascending.imp fun hlt => String.ne_of_lt hlt))
    fun c hc => le_getLast_of_ascending ascending hlast (List.mem_map_of_mem (sub.subset hc))
  have read' : ∀ safeMode, Candidate.ofPage { settings with safeMode }.tablesDir _ = .ok cs :=
    fun _ => read
  exact ⟨.ok (), p', q', (exec_processPage (read' true)).trans hp,
    (exec_processPage (read' false)).trans hq, deletes⟩

variable (settings) in
/-- Both work through the log alike, and stop alike if they do. -/
theorem Abreast.processLog (snapshot : Snapshot) (budget : Nat)
    (ahead : Ahead v log cursor q.world) :
    ∃ result p' q',
      exec (processLog { settings with safeMode := true } env snapshot budget cursor) p =
        (result, p') ∧
      exec (processLog { settings with safeMode := false } env snapshot budget cursor) q =
        (result, q') ∧
      Abreast v asked log p' q' := by
  induction budget generalizing cursor p q with
  | zero => exact ⟨_, p, q, rfl, rfl, abreast⟩
  | succ budget ih =>
    obtain ⟨answer, w, w', hp, hq, fetched, ahead', follows⟩ :=
      abreast.fetch logged steady ahead settings.batchSize
    have hp : ∀ safeMode, (env.candidates cursor { settings with safeMode }.batchSize).perform
      p.world = (answer, w) := fun _ => hp
    have hq : ∀ safeMode, (env.candidates cursor { settings with safeMode }.batchSize).perform
      q.world = (answer, w') := fun _ => hq
    rcases answer with e | page
    · exact ⟨_, _, _, exec_processLog_error (hp true), exec_processLog_error (hq false), fetched⟩
    rcases ends : page.getLast? with _ | last
    · exact ⟨_, _, _, exec_processLog_end (hp true) ends, exec_processLog_end (hq false) ends,
        fetched⟩
    by_cases stays : cursor ≠ "" ∧ last ≤ cursor
    · exact ⟨_, _, _, exec_processLog_stall (hp true) ends stays,
        exec_processLog_stall (hq false) ends stays, fetched⟩
    rw [exec_processLog_page (hp true) ends stays, exec_processLog_page (hq false) ends stays]
    obtain ⟨ascending, beyond⟩ := follows
    obtain ⟨result, p', q', hp', hq', worked, ahead''⟩ :=
      fetched.processPage settings logged steady snapshot
        (ahead'.mono (beyond last (List.mem_of_getLast? ends))) ascending ends
    rcases result with stop | ⟨⟩
    · exact ⟨_, p', q', exec_bind_error hp', exec_bind_error hq', worked⟩
    · obtain ⟨result, p'', q'', hp'', hq'', worked'⟩ := ih worked ahead''
      exact ⟨result, p'', q'', (exec_bind_ok hp').trans hp'', (exec_bind_ok hq').trans hq'',
        worked'⟩

/-- Removing directories is invisible to the pass that removes none. -/
theorem Abreast.removeTableDirs (tables : List String) :
    ∃ q', exec (removeTableDirs env tables) q = (.ok (), q') ∧ Abreast v asked log p q' := by
  induction tables generalizing q with
  | nil => exact ⟨q, rfl, abreast⟩
  | cons table tables ih =>
    obtain ⟨removed, w', answered, hasked⟩ := steady.removeTableDir q.world table abreast.good
    have same := logged.removeTableDir _ _ _ _ abreast.good answered
    have noted := abreast.spared (.removeTableDir table (.ok removed)) same.good hasked rfl
    obtain ⟨q', hq', abreast'⟩ := ih (noted.account (removedDir (q.noted w' _)) rfl rfl rfl rfl)
    refine ⟨q', ?_, abreast'⟩
    rw [Pass.removeTableDirs, exec_bind_ok (exec_ask_ok answered)]
    exact hq'

end Abreast

/-! ## From start to end -/

section Steps

variable {world : σ} (logged : Logged env v cap)
include logged

/-- At the start both passes are one. -/
theorem abreast_readSnapshot (settings : Settings) (good : v.good world) :
    Abreast v asked (v.log world) (exec (readSnapshot settings env) { world }).2
      (exec (readSnapshot settings env) { world }).2 := by
  refine exec_readSnapshot_keeps (fun q => Abreast v asked (v.log world) q q) ?_ ?_ ?_ ?_
  · intro p answer w read abreast answered
    have same := logged.references _ _ _ abreast.good answered
    exact abreast.noted _ same same rfl rfl
  · intro p answer w read abreast answered
    have same := logged.blips _ _ _ abreast.good answered
    exact abreast.noted _ same same rfl rfl
  · intro p answer w abreast answered
    have same := logged.tableIds _ _ _ abreast.good answered
    exact abreast.noted _ same same rfl rfl
  · exact ⟨rfl, rfl, rfl, rfl, ⟨good, rfl⟩, good, rfl⟩

variable (settings) in
/-- All steps of the two passes end alike. -/
theorem abreast_steps (steady : Steady env v asked next refused) (budget : Nat) (good : v.good world) :
    ∃ result p q,
      exec (steps { settings with safeMode := true } env budget) { world } = (result, p) ∧
      exec (steps { settings with safeMode := false } env budget) { world } = (result, q) ∧
      Abreast v asked (v.log world) p q := by
  have start : Abreast v asked (v.log world) _ _ := abreast_readSnapshot logged settings good
  rcases hs : exec (readSnapshot settings env) { world } with ⟨stop | snapshot, p⟩ <;>
    rw [hs] at start
  all_goals have hs : ∀ safeMode, exec (readSnapshot { settings with safeMode } env) { world } =
    _ := fun _ => hs
  · exact ⟨.error stop, p, p, exec_bind_error (hs true), exec_bind_error (hs false), start⟩
  have ahead : Ahead v (v.log world) "" p.world := fun x _ => by rw [start.keeps.2]
  obtain ⟨result, p', q', hp, hq, worked⟩ :=
    start.processLog settings logged steady snapshot budget ahead
  rcases result with stop | ⟨⟩
  · refine ⟨.error stop, p', q', ?_, ?_, worked⟩
    · exact (exec_bind_ok (hs true)).trans (exec_bind_error hp)
    · exact (exec_bind_ok (hs false)).trans (exec_bind_error hq)
  -- A pass that deletes nothing has no table whose directory could go.
  have none : p'.ledger.removable snapshot.tables snapshot.live = [] := by
    rw [TableLedger.removable, worked.emptied]
    rfl
  obtain ⟨q'', hq'', cleaned⟩ := (worked.enter .cleaningTableDirs).removeTableDirs logged steady
    (q'.ledger.removable snapshot.tables snapshot.live)
  refine ⟨.ok (), { p' with phase := .cleaningTableDirs }, q'', ?_, ?_, cleaned⟩
  · rw [steps, exec_bind_ok (hs true), exec_bind_ok hp, exec_bind_ok (exec_enter ..),
      exec_bind_ok (exec_get _)]
    change exec (removeTableDirs env (p'.ledger.removable snapshot.tables snapshot.live)) _ = _
    rw [none]
    rfl
  · rw [steps, exec_bind_ok (hs false), exec_bind_ok hq, exec_bind_ok (exec_enter ..),
      exec_bind_ok (exec_get _)]
    exact hq''

/-- Over a log that is kept in order, in an environment that refuses no deletion and no removal, a
pass in safe mode ends as the pass that deletes does, for the same cause and in the same phase if
they fail. It makes the same calls but for deletions and removals, so it is served the same pages
and tells the same numbers; it counts the same but for what these calls add; and it leaves the log
as it was. -/
theorem safe_mode_is_dry_run (steady : Steady env v asked next refused) {dry wet : Settings}
    (twins : dry = { wet with safeMode := true }) (deletes : wet.safeMode = false) (budget : Nat)
    (world : σ) (good : v.good world) :
    (run dry env budget world).outcome = (run wet env budget world).outcome ∧
      (run dry env budget world).calls =
        (run wet env budget world).calls.filter Call.spares ∧
      (∀ call ∈ (run dry env budget world).calls, call.spares = true) ∧
      (run dry env budget world).counters = (run wet env budget world).counters.dry ∧
      v.log (run dry env budget world).world = v.log world ∧
      ((v.log world).toList.length < budget →
        (run dry env budget world).outcome ≠ .unfinished) := by
  obtain ⟨result, p, q, hp, hq, abreast⟩ := abreast_steps wet logged steady budget good
  have same : wet = { wet with safeMode := false } := by
    rw [← deletes]
  rw [← twins] at hp
  rw [← same] at hq
  have finished := finished_of_draws (draws_run dry logged budget good)
  have spares : ∀ call ∈ p.calls, call.spares = true := by
    rw [abreast.calls]
    exact fun call mem => (List.mem_filter.mp mem).2
  rcases result with (cause | _) | ⟨⟩
  · rw [run_of_failed hp] at finished ⊢
    rw [run_of_failed hq]
    refine ⟨?_, abreast.calls, spares, abreast.counters, abreast.keeps.2, finished⟩
    rw [abreast.phase]
  · rw [run_of_outOfPages hp] at finished ⊢
    rw [run_of_outOfPages hq]
    exact ⟨rfl, abreast.calls, spares, abreast.counters, abreast.keeps.2, finished⟩
  · rw [run_of_ok hp] at finished ⊢
    rw [run_of_ok hq]
    exact ⟨rfl, abreast.calls, spares, abreast.counters, abreast.keeps.2, finished⟩

end Steps

/-! ## Environments that refuse a page, or none -/

/-- An orderly environment refuses nothing, so nothing need be known of the requests before. -/
theorem steady_of_orderly {v : View σ} {entries : List Entry} {blips ids : List String}
    (orderly : Orderly env v cap entries blips ids) :
    Steady env v.logView (fun _ => ()) id fun _ _ => none where
  candidates w cursor limit answer w' good answered := by
    obtain ⟨w₁, performed, -⟩ := orderly.candidates w cursor limit good
    cases performed.symm.trans answered
    simp
  delete w batch good nodup := by
    obtain ⟨report, w', performed, -⟩ := orderly.delete w batch good nodup
    exact ⟨report, w', performed, rfl⟩
  removeTableDir w table good := by
    obtain ⟨removed, w', performed, -⟩ := orderly.removeTableDir w table good
    exact ⟨removed, w', performed, rfl⟩
  countCandidates _ _ _ := rfl
  countInUse _ _ _ := rfl

section Refusing

open Simulation

/-- The environment of tame worlds refuses nothing. -/
theorem environment_steady (cap : Nat) (entries : List Entry) (blips ids : List String) :
    Steady environment (tameView cap entries blips ids).logView (fun _ => ()) id fun _ _ => none :=
  steady_of_orderly (environment_orderly cap entries blips ids)

variable {α : Type} {outage : Outage} {request : Request} {action : Action σ α} {s s' : σ × Nat}
  {answer : Except ServiceError α}

variable (v) in
/-- What is seen of a log in states that also count requests. -/
def countingView : LogView (σ × Nat) := ⟨fun s => v.good s.1, fun s => v.log s.1⟩

/-- A request that is not the one of the outage is answered. -/
theorem perform_refuse (answered : ¬(request = outage.request ∧ s.2 = outage.number)) :
    (refuse outage request action).perform s = ((action.perform s.1).1, (action.perform s.1).2,
      if request = outage.request then s.2 + 1 else s.2) := by
  change (if request = outage.request ∧ s.2 = outage.number then _ else _) = _
  rw [if_neg answered]
  rfl

theorem perform_refused (refused : request = outage.request ∧ s.2 = outage.number) :
    (refuse outage request action).perform s = (.error outage.error, s.1, s.2 + 1) := by
  change (if request = outage.request ∧ s.2 = outage.number then _ else _) = _
  rw [if_pos refused]

/-- A request that leaves the log as it is does so too where it may be refused. -/
theorem same_of_refuse (good : v.good s.1)
    (same : ∀ answer w', action.perform s.1 = (answer, w') → v.Same s.1 w')
    (answered : (refuse outage request action).perform s = (answer, s')) :
    (countingView v).Same s s' := by
  rcases refuse_perform answered with performed | ⟨-, -, unchanged⟩
  · exact ⟨(same _ _ performed).good, (same _ _ performed).log⟩
  · refine ⟨?_, congrArg v.log unchanged⟩
    change v.good s'.1
    rw [unchanged]
    exact good

/-- A log is kept in order no less if a request is refused. -/
theorem logged_refusing (logged : Logged env v cap) (outage : Outage) :
    Logged (refusing outage env) (countingView v) cap where
  references s answer s' good :=
    same_of_refuse good fun _ _ => logged.references _ _ _ good
  blips s answer s' good := same_of_refuse good fun _ _ => logged.blips _ _ _ good
  tableIds s answer s' good := same_of_refuse good fun _ _ => logged.tableIds _ _ _ good
  candidates s cursor limit answer s' good :=
    same_of_refuse good fun _ _ => logged.candidates _ _ _ _ _ good
  page s cursor limit page s' good answered := by
    rcases refuse_perform answered with performed | ⟨-, refused, -⟩
    · exact logged.page _ _ _ _ _ good performed
    · cases refused
  delete s batch report s' good nodup answered := by
    rcases refuse_perform answered with performed | ⟨-, refused, -⟩
    · have drops := logged.delete _ _ _ _ good nodup performed
      exact ⟨drops.good, drops.log⟩
    · cases refused
  removeTableDir s table answer s' good :=
    same_of_refuse good fun _ _ => logged.removeTableDir _ _ _ _ good
  countCandidates s n good :=
    ⟨(logged.countCandidates s.1 n good).good, (logged.countCandidates s.1 n good).log⟩
  countInUse s n good := ⟨(logged.countInUse s.1 n good).good, (logged.countInUse s.1 n good).log⟩

/-- Where an otherwise orderly environment refuses one page, no deletion is refused. -/
theorem steady_refusing {v : View σ} {entries : List Entry} {blips ids : List String}
    (orderly : Orderly env v cap entries blips ids) (page : outage.request = .candidates) :
    Steady (refusing outage env) (countingView v.logView) Prod.snd (· + 1)
      fun n _ => if n = outage.number then some outage.error else none where
  candidates s cursor limit answer s' good answered := by
    obtain ⟨w', performed, -⟩ := orderly.candidates s.1 cursor limit good
    by_cases number : s.2 = outage.number
    · cases (perform_refused ⟨page.symm, number⟩).symm.trans answered
      simp [number]
    · cases (perform_refuse fun h => number h.2).symm.trans answered
      simp [number, performed, page]
  delete s batch good nodup := by
    obtain ⟨report, w', performed, -⟩ := orderly.delete s.1 batch good nodup
    refine ⟨report, (w', s.2), (perform_refuse (by simp [page])).trans ?_, rfl⟩
    rw [performed, if_neg (by simp [page])]
  removeTableDir s table good := by
    obtain ⟨removed, w', performed, -⟩ := orderly.removeTableDir s.1 table good
    refine ⟨removed, (w', s.2), (perform_refuse (by simp [page])).trans ?_, rfl⟩
    rw [performed, if_neg (by simp [page])]
  countCandidates _ _ _ := rfl
  countInUse _ _ _ := rfl

end Refusing

section Rehearsal

open Simulation

/-- A log with a file in use, a file whose deletion fails once, and the tablet directory of a
dropped table, each on a page of its own. -/
def rehearsedWorld : World where
  log := ⟨["1/t-1/A.rf", "1/t-1/B.rf", "4/t-0"], by decide +kernel⟩
  references := [.ofFile "1" none "../1/t-1/A.rf"]
  tableIds := ["1"]
  pageCap := some 1
  deleteFailures := [("1/t-1/B.rf", 1)]

/-- The third page is refused. -/
def thirdPage : Outage := ⟨.candidates, 2, .unavailable "log"⟩

/-- The fifth page, to which no pass gets, is refused. -/
def fifthPage : Outage := ⟨.candidates, 4, .unavailable "log"⟩

/-- The settings of a pass that repeats a deletion once, but in safe mode. -/
def rehearsal : Settings := { batchSize := 3, onFailure := .retry 1, safeMode := true }

/-- A pass in safe mode fails at the third page as the one that deletes does. Where both are done it
leaves the log as it was, while the other leaves only the file in use. -/
theorem rehearsal_foretells_pass :
    (run rehearsal (refusing thirdPage environment) 9 (rehearsedWorld, 0)).outcome =
        .failed ⟨.environment .candidates (.unavailable "log"), .fetching⟩ ∧
      pages (run rehearsal (refusing fifthPage environment) 9 (rehearsedWorld, 0)).calls =
        [["1/t-1/A.rf"], ["1/t-1/B.rf"], ["4/t-0"], []] ∧
      (run rehearsal (refusing fifthPage environment) 9 (rehearsedWorld, 0)).counters.confirmed =
        2 ∧
      (run rehearsal (refusing fifthPage environment) 9 (rehearsedWorld, 0)).world.1.log =
        rehearsedWorld.log ∧
      (run repeatOnce (refusing fifthPage environment) 9 (rehearsedWorld, 0)).world.1.log.toList =
        ["1/t-1/A.rf"] := by
  have orderly := environment_orderly 1 [.ofFile "1" none "../1/t-1/A.rf"] [] ["1"]
  have tame : rehearsedWorld.Tame 1 [.ofFile "1" none "../1/t-1/A.rf"] [] ["1"] :=
    ⟨rfl, rfl, rfl, rfl, rfl, rfl, rfl, rfl, rfl, rfl, rfl, rfl⟩
  have twins : rehearsal = { repeatOnce with safeMode := true } := rfl
  obtain ⟨fails, -⟩ := safe_mode_is_dry_run (logged_refusing orderly.logged thirdPage)
    (steady_refusing orderly rfl) twins rfl 9 (rehearsedWorld, 0) tame
  obtain ⟨-, calls, -, counters, log, -⟩ := safe_mode_is_dry_run
    (logged_refusing orderly.logged fifthPage) (steady_refusing orderly rfl) twins rfl 9
    (rehearsedWorld, 0) tame
  simp only [countingView, View.logView, tameView] at log
  rw [fails, calls, counters]
  refine ⟨?_, ?_, ?_, log, ?_⟩ <;> decide +kernel

end Rehearsal

end Pass

end TabletSweep
