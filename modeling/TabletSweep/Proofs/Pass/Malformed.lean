import TabletSweep.Proofs.Faults
import TabletSweep.Proofs.Pass.Logged
import TabletSweep.Proofs.Pass.TableDirs
import TabletSweep.Proofs.Simulation

/-!
# Passes that come upon something that cannot be read

A page is read as a whole before anything is done about it. If one of its texts has no key then the
pass fails for the first such text, and has done what the pass would have done that is cut off
before the page (`exists_cut_of_malformed`): the page is counted and that is all. A scan of the
snapshot is read item by item, and the first item at fault fails the pass before anything was
requested but scans.

The two are put together in `malformed_input_stops_pass`.
-/

namespace TabletSweep

/-- The part of the snapshot that a call asks for is missing for the cause: the call failed, or the
first item at fault in its answer is at fault for the cause, and nothing behind that item was
read. -/
def Call.StopsFor (settings : Settings) (cause : Cause) : Call → Prop
  | .references (.error e) read => read = 0 ∧ cause = .environment .references e
  | .references (.ok items) read =>
    ∃ n, read = n + 1 ∧ FirstFault (itemFault .references (entryFault settings)) items n cause
  | .blips (.error e) read => read = 0 ∧ cause = .environment .blips e
  | .blips (.ok items) read =>
    ∃ n, read = n + 1 ∧ FirstFault (itemFault .blips (blipFault settings)) items n cause
  | .tableIds (.error e) => cause = .environment .tableIds e
  | _ => False

/-- A call does not serve a page with a text that has no key. -/
def Call.Legible (settings : Settings) : Call → Prop
  | .candidates _ _ (.ok page) =>
    ∀ x ∈ page, ∃ key, Key.ofPath settings.tablesDir .any x = .ok key
  | _ => True

namespace Pass

open PassM

variable {σ : Type} {settings : Settings} {env : Environment σ} {snapshot : Snapshot}
  {rounds : List Round} {round : Round} {cursor : String} {tables : List String}
  {calls before after : List Call} {page : List String} {limit : Nat} {outcome : Outcome}

/-! ## Snapshots that cannot be read -/

theorem references_stop {answer : Except ServiceError (Scan Entry)} {read : Nat} {cause : Cause}
    (stops : readAnswer .references (takeEntry settings) .empty answer = (read, .error cause)) :
    (Call.references answer read).StopsFor settings cause := by
  cases answer with
  | error e =>
    cases stops
    exact ⟨rfl, rfl⟩
  | ok items => exact readItems_eq_error stops

theorem blips_stop {answer : Except ServiceError (Scan String)} {read : Nat} {cause : Cause}
    (stops : readAnswer .blips (takeBlip settings) .empty answer = (read, .error cause)) :
    (Call.blips answer read).StopsFor settings cause := by
  cases answer with
  | error e =>
    cases stops
    exact ⟨rfl, rfl⟩
  | ok items => exact readItems_eq_error stops

/-- A call for a part of the snapshot that fails is the last call of the pass, and all calls before
it ask for parts of the snapshot. -/
theorem Course.of_snapshot_failure (course : Course settings outcome calls) {call : Call}
    (mem : call ∈ calls) (part : call.readsSnapshot = true) (fails : call.Fails settings) :
    (∀ other ∈ calls, other.readsSnapshot = true) ∧ calls.getLast? = some call ∧
      ∃ cause, call.StopsFor settings cause ∧ outcome = .failed ⟨cause, .fetching⟩ := by
  -- No call fails but the last, so a course that has its snapshot does not have such a call.
  have excluded : ∀ {init : List Call} {last : Call}, Smooth settings init →
      last.readsSnapshot = false → call ∉ init ++ [last] := by
    intro init last smooth other mem
    rcases List.mem_append.mp mem with mem | mem
    · exact smooth call mem fails
    · obtain rfl := List.mem_singleton.mp mem
      rw [part] at other
      cases other
  cases course with
  | failReferences stops =>
    obtain rfl := List.mem_singleton.mp mem
    exact ⟨by simp [Call.readsSnapshot], rfl, _, references_stop stops, rfl⟩
  | failBlips gathered stops =>
    obtain rfl | mem := List.mem_cons.mp mem
    · exact absurd fails (references_readable gathered)
    obtain rfl := List.mem_singleton.mp mem
    exact ⟨by simp [Call.readsSnapshot], rfl, _, blips_stop stops, rfl⟩
  | failTableIds gathered gathered' =>
    obtain rfl | mem := List.mem_cons.mp mem
    · exact absurd fails (references_readable gathered)
    obtain rfl | mem := List.mem_cons.mp mem
    · exact absurd fails (blips_readable gathered')
    obtain rfl := List.mem_singleton.mp mem
    exact ⟨by simp [Call.readsSnapshot], rfl, _, rfl, rfl⟩
  | unfinished worked => exact absurd fails (worked.smooth call mem)
  | failFetch worked | stall worked => exact absurd mem (excluded worked.smooth rfl)
  | malformedPage worked =>
    rw [show ∀ (x y : Call), [x, y] = [x] ++ [y] from fun _ _ => rfl, ← List.append_assoc] at mem
    refine absurd mem (excluded (smooth_append.mpr ⟨worked.smooth, ?_⟩) rfl)
    simp [Smooth, Call.Fails]
  | failDelete worked =>
    exact absurd mem (excluded (smooth_append.mpr ⟨worked.smooth, smooth_round⟩) rfl)
  | failRemove cleaned => exact absurd mem (excluded cleaned.smooth rfl)
  | done cleaned => exact absurd fails (cleaned.smooth call mem)

/-- Nothing is counted before a pass has asked for all parts of its snapshot. -/
theorem counters_of_readsSnapshot (settings : Settings) (env : Environment σ) (budget : Nat)
    (world : σ) (parts : ∀ call ∈ (run settings env budget world).calls,
      call.readsSnapshot = true) : (run settings env budget world).counters = {} := by
  let Uncounted (c : Config σ) : Prop :=
    (∀ call ∈ c.progress.calls, call.readsSnapshot = true) → c.progress.counters = {}
  have kept : ∀ c d, Uncounted c → Step settings env c d → Uncounted d := by
    intro c d uncounted step parts
    -- What changes a counter makes a call that asks for no part of the snapshot.
    cases step with
    | readReferences | failReferences | readBlips | failBlips | readTableIds | failTableIds =>
      exact uncounted (List.forall_mem_append.mp parts).1
    | malformedPage | finish => exact uncounted parts
    | fetchPage | stall | failFetch | endLog | keepPage | sparePage | confirmPage | failDelete
    | endDelete | repeatDelete | removeDir | failRemove =>
      cases parts _ (List.mem_append_right _ (List.mem_singleton_self _))
  obtain ⟨c, uncounted, ends⟩ :=
    run_invariant settings env Uncounted budget world (fun _ => rfl) kept
  rw [ends.calls] at parts
  exact ends.counters.trans (uncounted parts)

/-! ## Pages that cannot be read -/

theorem legible_round (read : Candidate.ofPage settings.tablesDir round.page = .ok round.candidates)
    (call : Call) (mem : call ∈ round.calls settings snapshot cursor) : call.Legible settings := by
  obtain ⟨hpage, keys⟩ := ofPage_eq_ok_iff.mp read
  refine Round.forall_calls.mpr ⟨fun x hx => ?_, trivial, trivial, fun _ _ => trivial⟩ call mem
  rw [← hpage] at hx
  obtain ⟨c, hc, rfl⟩ := List.mem_map.mp hx
  exact ⟨c.key, keys c hc⟩

theorem Worked.legible (worked : Worked settings snapshot rounds cursor calls) :
    ∀ call ∈ calls, call.Legible settings := by
  induction worked with
  | start => simp [Call.Legible]
  | round _ _ _ complete ih =>
    exact List.forall_mem_append.mpr ⟨ih, legible_round complete.read⟩

theorem Cleaned.legible (cleaned : Cleaned settings snapshot rounds tables calls) :
    ∀ call ∈ calls, call.Legible settings := by
  induction cleaned with
  | start worked => exact List.forall_mem_append.mpr ⟨worked.legible, by simp [Call.Legible]⟩
  | remove _ _ ih => exact List.forall_mem_append.mpr ⟨ih, by simp [Call.Legible]⟩

/-- What stands in a list made of two, but not in the first of them, stands behind that one. -/
theorem exists_between_of_not_mem {α : Type} {as bs start rest : List α} {x : α}
    (h : as ++ bs = start ++ x :: rest) (hx : x ∉ as) :
    ∃ between, start = as ++ between ∧ bs = between ++ x :: rest := by
  rcases List.append_eq_append_iff.mp h with behind | ⟨common, hstart, hrest⟩
  · exact behind
  cases common with
  | nil => exact ⟨[], by simpa using hstart.symm, hrest.symm⟩
  | cons y common =>
    obtain ⟨rfl, -⟩ := List.cons.inj hrest
    exact absurd (hstart ▸ List.mem_append_right start (List.mem_cons_self ..)) hx

/-- A page that moves past its cursor and cannot be read is the last of its pass, and the pass fails
at it. -/
theorem Course.of_illegible (course : Course settings outcome calls)
    (split : calls = before ++ .candidates cursor limit (.ok page) :: after)
    (moves : ∀ last, page.getLast? = some last → ¬(cursor ≠ "" ∧ last ≤ cursor))
    (illegible : ¬(Call.candidates cursor limit (.ok page)).Legible settings) :
    after = [.countCandidates page.length] ∧ removals calls = [] ∧
      ∃ e, Candidate.ofPage settings.tablesDir page = .error e ∧
        outcome = .failed ⟨.malformedPath e, .reconciling⟩ := by
  have mem : .candidates cursor limit (.ok page) ∈ calls := by
    rw [split]
    exact List.mem_append_right _ (List.mem_cons_self ..)
  -- On all other courses either the page is legible, or there is no such page.
  cases course with
  | failReferences | failBlips | failTableIds => simp at mem
  | unfinished worked => exact absurd (worked.legible _ mem) illegible
  | failFetch worked =>
    exact absurd (List.forall_mem_append.mpr ⟨worked.legible, by simp [Call.Legible]⟩ _ mem)
      illegible
  | stall worked ends stays =>
    rcases List.mem_append.mp mem with mem | mem
    · exact absurd (worked.legible _ mem) illegible
    · obtain ⟨rfl, -, rfl⟩ : _ ∧ _ ∧ _ := by simpa using List.mem_singleton.mp mem
      exact absurd stays (moves _ ends)
  | @malformedPage snapshot rounds cursor' worked_calls page' last e worked ends moves' read =>
    obtain ⟨between, rfl, rest⟩ :=
      exists_between_of_not_mem split fun mem => illegible (worked.legible _ mem)
    obtain rfl : between = [] := by
      match between, rest with
      | [], _ => rfl
      | [_], rest | _ :: _ :: _, rest => simp at rest
    obtain ⟨same, rfl⟩ := List.cons.inj rest
    cases same
    refine ⟨rfl, ?_, e, read, rfl⟩
    rw [removals_append, removals_worked worked]
    rfl
  | failDelete worked ends moves' deleting =>
    refine absurd (List.forall_mem_append.mpr ⟨List.forall_mem_append.mpr
      ⟨worked.legible, legible_round deleting.read⟩, by simp [Call.Legible]⟩ _ mem) illegible
  | failRemove cleaned =>
    exact absurd (List.forall_mem_append.mpr ⟨cleaned.legible, by simp [Call.Legible]⟩ _ mem)
      illegible
  | done cleaned => exact absurd (cleaned.legible _ mem) illegible

/-! ## The pass that is cut off before a page -/

section Cut

variable {p q : Progress σ} {budget : Nat} {e : PathError}

/-- Reading the snapshot is fetching, even where it fails. -/
theorem phase_exec_readSnapshot (settings : Settings) (env : Environment σ) (p : Progress σ) :
    (exec (readSnapshot settings env) p).2.phase = p.phase :=
  exec_readSnapshot_keeps (fun q => q.phase = p.phase) (fun _ _ _ _ same _ => same)
    (fun _ _ _ _ same _ => same) (fun _ _ _ same _ => same) rfl

theorem phase_exec_removeTableDirs (env : Environment σ) (tables : List String)
    (p : Progress σ) : (exec (removeTableDirs env tables) p).2.phase = p.phase := by
  induction tables generalizing p with
  | nil => rfl
  | cons table tables ih =>
    rcases answered : (env.removeTableDir table).perform p.world with ⟨e | removed, w⟩
    · rw [removeTableDirs, exec_bind_error (exec_ask_error answered)]
      rfl
    · rw [removeTableDirs, exec_bind_ok (exec_ask_ok answered)]
      exact ih (removedDir _)

/-- Deleting a batch fails only if a deletion is refused. -/
theorem exec_deleteBatch_failed {retries : Nat} {batch : List Candidate} {stop : Stop}
    (h : exec (deleteBatch env retries batch) p = (.error stop, q)) :
    ∃ e, stop = .failed (.environment .delete e) := by
  induction retries generalizing batch p with
  | zero =>
    rcases answered : (env.delete batch).perform p.world with ⟨e | report, w⟩
    · rw [exec_deleteBatch_error answered] at h
      cases h
      exact ⟨e, rfl⟩
    · rw [exec_deleteBatch_end answered (.inl rfl)] at h
      cases h
  | succ retries ih =>
    rcases answered : (env.delete batch).perform p.world with ⟨e | report, w⟩
    · rw [exec_deleteBatch_error answered] at h
      cases h
      exact ⟨e, rfl⟩
    by_cases some : failedOf report batch = []
    · rw [exec_deleteBatch_end answered (.inr some)] at h
      cases h
    · rw [exec_deleteBatch_repeat answered some] at h
      exact ih h

/-- What is confirmed of a page fails to be deleted only if a deletion is refused. -/
theorem exec_deletePage_failed {confirmed : List Candidate} {stop : Stop}
    (h : exec (deletePage settings env confirmed) p = (.error stop, q)) :
    ∃ e, stop = .failed (.environment .delete e) := by
  by_cases some : confirmed = []
  · rw [some, exec_deletePage_nil] at h
    cases h
  cases safe : settings.safeMode with
  | true =>
    rw [exec_deletePage_safe some safe] at h
    cases h
  | false =>
    rw [exec_deletePage some safe, exec_bind] at h
    rcases hb : exec (deleteBatch env settings.onFailure.retries confirmed)
      { p with phase := .deleting } with ⟨stop' | failed, r⟩ <;> rw [hb] at h
    · cases h
      exact exec_deleteBatch_failed hb
    · cases h

/-- The progress of a pass at a page that cannot be read is that before the page, but for the page
being counted. -/
structure SpoiledAt (settings : Settings) (cursor : String) (page : List String)
    (p q : Progress σ) : Prop where
  calls : q.calls = p.calls ++
    [.candidates cursor settings.batchSize (.ok page), .countCandidates page.length]
  counters : q.counters = { p.counters with
    pages := p.counters.pages + 1
    candidates := p.counters.candidates + page.length }

/-- Where a page of the log cannot be read, it is the next after some number of pages. -/
theorem exec_processLog_malformed
    (h : exec (processLog settings env snapshot budget cursor) p =
      (.error (.failed (.malformedPath e)), q)) :
    ∃ pages r cursor' page, exec (processLog settings env snapshot pages cursor) p =
        (.error .outOfPages, r) ∧ SpoiledAt settings cursor' page r q := by
  induction budget generalizing cursor p with
  | zero => cases h
  | succ budget ih =>
    rcases answered : (env.candidates cursor settings.batchSize).perform p.world with ⟨e' | page, w⟩
    · rw [exec_processLog_error answered] at h
      cases h
    rcases ends : page.getLast? with _ | last
    · rw [exec_processLog_end answered ends] at h
      cases h
    by_cases stays : cursor ≠ "" ∧ last ≤ cursor
    · rw [exec_processLog_stall answered ends stays] at h
      cases h
    rw [exec_processLog_page answered ends stays, exec_bind] at h
    rcases read : Candidate.ofPage settings.tablesDir page with e' | cs
    · rw [exec_processPage_malformed read] at h
      cases h
      exact ⟨0, p, cursor, page, rfl, List.append_assoc p.calls [_] [_], rfl⟩
    -- A page that can be read fails the pass for another cause or not at all.
    rcases hpage : exec (processPage settings env snapshot page)
      ({ p with phase := .fetching }.noted w (.candidates cursor settings.batchSize (.ok page)))
      with ⟨stop | _, q'⟩ <;> rw [hpage] at h
    · cases h
      rw [exec_processPage read] at hpage
      obtain ⟨e', he⟩ := exec_deletePage_failed hpage
      cases he
    · obtain ⟨pages, r, cursor', page', cut, spoiled⟩ := ih h
      refine ⟨pages + 1, r, cursor', page', ?_, spoiled⟩
      rw [exec_processLog_page answered ends stays, exec_bind_ok hpage, cut]

end Cut

variable (settings env) in
/-- A pass that fails at a page which cannot be read has gone the way of the pass that is cut off
before the page, and has counted the page. -/
theorem exists_cut_of_malformed {budget : Nat} {world : σ} {e : PathError}
    (failed : (run settings env budget world).outcome =
      .failed ⟨.malformedPath e, .reconciling⟩) :
    ∃ pages cursor page cut, run settings env pages world = cut ∧ cut.outcome = .unfinished ∧
      (run settings env budget world).calls = cut.calls ++
        [.candidates cursor settings.batchSize (.ok page), .countCandidates page.length] ∧
      (run settings env budget world).counters = { cut.counters with
        pages := cut.counters.pages + 1
        candidates := cut.counters.candidates + page.length } := by
  rcases h : exec (steps settings env budget) { world } with ⟨(cause | _) | ⟨⟩, q⟩
  · have hrun := run_of_failed h
    rw [hrun] at failed ⊢
    obtain ⟨rfl, hphase⟩ : cause = .malformedPath e ∧ q.phase = .reconciling := by
      simpa using failed
    have snapshotPhase := phase_exec_readSnapshot settings env { world }
    rcases hs : exec (readSnapshot settings env) { world } with ⟨stop | snapshot, p⟩ <;>
      rw [hs] at snapshotPhase
    · rw [steps, exec_bind_error hs] at h
      cases h
      cases hphase.symm.trans snapshotPhase
    rw [steps, exec_bind_ok hs] at h
    rcases hl : exec (processLog settings env snapshot budget "") p with ⟨stop | ⟨⟩, r⟩
    · rw [exec_bind_error hl] at h
      cases h
      obtain ⟨pages, r, cursor, page, cut, spoiled⟩ := exec_processLog_malformed hl
      refine ⟨pages, cursor, page, _, run_of_outOfPages ?_, rfl, spoiled.calls, spoiled.counters⟩
      rw [steps, exec_bind_ok hs, exec_bind_error cut]
    · rw [exec_bind_ok hl, exec_bind_ok (exec_enter r .cleaningTableDirs),
        exec_bind_ok (exec_get _)] at h
      have cleaning := phase_exec_removeTableDirs env
        (r.ledger.removable snapshot.tables snapshot.live) { r with phase := .cleaningTableDirs }
      rw [h] at cleaning
      cases hphase.symm.trans cleaning
  · rw [run_of_outOfPages h] at failed
    cases failed
  · rw [run_of_ok h] at failed
    cases failed

/-! ## What is left of such a pass -/

variable (settings env) in
/-- What is left of a pass that was served a page with a text that has no key, after the calls
before. -/
structure AbortedAt (budget : Nat) (world : σ) (before : List Call) (page : List String) :
    Prop where
  /-- It fails for the first such text of the page. -/
  outcome : ∃ n e, FirstFault (textFault settings) page n (.malformedPath e) ∧
    (run settings env budget world).outcome = .failed ⟨.malformedPath e, .reconciling⟩
  /-- The pass that is cut off before the page makes the calls before. -/
  cut : (run settings env (fetches before) world).outcome = .unfinished ∧
    (run settings env (fetches before) world).calls = before
  /-- Only the page is counted after that. -/
  counters : (run settings env budget world).counters =
    { (run settings env (fetches before) world).counters with
      pages := (run settings env (fetches before) world).counters.pages + 1
      candidates :=
        (run settings env (fetches before) world).counters.candidates + page.length }
  /-- What was handed out for deletion is of the pages before. -/
  batches : ∀ batch answer, .delete batch answer ∈ (run settings env budget world).calls →
    ∃ earlier ∈ pages before, ∀ c ∈ batch, c.literal ∈ earlier
  /-- No directory of a table is requested to be removed. -/
  removals : removals (run settings env budget world).calls = []

section Aborted

variable {budget : Nat} {world : σ}
  (split : (run settings env budget world).calls =
    before ++ .candidates cursor limit (.ok page) :: after)
  (moves : ∀ last, page.getLast? = some last → ¬(cursor ≠ "" ∧ last ≤ cursor))
  (illegible : ∃ x ∈ page, ∀ key, Key.ofPath settings.tablesDir .any x ≠ .ok key)
include split moves illegible

/-- A page with a text that has no key is only counted. -/
theorem aborted_of_illegible :
    AbortedAt settings env budget world before page ∧ after = [.countCandidates page.length] := by
  have course := course_run settings env budget world
  have each := justified_calls_run settings env budget world
  obtain ⟨x, hx, keyless⟩ := illegible
  obtain ⟨rfl, none, e, read, failed⟩ := course.of_illegible split moves fun legible => by
    obtain ⟨key, hkey⟩ := legible x hx
    exact keyless key hkey
  obtain ⟨pages, cursor', page', cut, hcut, unfinished, hcalls, hcounters⟩ :=
    exists_cut_of_malformed settings env failed
  -- Both ways to split the calls end with the page and its count.
  obtain ⟨rfl, hpage⟩ := List.append_inj' (split.symm.trans hcalls) rfl
  obtain ⟨rfl, rfl, rfl⟩ : cursor = cursor' ∧ limit = settings.batchSize ∧ page = page' := by
    simpa using (List.cons.inj hpage).1
  have hfetches : pages = fetches cut.calls := by
    obtain ⟨c, -, ends, all⟩ := exists_reaches_run settings env pages world
    rw [← hcut, ends.calls]
    exact (all (hcut ▸ unfinished)).symm
  have hrun : run settings env (fetches cut.calls) world = cut := hfetches ▸ hcut
  refine ⟨⟨?_, ?_, ?_, fun batch answer mem => ?_, none⟩, rfl⟩
  · obtain ⟨n, first⟩ := ofPage_eq_error read
    exact ⟨n, e, first, failed⟩
  · rw [hrun]
    exact ⟨unfinished, rfl⟩
  · rw [hrun]
    exact hcounters
  · have mem' : .delete batch answer ∈ cut.calls := by
      rw [split] at mem
      simpa using mem
    obtain ⟨start, rest, hstart⟩ := List.append_of_mem mem'
    rw [split, hstart] at each
    obtain ⟨snapshot, -, cleared⟩ := each.of_append start _ rest rfl
    obtain ⟨earlier, hearlier, served⟩ := cleared.served
    refine ⟨earlier, ?_, served⟩
    rw [hstart, pages_append]
    exact List.mem_append_left _ (List.mem_of_getLast? hearlier)

/-- A log that is kept in order has then lost what was deleted of the pages before, and nothing of
the page was handed out for deletion. -/
theorem log_of_illegible {v : LogView σ} {cap : Nat} (logged : Logged env v cap)
    (good : v.good world) :
    v.log (run settings env budget world).world =
        (v.log world).eraseAll (deletedTexts before) ∧
      ∀ batch answer, .delete batch answer ∈ (run settings env budget world).calls →
        ∀ c ∈ batch, c.literal ∉ page := by
  obtain ⟨aborted, rfl⟩ := aborted_of_illegible split moves illegible
  obtain ⟨n, e, -, failed⟩ := aborted.outcome
  constructor
  · have keeps := keeps_run settings logged budget good (by simp [failed])
    rw [keeps.log, split, deletedTexts_append]
    simp [deletedTexts, Call.deletedTexts]
  · intro batch answer mem c hc hpage
    obtain ⟨earlier, hearlier, served⟩ := aborted.batches batch answer mem
    obtain ⟨continues, -⟩ := paged_run settings env budget world
    have ascending := pages_ascending
      (follows_of_draws (draws_run settings logged budget good)) continues
    rw [split, pages_append, List.flatten_append] at ascending
    refine String.lt_irrefl c.literal ((List.pairwise_append.mp ascending).2.2 c.literal ?_
      c.literal ?_)
    · exact List.mem_flatten.mpr ⟨earlier, hearlier, served c hc⟩
    · simpa [Call.page?] using hpage

end Aborted

variable (settings env) in
/-- A page that does not stall a pass and has a text without a key aborts the pass, wherever on the
page that text stands and whatever the environment is; in a log that is kept in order nothing is
then missing but what was deleted of the pages before. A part of the snapshot that is not answered,
or has an item at fault, fails the pass too: it was read up to the first such item, nothing is
counted, and nothing was requested but parts of the snapshot. -/
theorem malformed_input_stops_pass (budget : Nat) (world : σ) :
    (∀ before cursor limit page after,
        (run settings env budget world).calls =
            before ++ .candidates cursor limit (.ok page) :: after →
          (∀ last, page.getLast? = some last → ¬(cursor ≠ "" ∧ last ≤ cursor)) →
            (∃ x ∈ page, ∀ key, Key.ofPath settings.tablesDir .any x ≠ .ok key) →
              AbortedAt settings env budget world before page ∧
                after = [.countCandidates page.length] ∧
                ∀ (v : LogView σ) (cap : Nat), Logged env v cap → v.good world →
                  v.log (run settings env budget world).world =
                      (v.log world).eraseAll (deletedTexts before) ∧
                    ∀ batch answer, .delete batch answer ∈ (run settings env budget world).calls →
                      ∀ c ∈ batch, c.literal ∉ page) ∧
      ∀ call ∈ (run settings env budget world).calls, call.readsSnapshot = true →
        call.Fails settings →
          (run settings env budget world).counters = {} ∧
            (∀ other ∈ (run settings env budget world).calls, other.readsSnapshot = true) ∧
            (run settings env budget world).calls.getLast? = some call ∧
            ∃ cause, call.StopsFor settings cause ∧
              (run settings env budget world).outcome = .failed ⟨cause, .fetching⟩ := by
  constructor
  · intro before cursor limit page after split moves illegible
    obtain ⟨aborted, counted⟩ := aborted_of_illegible split moves illegible
    exact ⟨aborted, counted, fun v cap logged good =>
      log_of_illegible split moves illegible logged good⟩
  · intro call mem part fails
    obtain ⟨parts, rest⟩ :=
      (course_run settings env budget world).of_snapshot_failure mem part fails
    exact ⟨counters_of_readsSnapshot settings env budget world parts, parts, rest⟩

section Spoiled

open Simulation

/-- A log with a page of two files, one of which fails to be deleted, and a page with a text that is
no path of a target. -/
def spoiledWorld : World where
  log := ⟨["1/t-1/A.rf", "1/t-1/B.rf", "1/t-2/C.rf", "bad"], by decide +kernel⟩
  pageCap := some 2
  deleteFailures := [("1/t-1/B.rf", 1)]

/-- A world with a blip that names a file. -/
def misfiledWorld : World := { spoiledWorld with blips := ["3/t-3", "2/t-2/D.rf"] }

/-- The page that cannot be read stays in the log, with the file that could not be deleted before.
Where a blip cannot be read nothing is counted at all. -/
theorem spoiled_page_stays :
    (run {} environment 6 spoiledWorld).outcome =
        .failed ⟨.malformedPath (.wrongCount "bad" 1 .any), .reconciling⟩ ∧
      (run {} environment 6 spoiledWorld).world.log =
        spoiledWorld.log.eraseAll ["1/t-1/A.rf"] ∧
      (run {} environment 6 spoiledWorld).counters.confirmed = 2 ∧
      (run {} environment 6 misfiledWorld).counters = {} := by
  have split : (run {} environment 6 spoiledWorld).calls =
      (run {} environment 6 spoiledWorld).calls.take 7 ++
        .candidates "1/t-1/B.rf" 1000 (.ok ["1/t-2/C.rf", "bad"]) ::
          (run {} environment 6 spoiledWorld).calls.drop 8 := by
    decide +kernel
  have moves : ∀ last, ["1/t-2/C.rf", "bad"].getLast? = some last →
      ¬("1/t-1/B.rf" ≠ "" ∧ last ≤ "1/t-1/B.rf") := by
    simp only [List.getLast?_cons_cons, List.getLast?_singleton, Option.some.injEq, forall_eq']
    decide
  have keyless : Key.ofPath "tables" .any "bad" = .error (.wrongCount "bad" 1 .any) := by
    decide +kernel
  obtain ⟨aborted, -, orderly⟩ := (malformed_input_stops_pass {} environment 6 spoiledWorld).1
    _ _ _ _ _ split moves ⟨"bad", by simp, fun key => by rw [keyless]; exact nofun⟩
  refine ⟨?_, ?_, ?_, ?_⟩
  · obtain ⟨n, e, ⟨x, hx, hfault, -⟩, failed⟩ := aborted.outcome
    have first : textFault {} "1/t-2/C.rf" = none := by decide +kernel
    have second : textFault {} "bad" = some (.malformedPath (.wrongCount "bad" 1 .any)) := by
      decide +kernel
    obtain rfl | rfl : x = "1/t-2/C.rf" ∨ x = "bad" := by simpa using List.mem_of_getElem? hx
    · cases first.symm.trans hfault
    · cases second.symm.trans hfault
      exact failed
  · obtain ⟨log, -⟩ := orderly _ 2 (environment_orderly 2 [] [] []).logged
      ⟨rfl, rfl, rfl, rfl, rfl, rfl, rfl, rfl, rfl, rfl, rfl, rfl⟩
    simp only [tameView, View.logView] at log
    rw [log]
    exact congrArg spoiledWorld.log.eraseAll (by decide +kernel)
  · rw [aborted.counters]
    decide +kernel
  · have named : Key.ofPath "tables" .directory "2/t-2/D.rf" =
        .error (.wrongCount "2/t-2/D.rf" 3 .directory) := by
      decide +kernel
    have fails : (Call.blips (.ok [.ok "3/t-3", .ok "2/t-2/D.rf"]) 2).Fails {} := by
      refine ⟨.ok "2/t-2/D.rf", List.mem_cons_of_mem _ (List.mem_singleton_self _), ?_⟩
      rintro blip key ⟨⟩ e
      cases named.symm.trans e
    exact ((malformed_input_stops_pass {} environment 6 misfiledWorld).2 _ (by decide +kernel) rfl
      fails).1

end Spoiled

end Pass

end TabletSweep
