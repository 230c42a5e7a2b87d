import TabletSweep.Proofs.Pass.Orderly
import TabletSweep.Proofs.Pass.Protocol

/-!
# Which table directories are removed

A pass that gets to the end of the log goes on to the directories of dropped tables. A table is
`Orphaned` if it has lost a tablet directory and nothing of it is left: it does not exist any more,
no reference points into it, and no candidate of it was `Retained` in any round, be it before or
after the round in which the directory went. The tables whose directories are requested to be
removed are these, in ascending order, up to the first request that fails
(`orphaned_tables_are_removed`). A table that has lost only files is not among them.
-/

namespace TabletSweep

namespace Pass

open PassM

variable {settings : Settings} {snapshot : Snapshot} {rounds : List Round} {round : Round}
  {cursor : String} {tables : List String} {calls more : List Call} {c : Candidate}

/-! ## What a round keeps and what it deletes -/

/-- What deletions leave is all that is confirmed if there were none, and else what the last one
reports as failed. -/
theorem Attempts.left_eq {confirmed left : List Candidate} {deletions : List Deletion}
    (h : Attempts confirmed deletions left) :
    left = match deletions.getLast? with
      | none => confirmed
      | some d => failedOf d.report d.batch := by
  cases h with
  | start => rfl
  | again earlier some report => rw [List.getLast?_concat]

theorem mem_failedOf {report : DeleteReport} {batch : List Candidate} :
    c ∈ failedOf report batch ↔ c ∈ batch ∧ c.literal ∈ report.failed := by
  rw [failedOf, List.mem_filter, DeleteReport.lists, List.contains_iff_mem]

theorem mem_deletedOf {report : DeleteReport} {batch : List Candidate} :
    c ∈ deletedOf report batch ↔ c ∈ batch ∧ c.literal ∉ report.failed := by
  rw [deletedOf, List.mem_filter, DeleteReport.lists, Bool.not_eq_true', ← Bool.not_eq_true,
    List.contains_iff_mem]

theorem mem_deleted {round : Round} :
    c ∈ round.deleted ↔ ∃ d ∈ round.deletions, c ∈ d.batch ∧ c.literal ∉ d.report.failed := by
  rw [Round.deleted, List.mem_flatMap]
  simp only [mem_deletedOf]

/-- What is left once a round is over is what is confirmed and may not be deleted, or was reported
as failed by the last deletion. -/
theorem mem_left_iff (complete : round.Complete settings snapshot) :
    c ∈ round.left ↔ c ∈ (snapshot.judge round.candidates).confirmed ∧
      (settings.safeMode = true ∨
        ∃ d, round.deletions.getLast? = some d ∧ c ∈ d.batch ∧ c.literal ∈ d.report.failed) := by
  have sub := complete.attempts.sublist.subset
  have left := complete.attempts.left_eq
  rcases hlast : round.deletions.getLast? with _ | d <;> simp only [hlast] at left
  · have none := complete.none_iff.mp (List.getLast?_eq_none_iff.mp hlast)
    rw [left]
    rcases none with nothing | safe
    · simp [nothing]
    · simp [safe]
  · have deletes : settings.safeMode = false := by
      rw [← Bool.not_eq_true]
      intro safe
      rw [complete.none_iff.mpr (.inr safe)] at hlast
      cases hlast
    simp only [Option.some.injEq, exists_eq_left', deletes, Bool.false_eq_true, false_or]
    rw [← mem_failedOf, ← left]
    exact ⟨fun h => ⟨sub h, h⟩, And.right⟩

variable (settings calls) in
/-- A candidate of a round stays: a reference of the scan protects it, a blip of the scan names its
directory, nothing may be deleted, or the last deletion of the round reports it as failed. -/
def Retained (round : Round) (c : Candidate) : Prop :=
  (∃ r, Refers settings calls r ∧ r.Protects c.key) ∨
    (∃ marked, Marks settings calls marked ∧ c.key.directory = marked.directory) ∨
    settings.safeMode = true ∨
    ∃ d, round.deletions.getLast? = some d ∧ c ∈ d.batch ∧ c.literal ∈ d.report.failed

section ReadIn

variable (read : ReadIn settings snapshot calls) (each : EachCall (Justified settings) calls)
include read each

/-- By a snapshot that was read in, what a round keeps at once and what its deletions leave is what
is retained of its candidates. -/
theorem ReadIn.mem_kept_or_left_iff (complete : round.Complete settings snapshot) :
    c ∈ (snapshot.judge round.candidates).kept ∨ c ∈ round.left ↔
      c ∈ round.candidates ∧ Retained settings calls round c := by
  rw [Snapshot.mem_judge_kept, mem_left_iff complete, Snapshot.judge_confirmed, List.mem_filter,
    and_assoc, ← and_or_left, Retained, ← or_assoc, ← read.frees_eq_false_iff each]
  cases snapshot.frees c.key <;> simp

end ReadIn

/-! ## Cleaning up -/

variable (settings calls) in
/-- A table whose directory can go: it has lost a tablet directory by an answered deletion, it does
not exist any more, no reference of the scan points into it, and no candidate of it stays. -/
structure Orphaned (rounds : List Round) (table : String) : Prop where
  lost : ∃ round ∈ rounds, ∃ d ∈ round.deletions, ∃ c ∈ d.batch, c.literal ∉ d.report.failed ∧
    c.key.isDirectory = true ∧ c.key.table = table
  dropped : ∀ ids, .tableIds (.ok ids) ∈ calls → table ∉ ids
  unreached : ∀ r, Refers settings calls r → r.key.table ≠ table
  unretained : ∀ round ∈ rounds, ∀ c ∈ round.candidates, c.key.table = table →
    ¬Retained settings calls round c

theorem Worked.readIn (worked : Worked settings snapshot rounds cursor calls) :
    ReadIn settings snapshot calls := by
  induction worked with
  | start live loads => exact ⟨_, _, _, _, _, rfl, live, loads⟩
  | round _ _ _ _ ih => exact ih.append

theorem Worked.complete (worked : Worked settings snapshot rounds cursor calls) :
    ∀ round ∈ rounds, round.Complete settings snapshot := by
  induction worked with
  | start => simp
  | round _ _ _ complete ih => exact List.forall_mem_append.mpr ⟨ih, by simpa using complete⟩

/-- What was requested to be removed, and what is still to be removed, is what the ledger of the
rounds tells. The requests are the last calls of a pass, after an empty page. -/
theorem Cleaned.requests (cleaned : Cleaned settings snapshot rounds tables calls) :
    ∃ cursor before rest, Worked settings snapshot rounds cursor before ∧
      calls = before ++ .candidates cursor settings.batchSize (.ok []) :: rest ∧
      (∀ call ∈ rest, call.removal?.isSome = true) ∧
      removals rest ++ tables =
        (ledgerOf snapshot rounds).removable snapshot.tables snapshot.live := by
  induction cleaned with
  | start worked => exact ⟨_, _, [], worked, rfl, by simp, rfl⟩
  | @remove table tables calls earlier removed ih =>
    obtain ⟨cursor, before, rest, worked, rfl, requests, total⟩ := ih
    refine ⟨cursor, before, rest ++ [.removeTableDir table (.ok removed)], worked, ?_, ?_, ?_⟩
    · rw [List.append_assoc, List.cons_append]
    · exact List.forall_mem_append.mpr ⟨requests, by simp [Call.removal?]⟩
    · rw [removals_append, List.append_assoc, ← total]
      rfl

/-- A pass that gets to the end of the log goes on with the tables that the ledger of its rounds
lists as removable, one after another, and stops before their end only at a request that fails. -/
theorem Course.requests {outcome : Outcome} (course : Course settings outcome calls)
    (exhausted : Exhausted calls) :
    ∃ snapshot rounds cursor before rest, Worked settings snapshot rounds cursor before ∧
      calls = before ++ .candidates cursor settings.batchSize (.ok []) :: rest ∧
      (∀ call ∈ rest, call.removal?.isSome = true) ∧
      removals rest <+: (ledgerOf snapshot rounds).removable snapshot.tables snapshot.live ∧
      ((∀ table e, .removeTableDir table (.error e) ∉ rest) →
        removals rest = (ledgerOf snapshot rounds).removable snapshot.tables snapshot.live) := by
  obtain ⟨snapshot, rounds, tables, start, cleaned, ends⟩ := course.of_exhausted exhausted
  obtain ⟨cursor, before, rest, worked, hstart, requests, total⟩ := cleaned.requests
  rcases ends with ⟨hcalls, hnil, -⟩ | ⟨table, others, e, htables, hcalls⟩
  · rw [hnil, List.append_nil] at total
    exact ⟨snapshot, rounds, cursor, before, rest, worked, hcalls.trans hstart, requests,
      total ▸ List.prefix_rfl, fun _ => total⟩
  · have hremovals : removals (rest ++ [.removeTableDir table (.error e)]) =
        removals rest ++ [table] := removals_append ..
    refine ⟨snapshot, rounds, cursor, before, rest ++ [.removeTableDir table (.error e)], worked,
      ?_, ?_, ?_, fun none => ?_⟩
    · rw [hcalls, hstart, List.append_assoc, List.cons_append]
    · exact List.forall_mem_append.mpr ⟨requests, by simp [Call.removal?]⟩
    · refine ⟨others, ?_⟩
      rw [hremovals, ← total, htables, List.append_assoc, List.singleton_append]
    · exact absurd (List.mem_append_right _ (List.mem_singleton_self _)) (none table e)

theorem removals_worked (worked : Worked settings snapshot rounds cursor calls) :
    removals calls = [] := by
  induction worked with
  | start => rfl
  | @round rounds cursor calls last round _ _ _ _ ih =>
    have none : removals (round.calls settings snapshot cursor) = [] :=
      List.filterMap_eq_nil_iff.mpr (Round.forall_calls.mpr ⟨rfl, rfl, rfl, fun _ _ => rfl⟩)
    rw [removals_append, ih, none, List.append_nil]

/-- The ids of the tables are asked for once. -/
theorem Worked.tableIds_iff (worked : Worked settings snapshot rounds cursor calls)
    {ids : List String} : .tableIds (.ok ids) ∈ calls ↔ ids = snapshot.tables := by
  induction worked with
  | start => simp
  | @round rounds cursor calls last round _ _ _ _ ih =>
    have other : .tableIds (.ok ids) ∉ round.calls settings snapshot cursor := by
      intro mem
      cases settled_round _ mem
    simp [ih, other]

/-- The tables that the ledger of the rounds lists as removable are those whose directories can
go. -/
theorem mem_removable_iff {table : String} (read : ReadIn settings snapshot calls)
    (each : EachCall (Justified settings) calls)
    (complete : ∀ round ∈ rounds, round.Complete settings snapshot)
    (existing : ∀ ids, .tableIds (.ok ids) ∈ calls ↔ ids = snapshot.tables) :
    table ∈ (ledgerOf snapshot rounds).removable snapshot.tables snapshot.live ↔
      Orphaned settings calls rounds table := by
  have lost : table ∈ (ledgerOf snapshot rounds).emptied ↔
      ∃ round ∈ rounds, ∃ d ∈ round.deletions, ∃ c ∈ d.batch, c.literal ∉ d.report.failed ∧
        c.key.isDirectory = true ∧ c.key.table = table := by
    simp only [mem_emptied_ledgerOf, mem_deleted]
    constructor
    · rintro ⟨round, hround, c, ⟨d, hd, hc, deleted⟩, directory, rfl⟩
      exact ⟨round, hround, d, hd, c, hc, deleted, directory, rfl⟩
    · rintro ⟨round, hround, d, hd, c, hc, deleted, directory, rfl⟩
      exact ⟨round, hround, c, ⟨d, hd, hc, deleted⟩, directory, rfl⟩
  have retained : table ∈ (ledgerOf snapshot rounds).kept ↔
      ∃ round ∈ rounds, ∃ c ∈ round.candidates, c.key.table = table ∧
        Retained settings calls round c := by
    rw [mem_kept_ledgerOf]
    refine exists_congr fun round => and_congr_right fun hround => exists_congr fun c => ?_
    rw [read.mem_kept_or_left_iff each (complete round hround), eq_comm, and_assoc,
      and_comm (b := _ = _)]
  have reached : snapshot.live.reaches table = false ↔
      ∀ r, Refers settings calls r → r.key.table ≠ table := by
    rw [← Bool.not_eq_true, read.reaches_iff each]
    simp [eq_comm]
  rw [TableLedger.mem_removable, lost, retained, reached]
  constructor
  · rintro ⟨lost, dropped, unretained, unreached⟩
    refine ⟨lost, fun ids mem => ?_, unreached, fun round hround c hc htable stays => ?_⟩
    · rw [(existing ids).mp mem]
      exact dropped
    · exact unretained ⟨round, hround, c, hc, htable, stays⟩
  · rintro ⟨lost, dropped, unreached, unretained⟩
    refine ⟨lost, dropped _ ((existing _).mpr rfl), ?_, unreached⟩
    rintro ⟨round, hround, c, hc, htable, stays⟩
    exact unretained round hround c hc htable stays

variable {σ : Type}

variable (settings) in
/-- In a pass that gets to the end of the log, the tables whose directories are requested to be
removed are listed in ascending order and after the last page. They are the start of the list of all
tables whose directories can go, and all of that list if no such request fails. -/
theorem orphaned_tables_are_removed (env : Environment σ) (budget : Nat) (world : σ)
    (exhausted : Exhausted (run settings env budget world).calls) :
    ∃ snapshot rounds cursor before rest,
      Worked settings snapshot rounds cursor before ∧
      (run settings env budget world).calls =
        before ++ .candidates cursor settings.batchSize (.ok []) :: rest ∧
      (∀ call ∈ rest, call.removal?.isSome = true) ∧
      ∃ tables, tables.Pairwise (· < ·) ∧
        (∀ table, table ∈ tables ↔
          Orphaned settings (run settings env budget world).calls rounds table) ∧
        removals (run settings env budget world).calls <+: tables ∧
        ((∀ table e, .removeTableDir table (.error e) ∉ (run settings env budget world).calls) →
          removals (run settings env budget world).calls = tables) := by
  have each := justified_calls_run settings env budget world
  obtain ⟨snapshot, rounds, cursor, before, rest, worked, hcalls, requests, start, whole⟩ :=
    (course_run settings env budget world).requests exhausted
  have hremovals : removals (run settings env budget world).calls = removals rest := by
    rw [hcalls, removals_append, removals_worked worked, List.nil_append]
    rfl
  have read : ReadIn settings snapshot (run settings env budget world).calls := by
    rw [hcalls]
    exact worked.readIn.append
  have existing : ∀ ids, .tableIds (.ok ids) ∈ (run settings env budget world).calls ↔
      ids = snapshot.tables := by
    intro ids
    have other : .tableIds (.ok ids) ∉ rest := by
      intro mem
      cases requests _ mem
    rw [hcalls, List.mem_append, worked.tableIds_iff, List.mem_cons]
    simp [other]
  refine ⟨snapshot, rounds, cursor, before, rest, worked, hcalls, requests, _,
    TableLedger.sorted_removable .., fun table => ?_, hremovals ▸ start, fun none => ?_⟩
  · exact mem_removable_iff read each worked.complete existing
  · rw [hremovals]
    refine whole fun table e mem => none table e ?_
    rw [hcalls]
    exact List.mem_append_right _ (List.mem_cons_of_mem _ mem)

section Dropped

open Simulation

/-- A log with the last directory of a dropped table, two directories of another one of which one is
under bulk load, and a file of a third. -/
def droppedWorld : World where
  log := ⟨["4/t-0", "5/t-1", "5/t-2", "6/t-3/A.rf"], by decide +kernel⟩
  blips := ["5/t-2"]

/-- Of the tables that lose something one is orphaned: the second keeps a directory on a later page,
and the third loses only a file. -/
theorem emptied_table_is_removed :
    Exhausted (runPass { batchSize := 1 } droppedWorld).calls ∧
      ∃ rounds, removals (runPass { batchSize := 1 } droppedWorld).calls = ["4"] ∧
        Orphaned { batchSize := 1 } (runPass { batchSize := 1 } droppedWorld).calls rounds "4" ∧
        ∀ table ∈ ["5", "6"],
          ¬Orphaned { batchSize := 1 } (runPass { batchSize := 1 } droppedWorld).calls rounds
            table := by
  have done : (runPass { batchSize := 1 } droppedWorld).outcome = .done := by decide +kernel
  have only : removals (runPass { batchSize := 1 } droppedWorld).calls = ["4"] := by
    decide +kernel
  obtain ⟨exhausted, smooth⟩ := (course_run { batchSize := 1 } environment droppedWorld.pageBudget
    droppedWorld.beginPass).done_iff.mp done
  obtain ⟨_, rounds, _, _, _, -, -, -, tables, -, orphaned, -, whole⟩ :=
    orphaned_tables_are_removed { batchSize := 1 } environment droppedWorld.pageBudget
      droppedWorld.beginPass exhausted
  obtain rfl : ["4"] = tables := only.symm.trans (whole fun table e mem => smooth _ mem trivial)
  refine ⟨exhausted, rounds, only, (orphaned "4").mp (List.mem_singleton_self _), ?_⟩
  intro table other gone
  have mem := (orphaned table).mpr gone
  rw [List.mem_singleton.mp mem] at other
  exact absurd other (by decide)

end Dropped

end Pass

end TabletSweep
