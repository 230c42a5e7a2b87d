import Mathlib.Data.List.Induction
import TabletSweep.Proofs.Ledger
import TabletSweep.Proofs.Pass.Scans

/-!
# The rounds of a pass

After its snapshot a pass goes through rounds, one for each page of the log. A `Round` is a page
with what was done to it: what it was read as, the deletions that were answered, and the confirmed
candidates that these have left. `Worked` says which calls some rounds come to, `Cleaned` what may
follow once the log is exhausted, and `Course` lists all the ways in which a pass can go, with the
calls of each; there is no other (`course_run`).

The ledger of a pass is what its rounds note (`ledgerOf`), so the tables whose directories are to be
removed are known from the rounds alone (`mem_emptied_ledgerOf`, `mem_kept_ledgerOf`).
-/

namespace TabletSweep

/-- A deletion that was answered. -/
structure Deletion where
  batch : List Candidate
  report : DeleteReport

/-- A page of the log with what was done to it. -/
structure Round where
  page : List String
  /-- What the page was read as. -/
  candidates : List Candidate
  /-- The deletions that were answered, in order. -/
  deletions : List Deletion
  /-- The confirmed candidates that the deletions have left. -/
  left : List Candidate

namespace Pass

/-! ## Rounds -/

/-- Deletions made one after another, the first of all that is confirmed and each later one of what
the one before it reports as failed, and what they have left. -/
inductive Attempts (confirmed : List Candidate) : List Deletion → List Candidate → Prop
  | start : Attempts confirmed [] confirmed
  | again {deletions batch} (earlier : Attempts confirmed deletions batch) (some : batch ≠ [])
      (report : DeleteReport) :
      Attempts confirmed (deletions ++ [⟨batch, report⟩]) (failedOf report batch)

/-- What deletions leave is part of what was to be deleted. -/
theorem Attempts.sublist {confirmed left : List Candidate} {deletions : List Deletion}
    (h : Attempts confirmed deletions left) : left.Sublist confirmed := by
  induction h with
  | start => exact .refl _
  | again _ _ _ ih => exact List.filter_sublist.trans ih

end Pass

namespace Round

open Pass

variable (settings : Settings) (snapshot : Snapshot)

/-- The calls of a round. -/
def calls (cursor : String) (round : Round) : List Call :=
  [.candidates cursor settings.batchSize (.ok round.page), .countCandidates round.page.length,
    .countInUse (snapshot.judge round.candidates).kept.length] ++
    round.deletions.map fun d => .delete d.batch (.ok d.report)

/-- The candidates that a round has deleted. -/
def deleted (round : Round) : List Candidate :=
  round.deletions.flatMap fun d => deletedOf d.report d.batch

/-- A round in which more is to be deleted, with so many repetitions after that. -/
structure Deleting (round : Round) (retries : Nat) : Prop where
  read : Candidate.ofPage settings.tablesDir round.page = .ok round.candidates
  attempts : Attempts (snapshot.judge round.candidates).confirmed round.deletions round.left
  some : round.left ≠ []
  deletes : settings.safeMode = false
  bound : round.deletions.length + retries = settings.onFailure.retries

/-- A round that is over. There is one deletion and at most so many repetitions as the settings
allow, and none at all if nothing is confirmed or nothing may be deleted. The deletions go on as
long as something is left and may be deleted again. -/
structure Complete (round : Round) : Prop where
  read : Candidate.ofPage settings.tablesDir round.page = .ok round.candidates
  attempts : Attempts (snapshot.judge round.candidates).confirmed round.deletions round.left
  few : round.deletions.length ≤ 1 + settings.onFailure.retries
  none_iff : round.deletions = [] ↔
    (snapshot.judge round.candidates).confirmed = [] ∨ settings.safeMode = true
  ends : round.left = [] ∨ settings.safeMode = true ∨
    round.deletions.length = 1 + settings.onFailure.retries

/-- A round with one more deletion, of all that was left. -/
def again (round : Round) (report : DeleteReport) : Round :=
  { round with
    deletions := round.deletions ++ [⟨round.left, report⟩]
    left := failedOf report round.left }

/-- What a round notes in a ledger. -/
def note (ledger : TableLedger) (round : Round) : TableLedger :=
  ((ledger.keptAll (snapshot.judge round.candidates).kept).deletedAll round.deleted).keptAll
    round.left

variable {settings snapshot} {round : Round} {cursor : String} {report : DeleteReport}

/-- What is true of all calls of a round is what is true of its page, its two counts and its
deletions. -/
theorem forall_calls {P : Call → Prop} :
    (∀ call ∈ round.calls settings snapshot cursor, P call) ↔
      P (.candidates cursor settings.batchSize (.ok round.page)) ∧
        P (.countCandidates round.page.length) ∧
        P (.countInUse (snapshot.judge round.candidates).kept.length) ∧
        ∀ d ∈ round.deletions, P (.delete d.batch (.ok d.report)) := by
  rw [calls, List.forall_mem_append, List.forall_mem_map]
  simp only [List.forall_mem_cons, List.not_mem_nil, false_imp_iff, implies_true, and_true,
    and_assoc]

theorem calls_again :
    (round.again report).calls settings snapshot cursor =
      round.calls settings snapshot cursor ++ [.delete round.left (.ok report)] := by
  simp [again, calls]

theorem deleted_again :
    (round.again report).deleted = round.deleted ++ deletedOf report round.left := by
  simp [again, deleted]

section Deleting

variable {retries : Nat}

theorem Deleting.again (deleting : round.Deleting settings snapshot (retries + 1))
    (some : failedOf report round.left ≠ []) :
    (round.again report).Deleting settings snapshot retries where
  read := deleting.read
  attempts := deleting.attempts.again deleting.some report
  some := some
  deletes := deleting.deletes
  bound := by
    rw [← deleting.bound, Round.again, List.length_append, List.length_singleton]
    omega

/-- A round is over after a deletion that leaves nothing or is not to be repeated. -/
theorem Deleting.complete (deleting : round.Deleting settings snapshot retries)
    (ends : retries = 0 ∨ failedOf report round.left = []) :
    (round.again report).Complete settings snapshot := by
  have length : (round.again report).deletions.length + retries =
      1 + settings.onFailure.retries := by
    rw [← deleting.bound, Round.again, List.length_append, List.length_singleton]
    omega
  refine ⟨deleting.read, deleting.attempts.again deleting.some report, by omega, ?_, ?_⟩
  · have some : (snapshot.judge round.candidates).confirmed ≠ [] := by
      intro none
      have sub := deleting.attempts.sublist
      rw [none] at sub
      exact deleting.some (List.sublist_nil.mp sub)
    simp [Round.again, some, deleting.deletes]
  · rcases ends with rfl | none
    · exact .inr (.inr length)
    · exact .inl none

end Deleting

end Round

namespace Pass

open PassM

section Ledger

variable (snapshot : Snapshot)

/-- The ledger after some rounds. -/
def ledgerOf (rounds : List Round) : TableLedger := rounds.foldl (Round.note snapshot) .empty

theorem ledgerOf_concat (rounds : List Round) (round : Round) :
    ledgerOf snapshot (rounds ++ [round]) = round.note snapshot (ledgerOf snapshot rounds) := by
  rw [ledgerOf, List.foldl_append, List.foldl_cons, List.foldl_nil, ← ledgerOf]

/-- The rounds empty the tables of the tablet directories that they delete. -/
theorem mem_emptied_ledgerOf {rounds : List Round} {table : String} :
    table ∈ (ledgerOf snapshot rounds).emptied ↔
      ∃ round ∈ rounds, ∃ c ∈ round.deleted, c.key.isDirectory = true ∧ table = c.key.table := by
  induction rounds using List.reverseRecOn with
  | nil => simp [ledgerOf, TableLedger.empty]
  | append_singleton rounds round ih =>
    rw [ledgerOf_concat, Round.note, TableLedger.emptied_keptAll,
      TableLedger.mem_emptied_deletedAll, TableLedger.emptied_keptAll, ih]
    simp only [List.mem_append, List.mem_singleton, or_and_right, exists_or, exists_eq_left]

/-- The rounds keep the tables of the candidates that are kept at once, and of those that the
deletions leave. -/
theorem mem_kept_ledgerOf {rounds : List Round} {table : String} :
    table ∈ (ledgerOf snapshot rounds).kept ↔
      ∃ round ∈ rounds, ∃ c, (c ∈ (snapshot.judge round.candidates).kept ∨ c ∈ round.left) ∧
        table = c.key.table := by
  induction rounds using List.reverseRecOn with
  | nil => simp [ledgerOf, TableLedger.empty]
  | append_singleton rounds round ih =>
    rw [ledgerOf_concat, Round.note, TableLedger.mem_kept_keptAll, TableLedger.kept_deletedAll,
      TableLedger.mem_kept_keptAll, ih]
    simp only [List.mem_append, List.mem_singleton, or_and_right, exists_or, exists_eq_left,
      or_assoc]

end Ledger

/-! ## The ways of a pass -/

variable (settings : Settings)

/-- The calls of a pass that has read its snapshot and been through some rounds, and the cursor
after them: empty at first, and then the last text of the page before. -/
inductive Worked (snapshot : Snapshot) : List Round → String → List Call → Prop
  | start {answer read answer' read'}
      (live : readAnswer .references (takeEntry settings) .empty answer =
        (read, .ok snapshot.live))
      (loads : readAnswer .blips (takeBlip settings) .empty answer' =
        (read', .ok snapshot.loads)) :
      Worked snapshot [] ""
        [.references answer read, .blips answer' read', .tableIds (.ok snapshot.tables)]
  | round {rounds cursor calls last} {round : Round} (earlier : Worked snapshot rounds cursor calls)
      (ends : round.page.getLast? = some last) (moves : ¬(cursor ≠ "" ∧ last ≤ cursor))
      (complete : round.Complete settings snapshot) :
      Worked snapshot (rounds ++ [round]) last (calls ++ round.calls settings snapshot cursor)

/-- The calls of a pass that has been through all of the log and has requested the removal of the
directories of some tables, and the tables whose directories are still to be removed. -/
inductive Cleaned (snapshot : Snapshot) (rounds : List Round) : List String → List Call → Prop
  | start {cursor calls} (worked : Worked settings snapshot rounds cursor calls) :
      Cleaned snapshot rounds
        ((ledgerOf snapshot rounds).removable snapshot.tables snapshot.live)
        (calls ++ [.candidates cursor settings.batchSize (.ok [])])
  | remove {table tables calls} (earlier : Cleaned snapshot rounds (table :: tables) calls)
      (removed : Bool) :
      Cleaned snapshot rounds tables (calls ++ [.removeTableDir table (.ok removed)])

/-- The ways in which a pass can go: how it ends, and what calls it has made then. -/
inductive Course : Outcome → List Call → Prop
  | failReferences {answer read cause}
      (stops : readAnswer .references (takeEntry settings) .empty answer = (read, .error cause)) :
      Course (.failed ⟨cause, .fetching⟩) [.references answer read]
  | failBlips {answer read live answer' read' cause}
      (gathered : readAnswer .references (takeEntry settings) .empty answer = (read, .ok live))
      (stops : readAnswer .blips (takeBlip settings) .empty answer' = (read', .error cause)) :
      Course (.failed ⟨cause, .fetching⟩) [.references answer read, .blips answer' read']
  | failTableIds {answer read live answer' read' loads e}
      (gathered : readAnswer .references (takeEntry settings) .empty answer = (read, .ok live))
      (gathered' : readAnswer .blips (takeBlip settings) .empty answer' = (read', .ok loads)) :
      Course (.failed ⟨.environment .tableIds e, .fetching⟩)
        [.references answer read, .blips answer' read', .tableIds (.error e)]
  | unfinished {snapshot rounds cursor calls}
      (worked : Worked settings snapshot rounds cursor calls) : Course .unfinished calls
  | failFetch {snapshot rounds cursor calls e}
      (worked : Worked settings snapshot rounds cursor calls) :
      Course (.failed ⟨.environment .candidates e, .fetching⟩)
        (calls ++ [.candidates cursor settings.batchSize (.error e)])
  | stall {snapshot rounds cursor calls page last}
      (worked : Worked settings snapshot rounds cursor calls)
      (ends : page.getLast? = some last) (stays : cursor ≠ "" ∧ last ≤ cursor) :
      Course (.failed ⟨.stalled cursor, .fetching⟩)
        (calls ++ [.candidates cursor settings.batchSize (.ok page)])
  | malformedPage {snapshot rounds cursor calls page last e}
      (worked : Worked settings snapshot rounds cursor calls)
      (ends : page.getLast? = some last) (moves : ¬(cursor ≠ "" ∧ last ≤ cursor))
      (read : Candidate.ofPage settings.tablesDir page = .error e) :
      Course (.failed ⟨.malformedPath e, .reconciling⟩)
        (calls ++ [.candidates cursor settings.batchSize (.ok page), .countCandidates page.length])
  | failDelete {snapshot rounds cursor calls last retries e} {round : Round}
      (worked : Worked settings snapshot rounds cursor calls)
      (ends : round.page.getLast? = some last) (moves : ¬(cursor ≠ "" ∧ last ≤ cursor))
      (deleting : round.Deleting settings snapshot retries) :
      Course (.failed ⟨.environment .delete e, .deleting⟩)
        (calls ++ round.calls settings snapshot cursor ++ [.delete round.left (.error e)])
  | failRemove {snapshot rounds table tables calls e}
      (cleaned : Cleaned settings snapshot rounds (table :: tables) calls) :
      Course (.failed ⟨.environment .removeTableDir e, .cleaningTableDirs⟩)
        (calls ++ [.removeTableDir table (.error e)])
  | done {snapshot rounds calls} (cleaned : Cleaned settings snapshot rounds [] calls) :
      Course .done calls

/-! ## Along the steps -/

variable {σ : Type}

/-- A pass has been through some rounds and was then served a page that moves past the cursor. -/
structure Entered (snapshot : Snapshot) (page : List String) (last : String) (rounds : List Round)
    (cursor : String) (calls : List Call) : Prop where
  worked : Worked settings snapshot rounds cursor calls
  ends : page.getLast? = some last
  moves : ¬(cursor ≠ "" ∧ last ≤ cursor)

/-- What is known of a progress at a point of a pass. -/
def Point.OnCourse (p : Progress σ) : Point → Prop
  | .references => p.calls = [] ∧ p.phase = .fetching ∧ p.ledger = .empty
  | .blips live => ∃ answer read, p.calls = [.references answer read] ∧ p.phase = .fetching ∧
    p.ledger = .empty ∧
    readAnswer .references (takeEntry settings) .empty answer = (read, .ok live)
  | .tableIds live loads => ∃ answer read answer' read',
    p.calls = [.references answer read, .blips answer' read'] ∧ p.phase = .fetching ∧
    p.ledger = .empty ∧
    readAnswer .references (takeEntry settings) .empty answer = (read, .ok live) ∧
    readAnswer .blips (takeBlip settings) .empty answer' = (read', .ok loads)
  | .fetch snapshot cursor => ∃ rounds, Worked settings snapshot rounds cursor p.calls ∧
    p.ledger = ledgerOf snapshot rounds
  | .judge snapshot page last => p.phase = .reconciling ∧ ∃ rounds cursor calls,
    Entered settings snapshot page last rounds cursor calls ∧
    p.calls = calls ++ [.candidates cursor settings.batchSize (.ok page),
      .countCandidates page.length] ∧
    p.ledger = ledgerOf snapshot rounds
  | .delete snapshot last retries batch => p.phase = .deleting ∧ ∃ rounds cursor calls,
    ∃ round : Round, Entered settings snapshot round.page last rounds cursor calls ∧
    p.calls = calls ++ round.calls settings snapshot cursor ∧
    p.ledger = ((ledgerOf snapshot rounds).keptAll
      (snapshot.judge round.candidates).kept).deletedAll round.deleted ∧
    round.left = batch ∧ round.Deleting settings snapshot retries
  | .clean snapshot tables => p.phase = .cleaningTableDirs ∧
    ∃ rounds, Cleaned settings snapshot rounds tables p.calls
  | .done => Course settings .done p.calls
  | .failed cause => Course settings (.failed ⟨cause, p.phase⟩) p.calls

variable {settings} {env : Environment σ} {c d : Config σ}

section Entered

variable {snapshot : Snapshot} {round : Round} {last cursor : String} {rounds : List Round}
  {calls : List Call} {p q : Progress σ}
  (entered : Entered settings snapshot round.page last rounds cursor calls)
include entered

/-- A round without deletions is over once its page is judged. -/
theorem Entered.skip (complete : round.Complete settings snapshot) (none : round.deletions = [])
    (hcalls : p.calls = calls ++ [.candidates cursor settings.batchSize (.ok round.page),
      .countCandidates round.page.length])
    (hledger : p.ledger = ledgerOf snapshot rounds)
    (counted : q.calls = p.calls ++ [.countInUse (snapshot.judge round.candidates).kept.length])
    (kept : q.ledger =
      (p.ledger.keptAll (snapshot.judge round.candidates).kept).keptAll round.left) :
    (Point.fetch snapshot last).OnCourse settings q := by
  refine ⟨rounds ++ [round], ?_, ?_⟩
  · have worked := entered.worked.round entered.ends entered.moves complete
    rw [Round.calls, none, List.map_nil, List.append_nil] at worked
    rw [counted, hcalls, List.append_assoc]
    exact worked
  · rw [kept, hledger, ledgerOf_concat, Round.note, Round.deleted, none]
    rfl

/-- A deletion that leaves nothing or is not to be repeated ends its round. -/
theorem Entered.endDelete {report : DeleteReport}
    (complete : (round.again report).Complete settings snapshot)
    (hcalls : p.calls = calls ++ round.calls settings snapshot cursor)
    (hledger : p.ledger = ((ledgerOf snapshot rounds).keptAll
      (snapshot.judge round.candidates).kept).deletedAll round.deleted)
    (answered : q.calls = p.calls ++ [.delete round.left (.ok report)])
    (noted : q.ledger = (p.ledger.deletedAll (deletedOf report round.left)).keptAll
      (failedOf report round.left)) :
    (Point.fetch snapshot last).OnCourse settings q := by
  refine ⟨rounds ++ [round.again report], ?_, ?_⟩
  · rw [answered, hcalls, List.append_assoc, ← Round.calls_again]
    exact entered.worked.round entered.ends entered.moves complete
  · rw [noted, hledger, ← TableLedger.deletedAll_append, ← Round.deleted_again, ledgerOf_concat]
    rfl

end Entered

/-- Every step stays on a course. -/
theorem onCourse_step (h : c.point.OnCourse settings c.progress) (step : Step settings env c d) :
    d.point.OnCourse settings d.progress := by
  -- A step adds at most two calls at the end, and the point it leads to says how they go on from
  -- the calls of the rounds before.
  cases step with
  | readReferences answered gathered =>
    obtain ⟨calls, phase, ledger⟩ := h
    exact ⟨_, _, by rw [Progress.noted_calls, calls]; rfl, phase, ledger, gathered⟩
  | @failReferences p answer world read cause answered gathered =>
    obtain ⟨calls, phase, -⟩ := h
    change Course settings (.failed ⟨cause, p.phase⟩) (p.calls ++ [_])
    rw [calls, phase]
    exact .failReferences gathered
  | readBlips answered gathered =>
    obtain ⟨answer, read, calls, phase, ledger, live⟩ := h
    exact ⟨answer, read, _, _, by rw [Progress.noted_calls, calls]; rfl, phase, ledger, live,
      gathered⟩
  | @failBlips live p answer' world read' cause answered gathered =>
    obtain ⟨answer, read, calls, phase, -, live⟩ := h
    change Course settings (.failed ⟨cause, p.phase⟩) (p.calls ++ [_])
    rw [calls, phase]
    exact .failBlips live gathered
  | @readTableIds live loads p tables world answered =>
    obtain ⟨answer, read, answer', read', calls, -, ledger, live, loads⟩ := h
    refine ⟨[], ?_, ledger⟩
    change Worked settings _ [] "" (p.calls ++ [_])
    rw [calls]
    exact .start live loads
  | @failTableIds live loads p e world answered =>
    obtain ⟨answer, read, answer', read', calls, phase, -, live, loads⟩ := h
    change Course settings (.failed ⟨_, p.phase⟩) (p.calls ++ [_])
    rw [calls, phase]
    exact .failTableIds live loads
  | @fetchPage snapshot cursor p page last world answered ends moves =>
    obtain ⟨rounds, worked, ledger⟩ := h
    refine ⟨rfl, rounds, cursor, p.calls, ⟨worked, ends, moves⟩, ?_, ledger⟩
    exact List.append_assoc p.calls [_] [_]
  | stall answered ends stays =>
    obtain ⟨rounds, worked, -⟩ := h
    exact .stall worked ends stays
  | failFetch =>
    obtain ⟨rounds, worked, -⟩ := h
    exact .failFetch worked
  | endLog =>
    obtain ⟨rounds, worked, ledger⟩ := h
    refine ⟨rfl, rounds, ?_⟩
    rw [ledger]
    exact .start worked
  | @malformedPage snapshot page last p e read =>
    obtain ⟨phase, rounds, cursor, calls, entered, hcalls, -⟩ := h
    change p.calls = _ at hcalls
    change Course settings (.failed ⟨_, p.phase⟩) p.calls
    rw [phase, hcalls]
    exact .malformedPage entered.worked entered.ends entered.moves read
  | @keepPage snapshot page last p cs read none =>
    obtain ⟨-, rounds, cursor, calls, entered, hcalls, hledger⟩ := h
    have complete : Round.Complete settings snapshot ⟨page, cs, [], []⟩ := by
      refine ⟨read, none ▸ .start, Nat.zero_le _, ?_, .inl rfl⟩
      simp [none]
    exact Entered.skip entered complete rfl hcalls hledger rfl rfl
  | @sparePage snapshot page last p cs read some safe =>
    obtain ⟨-, rounds, cursor, calls, entered, hcalls, hledger⟩ := h
    have complete :
        Round.Complete settings snapshot ⟨page, cs, [], (snapshot.judge cs).confirmed⟩ := by
      refine ⟨read, .start, Nat.zero_le _, ?_, .inr (.inl safe)⟩
      simp [safe]
    exact Entered.skip entered complete rfl hcalls hledger rfl rfl
  | @confirmPage snapshot page last p cs read some deletes =>
    obtain ⟨-, rounds, cursor, calls, entered, hcalls, hledger⟩ := h
    change p.calls = _ at hcalls
    change p.ledger = _ at hledger
    let round : Round := ⟨page, cs, [], (snapshot.judge cs).confirmed⟩
    refine ⟨rfl, rounds, cursor, calls, round, entered, ?_, ?_, rfl,
      ⟨read, .start, some, deletes, Nat.zero_add _⟩⟩
    · change p.calls ++ [_] = _
      rw [hcalls]
      exact List.append_assoc calls [_, _] [_]
    · change p.ledger.keptAll _ = _
      rw [hledger]
      rfl
  | @failDelete snapshot cursor retries batch p e world answered =>
    obtain ⟨phase, rounds, cursor, calls, round, entered, hcalls, -, rfl, deleting⟩ := h
    change p.calls = _ at hcalls
    change Course settings (.failed ⟨_, p.phase⟩) (p.calls ++ [_])
    rw [phase, hcalls]
    exact .failDelete entered.worked entered.ends entered.moves deleting
  | endDelete answered ends =>
    obtain ⟨-, rounds, cursor, calls, round, entered, hcalls, hledger, rfl, deleting⟩ := h
    exact entered.endDelete (deleting.complete ends) hcalls hledger rfl rfl
  | @repeatDelete snapshot last retries batch p report world answered some =>
    obtain ⟨phase, rounds, cursor, calls, round, entered, hcalls, hledger, rfl, deleting⟩ := h
    change p.ledger = _ at hledger
    refine ⟨phase, rounds, cursor, calls, round.again report, entered, ?_, ?_, rfl,
      deleting.again some⟩
    · change p.calls ++ [_] = _
      rw [Round.calls_again, ← List.append_assoc, ← hcalls]
    · change p.ledger.deletedAll _ = _
      rw [Round.deleted_again, TableLedger.deletedAll_append, hledger]
      rfl
  | removeDir =>
    obtain ⟨phase, rounds, cleaned⟩ := h
    exact ⟨phase, rounds, cleaned.remove _⟩
  | @failRemove snapshot table tables p e world answered =>
    obtain ⟨phase, rounds, cleaned⟩ := h
    change Course settings (.failed ⟨_, p.phase⟩) (p.calls ++ [_])
    rw [phase]
    exact .failRemove cleaned
  | finish =>
    obtain ⟨-, rounds, cleaned⟩ := h
    exact .done cleaned

variable (settings env) in
/-- Every pass goes one of the ways that are listed. -/
theorem course_run (budget : Nat) (world : σ) :
    Course settings (run settings env budget world).outcome
      (run settings env budget world).calls := by
  obtain ⟨c, onCourse, ends⟩ := run_invariant settings env
    (fun c => c.point.OnCourse settings c.progress) budget world ⟨rfl, rfl, rfl⟩
    fun c d h step => onCourse_step h step
  rw [ends.calls]
  rcases houtcome : (run settings env budget world).outcome with _ | failure | _
  · rw [ends.done houtcome] at onCourse
    exact onCourse
  · obtain ⟨point, phase⟩ := ends.failed failure houtcome
    rw [point] at onCourse
    rw [← show (⟨failure.cause, c.progress.phase⟩ : Failure) = failure by rw [phase]]
    exact onCourse
  · obtain ⟨snapshot, cursor, point⟩ := ends.unfinished houtcome
    rw [point] at onCourse
    obtain ⟨rounds, worked, -⟩ := onCourse
    exact .unfinished worked

end Pass

end TabletSweep
