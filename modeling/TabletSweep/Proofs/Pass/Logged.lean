import TabletSweep.Proofs.Pass.Orderly
import TabletSweep.Proofs.Pass.Termination

/-!
# Passes over a log that is kept in order

A log is kept in order if each of its pages holds the texts that follow the cursor, and if it loses
a text only by a deletion that does not report it as failed. That is all that `Logged` asks of an
environment: the scans may answer anything, any request may fail, and deletions may fail at whatever
they like.

It is then known at every point of a pass what the log holds, namely what has not been deleted since
the start (`keeps_run`), so each page is known from the calls before it (`draws_run`). Such a pass
is cut off only if it may not ask for more pages than the log has texts (`finished_of_draws`).
-/

namespace TabletSweep

variable {σ : Type}

/-- What is seen of the log of an environment. -/
structure LogView (σ : Type) where
  /-- Whether the environment can be in the state. -/
  good : σ → Prop
  /-- What the candidate log holds. -/
  log : σ → NameSet

namespace LogView

/-- The log is not changed. -/
structure Same (v : LogView σ) (w w' : σ) : Prop where
  good : v.good w'
  log : v.log w' = v.log w

/-- A deletion takes out of the log the candidates that it does not report as failed, and nothing
else. -/
structure Drops (v : LogView σ) (batch : List Candidate) (w : σ) (report : DeleteReport) (w' : σ) :
    Prop where
  good : v.good w'
  log : v.log w' = (v.log w).eraseAll ((Pass.deletedOf report batch).map (·.literal))

/-- The log holds what calls have not deleted of what it held at the start. -/
structure Keeps (v : LogView σ) (start : NameSet) (calls : List Call) (w : σ) : Prop where
  good : v.good w
  log : v.log w = start.eraseAll (Pass.deletedTexts calls)

end LogView

/-- An environment with a candidate log that is kept in order, and whose pages are cut off at a
cap. Whatever else is asked of the environment leaves the log as it is, be it answered or not. -/
structure Logged (env : Environment σ) (v : LogView σ) (cap : Nat) : Prop where
  references : ∀ w answer w', v.good w → env.references.perform w = (answer, w') → v.Same w w'
  blips : ∀ w answer w', v.good w → env.blips.perform w = (answer, w') → v.Same w w'
  tableIds : ∀ w answer w', v.good w → env.tableIds.perform w = (answer, w') → v.Same w w'
  candidates : ∀ w cursor limit answer w', v.good w →
    (env.candidates cursor limit).perform w = (answer, w') → v.Same w w'
  page : ∀ w cursor limit page w', v.good w →
    (env.candidates cursor limit).perform w = (.ok page, w') →
      page = ((v.log w).after cursor).take (min limit cap)
  delete : ∀ w batch report w', v.good w → (batch.map (·.literal)).Nodup →
    (env.delete batch).perform w = (.ok report, w') → v.Drops batch w report w'
  removeTableDir : ∀ w table answer w', v.good w →
    (env.removeTableDir table).perform w = (answer, w') → v.Same w w'
  countCandidates : ∀ w n, v.good w → v.Same w ((env.countCandidates n).run w).2
  countInUse : ∀ w n, v.good w → v.Same w ((env.countInUse n).run w).2

/-- What is seen of the log in a view. -/
def View.logView (v : View σ) : LogView σ := ⟨v.good, v.log⟩

theorem View.Same.logView {v : View σ} {w w' : σ} (same : v.Same w w') : v.logView.Same w w' :=
  ⟨same.good, same.log⟩

theorem View.Tries.drops {v : View σ} {batch : List Candidate} {w w' : σ} {report : DeleteReport}
    (tries : v.Tries batch w report w') : v.logView.Drops batch w report w' := by
  refine ⟨tries.good, NameSet.ext fun x => ?_⟩
  change x ∈ v.log w' ↔ x ∈ (v.log w).eraseAll _
  rw [tries.log, NameSet.mem_eraseAll, Pass.deletedOf]
  simp only [List.mem_map, List.mem_filter, Bool.not_eq_true', not_exists, not_and, and_imp]
  refine and_congr_right fun _ => forall₂_congr fun c hc => ?_
  cases report.lists c <;> simp

/-- The log of an orderly environment is kept in order. -/
theorem Orderly.logged {env : Environment σ} {v : View σ} {cap : Nat} {entries : List Entry}
    {blips ids : List String} (orderly : Orderly env v cap entries blips ids) :
    Logged env v.logView cap where
  references w answer w' good answered := by
    obtain ⟨_, answered', same⟩ := orderly.references w good
    cases answered'.symm.trans answered
    exact same.logView
  blips w answer w' good answered := by
    obtain ⟨_, answered', same⟩ := orderly.blips w good
    cases answered'.symm.trans answered
    exact same.logView
  tableIds w answer w' good answered := by
    obtain ⟨_, answered', same⟩ := orderly.tableIds w good
    cases answered'.symm.trans answered
    exact same.logView
  candidates w cursor limit answer w' good answered := by
    obtain ⟨_, answered', same⟩ := orderly.candidates w cursor limit good
    cases answered'.symm.trans answered
    exact same.logView
  page w cursor limit page w' good answered := by
    obtain ⟨_, answered', -⟩ := orderly.candidates w cursor limit good
    cases answered'.symm.trans answered
    rfl
  delete w batch report w' good nodup answered := by
    obtain ⟨_, _, answered', tries⟩ := orderly.delete w batch good nodup
    cases answered'.symm.trans answered
    exact tries.drops
  removeTableDir w table answer w' good answered := by
    obtain ⟨_, _, answered', same⟩ := orderly.removeTableDir w table good
    cases answered'.symm.trans answered
    exact same.logView
  countCandidates w n good := (orderly.countCandidates w n good).logView
  countInUse w n good := (orderly.countInUse w n good).logView

namespace NameSet

theorem eraseAll_eraseAll (s : NameSet) (xs ys : List String) :
    (s.eraseAll xs).eraseAll ys = s.eraseAll (xs ++ ys) := List.foldl_append.symm

end NameSet

namespace LogView.Keeps

variable {v : LogView σ} {start : NameSet} {calls : List Call} {w w' : σ}
  (keeps : v.Keeps start calls w)
include keeps

/-- A call that deletes nothing and leaves the log as it is. -/
theorem same {call : Call} (same : v.Same w w') (none : call.deletedTexts = []) :
    v.Keeps start (calls ++ [call]) w' := by
  refine ⟨same.good, ?_⟩
  rw [same.log, keeps.log, Pass.deletedTexts_append]
  simp only [Pass.deletedTexts, List.flatMap_singleton, none, List.append_nil]

theorem drops {batch : List Candidate} {report : DeleteReport}
    (drops : v.Drops batch w report w') :
    v.Keeps start (calls ++ [.delete batch (.ok report)]) w' := by
  refine ⟨drops.good, ?_⟩
  rw [drops.log, keeps.log, NameSet.eraseAll_eraseAll, Pass.deletedTexts_append]
  simp only [Pass.deletedTexts, List.flatMap_singleton, Call.deletedTexts]

end LogView.Keeps

namespace Pass

open PassM

variable {settings : Settings} {env : Environment σ} {v : LogView σ} {cap : Nat} {start : NameSet}
  {calls : List Call} {call : Call} {c d : Config σ} {w w' : σ}

/-! ## Pages that are drawn from a log -/

/-- A page that is served holds the texts that follow the cursor of what has not been deleted of a
log, as many as both the limit and the cap allow. -/
def Draws (start : NameSet) (cap : Nat) (before : List Call) : Call → Prop
  | .candidates cursor limit (.ok page) =>
    page = ((start.eraseAll (deletedTexts before)).after cursor).take (min limit cap)
  | _ => True

theorem Draws.mem {cursor x : String} {limit : Nat} {page : List String}
    (draws : Draws start cap calls (.candidates cursor limit (.ok page))) (hx : x ∈ page) :
    x ∈ start ∧ x ∉ deletedTexts calls ∧ cursor < x := by
  have hpage : page = ((start.eraseAll (deletedTexts calls)).after cursor).take _ := draws
  rw [hpage] at hx
  obtain ⟨left, beyond⟩ := NameSet.mem_after.mp (List.mem_of_mem_take hx)
  obtain ⟨mem, kept⟩ := NameSet.mem_eraseAll.mp left
  exact ⟨mem, kept, beyond⟩

/-- A page that is drawn from a log ascends, and begins after its cursor. -/
theorem Draws.follows (draws : Draws start cap calls call) : Follows calls call := by
  refine follows_of_take ?_
  rintro cursor limit page rfl
  exact ⟨_, _, draws⟩

section Draws

variable (draws : EachCall (Draws start cap) calls)
include draws

theorem follows_of_draws : EachCall Follows calls := draws.imp fun _ _ h => h.follows

/-- The pages that are drawn from a log show what is not deleted of it. -/
theorem shows_of_draws {x : String} (continues : EachCall (Continues settings) calls)
    (some_texts : 1 ≤ settings.batchSize) (cap_pos : 1 ≤ cap) (hx : x ∈ start)
    (kept : x ∉ deletedTexts calls) : EachCall (Shows x) calls := by
  rintro before call after rfl
  refine shows_of_take ?_
  rintro cursor limit page rfl
  obtain ⟨-, rfl⟩ := continues before _ after rfl
  rw [deletedTexts_append, List.mem_append, not_or] at kept
  exact ⟨_, _, Nat.le_min.mpr ⟨some_texts, cap_pos⟩, draws before _ after rfl,
    fun _ => NameSet.mem_eraseAll.mpr ⟨hx, kept.1⟩⟩

theorem mem_of_mem_pages {page : List String} (hpage : page ∈ pages calls) {x : String}
    (hx : x ∈ page) : x ∈ start := by
  obtain ⟨call, mem, served⟩ := List.mem_filterMap.mp hpage
  obtain ⟨cursor, limit, rfl⟩ := Call.page?_eq_some_iff.mp served
  obtain ⟨before, after, split⟩ := List.append_of_mem mem
  exact ((draws before _ after split).mem hx).1

end Draws

/-! ## Along the steps -/

/-- No text is at hand twice at a point of a pass. -/
def Point.Distinct : Point → Prop
  | .judge _ page _ => page.Nodup
  | .delete _ _ _ batch => (batch.map (·.literal)).Nodup
  | _ => True

/-- A point is not where a pass stops because a deletion was refused, which tells nothing of what
was deleted. -/
def Point.Accounted : Point → Prop
  | .failed (.environment .delete _) => False
  | _ => True

/-- In a configuration of a pass over a log that is kept in order it is known which pages were
served and, unless a deletion was refused, what the log holds. -/
structure Tracked (v : LogView σ) (cap : Nat) (start : NameSet) (c : Config σ) : Prop where
  draws : EachCall (Draws start cap) c.progress.calls
  distinct : c.point.Distinct
  keeps : c.point.Accounted → v.Keeps start c.progress.calls c.progress.world

theorem tracked_start {world : σ} (good : v.good world) :
    Tracked v cap (v.log world) ⟨.references, { world }⟩ :=
  ⟨eachCall_nil, trivial, fun _ => ⟨good, rfl⟩⟩

/-- A page is served from what is left of the log. -/
theorem draws_of_answered (logged : Logged env v cap) (keeps : v.Keeps start calls w)
    {cursor : String} {limit : Nat} {answer : Except ServiceError (List String)}
    (answered : (env.candidates cursor limit).perform w = (answer, w')) :
    Draws start cap calls (.candidates cursor limit answer) ∧
      v.Keeps start (calls ++ [.candidates cursor limit answer]) w' := by
  refine ⟨?_, keeps.same (logged.candidates w cursor limit answer w' keeps.good answered) rfl⟩
  cases answer with
  | error e => trivial
  | ok page =>
    have hpage := logged.page w cursor limit page w' keeps.good answered
    rw [keeps.log] at hpage
    exact hpage

/-- Every step keeps account of the log. -/
theorem tracked_step (logged : Logged env v cap) (h : Tracked v cap start c)
    (step : Step settings env c d) : Tracked v cap start d := by
  obtain ⟨draws, distinct, keeps⟩ := h
  cases step with
  | readReferences answered | failReferences answered =>
    exact ⟨eachCall_concat.mpr ⟨draws, trivial⟩, trivial, fun _ =>
      (keeps trivial).same (logged.references _ _ _ (keeps trivial).good answered) rfl⟩
  | readBlips answered | failBlips answered =>
    exact ⟨eachCall_concat.mpr ⟨draws, trivial⟩, trivial, fun _ =>
      (keeps trivial).same (logged.blips _ _ _ (keeps trivial).good answered) rfl⟩
  | readTableIds answered | failTableIds answered =>
    exact ⟨eachCall_concat.mpr ⟨draws, trivial⟩, trivial, fun _ =>
      (keeps trivial).same (logged.tableIds _ _ _ (keeps trivial).good answered) rfl⟩
  | fetchPage answered =>
    obtain ⟨hpage, served⟩ := draws_of_answered logged (keeps trivial) answered
    refine ⟨eachCall_concat.mpr ⟨eachCall_concat.mpr ⟨draws, hpage⟩, trivial⟩, ?_, fun _ => ?_⟩
    · exact hpage.follows.1.imp fun hlt => String.ne_of_lt hlt
    · exact served.same (logged.countCandidates _ _ served.good) rfl
  | stall answered | failFetch answered | endLog answered =>
    obtain ⟨hpage, served⟩ := draws_of_answered logged (keeps trivial) answered
    exact ⟨eachCall_concat.mpr ⟨draws, hpage⟩, trivial, fun _ => served⟩
  | malformedPage => exact ⟨draws, trivial, fun _ => keeps trivial⟩
  | keepPage | sparePage =>
    refine ⟨eachCall_concat.mpr ⟨draws, trivial⟩, trivial, fun _ => ?_⟩
    exact (keeps trivial).same (logged.countInUse _ _ (keeps trivial).good) rfl
  | confirmPage read =>
    refine ⟨eachCall_concat.mpr ⟨draws, trivial⟩, ?_, fun _ =>
      (keeps trivial).same (logged.countInUse _ _ (keeps trivial).good) rfl⟩
    obtain ⟨rfl, -⟩ := ofPage_eq_ok_iff.mp read
    rw [Snapshot.judge_confirmed]
    exact (List.filter_sublist.map _).nodup distinct
  | failDelete => exact ⟨eachCall_concat.mpr ⟨draws, trivial⟩, trivial, False.elim⟩
  | endDelete answered =>
    have drops := logged.delete _ _ _ _ (keeps trivial).good distinct answered
    exact ⟨eachCall_concat.mpr ⟨draws, trivial⟩, trivial, fun _ => (keeps trivial).drops drops⟩
  | repeatDelete answered =>
    have drops := logged.delete _ _ _ _ (keeps trivial).good distinct answered
    exact ⟨eachCall_concat.mpr ⟨draws, trivial⟩, (List.filter_sublist.map _).nodup distinct,
      fun _ => (keeps trivial).drops drops⟩
  | removeDir answered | failRemove answered =>
    exact ⟨eachCall_concat.mpr ⟨draws, trivial⟩, trivial, fun _ =>
      (keeps trivial).same (logged.removeTableDir _ _ _ _ (keeps trivial).good answered) rfl⟩
  | finish => exact ⟨draws, trivial, fun _ => keeps trivial⟩

/-! ## A run -/

variable {budget : Nat} {world : σ}

theorem exists_tracked_run (settings : Settings) (logged : Logged env v cap) (budget : Nat)
    (good : v.good world) :
    ∃ c, Tracked v cap (v.log world) c ∧ Ends (run settings env budget world) c :=
  run_invariant settings env (Tracked v cap (v.log world)) budget world (tracked_start good)
    fun _ _ h step => tracked_step logged h step

variable (settings) in
/-- Each page of a pass is drawn from what the pass has left of the log. -/
theorem draws_run (logged : Logged env v cap) (budget : Nat) (good : v.good world) :
    EachCall (Draws (v.log world) cap) (run settings env budget world).calls := by
  obtain ⟨c, tracked, ends⟩ := exists_tracked_run settings logged budget good
  rw [ends.calls]
  exact tracked.draws

variable (settings) in
/-- A pass leaves in the log what it has not deleted, unless a deletion was refused. -/
theorem keeps_run (logged : Logged env v cap) (budget : Nat) (good : v.good world)
    (accounted : ∀ e phase, (run settings env budget world).outcome ≠
      .failed ⟨.environment .delete e, phase⟩) :
    v.Keeps (v.log world) (run settings env budget world).calls
      (run settings env budget world).world := by
  obtain ⟨c, tracked, ends⟩ := exists_tracked_run settings logged budget good
  rw [ends.calls, ends.world]
  apply tracked.keeps
  match point : c.point with
  | .failed (.environment .delete e) =>
    cases houtcome : (run settings env budget world).outcome with
    | done => cases (ends.done houtcome).symm.trans point
    | unfinished =>
      obtain ⟨_, _, fetch⟩ := ends.unfinished houtcome
      cases fetch.symm.trans point
    | failed failure =>
      obtain ⟨cause, phase⟩ := failure
      cases (ends.failed _ houtcome).1.symm.trans point
      exact absurd houtcome (accounted e phase)
  | .failed (.environment .references _) | .failed (.environment .blips _)
  | .failed (.environment .tableIds _) | .failed (.environment .candidates _)
  | .failed (.environment .removeTableDir _) | .failed (.malformedPath _)
  | .failed (.malformedEntry _) | .failed (.stalled _) | .references | .blips _ | .tableIds ..
  | .fetch .. | .judge .. | .delete .. | .clean .. | .done => trivial

/-- A pass over a log that is kept in order is cut off only if it may not ask for more pages than
the log has texts. -/
theorem finished_of_draws
    (draws : EachCall (Draws (v.log world) cap) (run settings env budget world).calls)
    (enough : (v.log world).toList.length < budget) :
    (run settings env budget world).outcome ≠ .unfinished := by
  have distinct : (v.log world).toList.Nodup :=
    (v.log world).sorted.imp fun hlt => String.ne_of_lt hlt
  have drawn : ∀ page ∈ pages (run settings env budget world).calls, ∀ x ∈ page,
      x ∈ (v.log world).toList.toFinset := fun page hpage x hx =>
    List.mem_toFinset.mpr (mem_of_mem_pages draws hpage hx)
  refine finished_of_drawn drawn ?_
  rwa [List.toFinset_card_of_nodup distinct]

end Pass

end TabletSweep
