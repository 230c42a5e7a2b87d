import TabletSweep.Proofs.Pass.Delegation
import TabletSweep.Proofs.Pass.Retries
import TabletSweep.Proofs.Simulation.Disk

/-!
# Targets that are not there

A target that is gone already is to count as deleted. A volume tells so from the error of the
removal, and that has many kinds: the target is `Missing` if it is not found, be it that it does not
exist itself or a directory on its way does not, and `Blocked` if something else is in the way, as a
file where a directory is to be, a name that is too long or too many symbolic links. In either case
nothing exists at its path, but only what is missing counts as deleted
(`missing_counts_as_deleted_unless_blocked`); what is blocked is reported as failed, stays in the
log and keeps the directory of its table (`blocked_target_fails`).
-/

namespace TabletSweep

namespace Volume

/-- Nothing is found at the path of a target: it does not exist, or something on the way to it does
not. -/
def Missing (v : Volume) (t : Tree) (key : Key) : Prop :=
  t.locate (v.keyPath key) = .error .notFound

/-- Nothing exists at the path of a target, because the way to it cannot be followed for another
reason than that something does not exist. -/
def Blocked (v : Volume) (t : Tree) (key : Key) : Prop :=
  ∃ e, t.locate (v.keyPath key) = .error e ∧ e ≠ .notFound

variable {v : Volume} {t left : Tree} {key : Key} {c : Candidate} {batch : List Candidate}

theorem Missing.of_within (within : left.Within t) (missing : v.Missing t key) :
    v.Missing left key :=
  (within.locate _).notFound missing

/-- What is blocked is blocked in what is left of a tree, or missing. -/
theorem Blocked.of_within (within : left.Within t) (blocked : v.Blocked t key) :
    v.Blocked left key ∨ v.Missing left key := by
  obtain ⟨e, located, other⟩ := blocked
  exact (within.locate _).imp (fun same => ⟨e, same.trans located, other⟩) id

section Deletes

variable {report : DeleteReport} (deletes : v.Deletes t batch report left)
  (plain : ∀ c ∈ batch, c.key.IsPlain)
include deletes plain

/-- What a deletion reports was not missing before. -/
theorem Deletes.not_missing {literal : String} (failed : literal ∈ report.failed) :
    ∃ c ∈ batch, c.literal = literal ∧ ¬v.Missing t c.key := by
  obtain ⟨order, perm, rfl, -⟩ := deletes
  obtain ⟨before, c, after, rfl, rfl, refused⟩ := mem_failed_iff.mp failed
  have plain' : ∀ d ∈ before ++ c :: after, d.key.IsPlain :=
    fun d hd => plain d (perm.mem_iff.mp hd)
  refine ⟨c, perm.mem_iff.mp (by simp), rfl, fun missing => ?_⟩
  have within : (v.removeEach t before).2.Within t :=
    removeEach_within (fun d hd => plain' d (by simp [hd])) v t
  rw [removeKey_of_notFound v (plain' c (by simp)) (missing.of_within within)] at refused
  cases refused

/-- What is blocked stays blocked and is reported, unless the deletion takes away what blocks it. -/
theorem Deletes.reports_blocked (hc : c ∈ batch) (blocked : v.Blocked t c.key) :
    v.Blocked left c.key ∧ c.literal ∈ report.failed ∨ v.Missing left c.key := by
  refine (blocked.of_within (deletes.within plain)).imp_left fun stays => ⟨stays, ?_⟩
  by_contra unreported
  obtain ⟨e, located, other⟩ := stays
  rw [deletes.locate plain hc unreported] at located
  cases located
  exact other rfl

end Deletes

end Volume

namespace Pass

variable {σ : Type} {settings : Settings} {env : Environment σ} {v : Volume} {g : TreeView σ}
  {l : LogView σ} {cap : Nat} {start : Tree} {snapshot : Snapshot} {rounds : List Round}
  {round : Round} {cursor : String} {calls : List Call} {c : Candidate}

/-! ## Over a pass -/

/-- What is missing from the start is in no report of a pass. -/
theorem not_reported_of_missing (each : EachCall (Justified settings) calls)
    (reported : EachCall (Reported v start) calls) {batch : List Candidate} {report : DeleteReport}
    (mem : .delete batch (.ok report) ∈ calls) (hc : c ∈ batch) (missing : v.Missing start c.key) :
    c.literal ∉ report.failed := by
  obtain ⟨before, after, rfl⟩ := List.append_of_mem mem
  obtain ⟨t, left, evolves, deletes⟩ := reported before _ after rfl
  have plain := plainBatches_of_justified each
  have within : t.Within start := evolves.within (plain.of_subset (List.subset_append_left ..))
  intro failed
  obtain ⟨d, hd, same, present⟩ := deletes.not_missing (plain _ _ mem) failed
  -- The text of a candidate tells its key.
  obtain ⟨_, -, cleared⟩ := cleared_of_delete each rfl
  have key : d.key = c.key := by
    have read := cleared.read d hd
    rw [same, cleared.read c hc] at read
    exact (Except.ok.inj read).symm
  rw [key] at present
  exact present (missing.of_within within)

theorem Worked.delete_mem (worked : Worked settings snapshot rounds cursor calls)
    (hround : round ∈ rounds) {d : Deletion} (hd : d ∈ round.deletions) :
    .delete d.batch (.ok d.report) ∈ calls := by
  induction worked with
  | start => cases hround
  | round _ _ _ _ ih =>
    rcases List.mem_append.mp hround with earlier | last
    · exact List.mem_append_left _ (ih earlier)
    · obtain rfl := List.mem_singleton.mp last
      exact List.mem_append_right _ (List.mem_append_right _ (List.mem_map_of_mem hd))

/-- In a round that is over a candidate that may be deleted is deleted if no deletion reports it. -/
theorem mem_deleted_of_unreported (complete : round.Complete settings snapshot)
    (deletes : settings.safeMode = false) (hc : c ∈ round.candidates)
    (free : snapshot.frees c.key = true)
    (unreported : ∀ d ∈ round.deletions, c ∈ d.batch → c.literal ∉ d.report.failed) :
    ∃ d ∈ round.deletions, c ∈ deletedOf d.report d.batch := by
  have confirmed : c ∈ (snapshot.judge round.candidates).confirmed := by
    rw [Snapshot.judge_confirmed, List.mem_filter]
    exact ⟨hc, free⟩
  obtain ⟨d, ds, deletions⟩ : ∃ d ds, round.deletions = d :: ds := by
    refine List.exists_cons_of_ne_nil fun none => ?_
    rcases complete.none_iff.mp none with nothing | safe
    · rw [nothing] at confirmed
      cases confirmed
    · rw [deletes] at safe
      cases safe
  have mem : d ∈ round.deletions := by simp [deletions]
  have first : d.batch = (snapshot.judge round.candidates).confirmed :=
    complete.attempts.first d (by simp [deletions])
  rw [← first] at confirmed
  exact ⟨d, mem, mem_deletedOf.mpr ⟨confirmed, unreported d mem confirmed⟩⟩

variable (settings) in
/-- In whatever order a deletion goes through its batch, it does not report what is missing, be it the
target itself or a directory on the way to it. It reports what is blocked, unless it takes away what
blocks it. In a pass that has its targets on a volume a candidate that is missing from the start is in no report; in a round that is over it
is deleted and not retained, unless it is in use or nothing may be deleted, and it is not in the log
any more when the pass ends, unless a later deletion is refused as a whole. -/
theorem missing_counts_as_deleted_unless_blocked (delegates : Delegates env v g)
    (logged : Logged env l cap) (budget : Nat) (world : σ) (good : g.good world)
    (good' : l.good world) :
    (∀ t batch report left, (∀ c ∈ batch, c.key.IsPlain) → v.Deletes t batch report left →
        (∀ literal ∈ report.failed, ∃ c ∈ batch, c.literal = literal ∧ ¬v.Missing t c.key) ∧
        ∀ c ∈ batch, v.Blocked t c.key →
          v.Blocked left c.key ∧ c.literal ∈ report.failed ∨ v.Missing left c.key) ∧
      EachCall (Reported v (g.tree world)) (run settings env budget world).calls ∧
      (∀ batch report, .delete batch (.ok report) ∈ (run settings env budget world).calls →
        ∀ c ∈ batch, v.Missing (g.tree world) c.key → c.literal ∉ report.failed) ∧
      ∀ snapshot rounds cursor before after,
        (run settings env budget world).calls = before ++ after →
        Worked settings snapshot rounds cursor before →
        ∀ round ∈ rounds, ∀ c ∈ round.candidates, v.Missing (g.tree world) c.key →
          snapshot.frees c.key = true → settings.safeMode = false →
          ¬Retained settings (run settings env budget world).calls round c ∧
            c.literal ∈ deletedTexts (run settings env budget world).calls ∧
            ((∀ e phase, (run settings env budget world).outcome ≠
              .failed ⟨.environment .delete e, phase⟩) →
              c.literal ∉ l.log (run settings env budget world).world) := by
  have each := justified_calls_run settings env budget world
  have reported := reported_run settings delegates budget good
  refine ⟨fun t batch report left plain deletes => ⟨fun literal => deletes.not_missing plain,
    fun c hc => deletes.reports_blocked plain hc⟩, reported, fun batch report mem c hc =>
    not_reported_of_missing each reported mem hc, ?_⟩
  intro snapshot rounds cursor before after split worked round hround c hc missing free deletes
  have read : ReadIn settings snapshot (run settings env budget world).calls := by
    rw [split]
    exact worked.readIn.append
  have answered : ∀ d ∈ round.deletions,
      .delete d.batch (.ok d.report) ∈ (run settings env budget world).calls := by
    intro d hd
    rw [split]
    exact List.mem_append_left _ (worked.delete_mem hround hd)
  have unreported : ∀ d ∈ round.deletions, c ∈ d.batch → c.literal ∉ d.report.failed :=
    fun d hd hcd => not_reported_of_missing each reported (answered d hd) hcd missing
  have deleted : c.literal ∈ deletedTexts (run settings env budget world).calls := by
    obtain ⟨d, hd, gone⟩ :=
      mem_deleted_of_unreported (worked.complete round hround) deletes hc free unreported
    exact List.mem_flatMap.mpr ⟨_, answered d hd, List.mem_map_of_mem gone⟩
  refine ⟨?_, deleted, fun accounted => ?_⟩
  · have unheld : snapshot.frees c.key ≠ false := by simp [free]
    rintro (protects | marked | safe | ⟨d, last, hcd, failed⟩)
    · exact unheld ((read.frees_eq_false_iff each).mpr (.inl protects))
    · exact unheld ((read.frees_eq_false_iff each).mpr (.inr marked))
    · rw [deletes] at safe
      cases safe
    · exact unreported d (List.mem_of_getLast? last) hcd failed
  · rw [(keeps_run settings logged budget good' accounted).log, NameSet.mem_eraseAll]
    exact fun stays => stays.2 deleted

section Disk

open Simulation

/-- A volume on which neither a file of a table nor its tablet directory is there, nor another
tablet directory of that table, while a file of a second table is. -/
def missingWorld : World where
  log := ⟨["/4/t-0/A.rf", "/4/t-1", "/5/t-2/B.rf"], by decide +kernel⟩
  pageCap := some 2
  disk := some ⟨⟨"/vol", "tables"⟩, ⟨[
    (["vol"], .directory), (["vol", "tables"], .directory), (["vol", "tables", "4"], .directory),
    (["vol", "tables", "5"], .directory), (["vol", "tables", "5", "t-2"], .directory),
    (["vol", "tables", "5", "t-2", "B.rf"], .file)]⟩⟩

/-- The round of the first page: both candidates are handed out once, and none is reported. -/
def missingRound : Round :=
  let batch : List Candidate :=
    [⟨"/4/t-0/A.rf", ⟨"4", "t-0", some "A.rf"⟩⟩, ⟨"/4/t-1", ⟨"4", "t-1", none⟩⟩]
  ⟨["/4/t-0/A.rf", "/4/t-1"], batch, [⟨batch, .clean⟩], []⟩

/-- The candidates that are missing leave the log and are not retained. -/
theorem missing_candidates_leave_log :
    let v : Volume := ⟨"/vol", "tables"⟩
    let report := run {} environment 4 missingWorld
    v.Missing missingWorld.tree ⟨"4", "t-0", some "A.rf"⟩ ∧
      v.Missing missingWorld.tree ⟨"4", "t-1", none⟩ ∧
      ∀ c ∈ missingRound.candidates,
        c.literal ∉ report.world.log ∧ ¬Retained {} report.calls missingRound c := by
  intro v
  have done : (run {} environment 4 missingWorld).outcome = .done := by decide +kernel
  obtain ⟨rest, calls⟩ : ∃ rest, (run {} environment 4 missingWorld).calls =
      ([.references (.ok []) 0, .blips (.ok []) 0, .tableIds (.ok [])] ++
        missingRound.calls {} ⟨.empty, .empty, []⟩ "") ++ rest :=
    ⟨(run {} environment 4 missingWorld).calls.drop 7, by decide +kernel⟩
  have worked : Worked {} ⟨.empty, .empty, []⟩ [missingRound] "/4/t-1"
      ([.references (.ok []) 0, .blips (.ok []) 0, .tableIds (.ok [])] ++
        missingRound.calls {} ⟨.empty, .empty, []⟩ "") := by
    refine .round (.start rfl rfl) rfl (by decide) ⟨by decide +kernel, ?_, ?_, ?_, ?_⟩
    · exact .again .start (by decide) _
    · decide
    · decide
    · exact .inl rfl
  have free : ∀ c ∈ missingRound.candidates,
      (⟨.empty, .empty, []⟩ : Snapshot).frees c.key = true := by
    decide +kernel
  have missing : v.Missing missingWorld.tree ⟨"4", "t-0", some "A.rf"⟩ ∧
      v.Missing missingWorld.tree ⟨"4", "t-1", none⟩ := by
    unfold Volume.Missing
    decide +kernel
  have disked : missingWorld.Disked v 2 := ⟨⟨_, rfl⟩, rfl, rfl, rfl, rfl, rfl⟩
  obtain ⟨-, -, -, rounds⟩ := missing_counts_as_deleted_unless_blocked {}
    (environment_delegates v 2) (environment_logged v 2) 4 missingWorld disked disked
  refine ⟨missing.1, missing.2, fun c hc => ?_⟩
  have absent : v.Missing missingWorld.tree c.key := by
    rcases List.mem_cons.mp hc with rfl | hc
    · exact missing.1
    · obtain rfl := List.mem_singleton.mp hc
      exact missing.2
  obtain ⟨unretained, -, left⟩ := rounds _ _ _ _ rest calls worked missingRound
    (List.mem_singleton_self _) c hc absent (free c hc) rfl
  have accounted : ∀ e phase, (run {} environment 4 missingWorld).outcome ≠
      .failed ⟨.environment .delete e, phase⟩ := by
    rw [done]
    exact nofun
  have gone := left accounted
  dsimp only [logView] at gone
  exact ⟨gone, unretained⟩

/-- A file where a tablet directory is to be. -/
def blockedWorld : World where
  log := ⟨["/4/t-0/F.rf"], by decide +kernel⟩
  pageCap := some 2
  disk := some ⟨⟨"/vol", "tables"⟩, ⟨[
    (["vol"], .directory), (["vol", "tables"], .directory), (["vol", "tables", "4"], .directory),
    (["vol", "tables", "4", "t-0"], .file)]⟩⟩

/-- Nothing exists at the path of a file in what is a file itself, yet it is reported as failed, and
a pass leaves it in the log. -/
theorem blocked_target_fails :
    let v : Volume := ⟨"/vol", "tables"⟩
    let c : Candidate := ⟨"/4/t-0/F.rf", ⟨"4", "t-0", some "F.rf"⟩⟩
    Candidate.ofPage "tables" ["/4/t-0/F.rf"] = .ok [c] ∧
      blockedWorld.tree.resolve "/vol/tables/4/t-0/F.rf" = .error .notADirectory ∧
      (v.deleteBatch blockedWorld.tree [c]).1.failed = ["/4/t-0/F.rf"] ∧
      (run {} environment 3 blockedWorld).outcome = .done ∧
      (run {} environment 3 blockedWorld).world.log.toList = ["/4/t-0/F.rf"] := by
  intro v c
  have failed : (v.removeEach blockedWorld.tree [c]).1 = ["/4/t-0/F.rf"] := by decide +kernel
  refine ⟨by decide +kernel, by decide +kernel, ?_, by decide +kernel, by decide +kernel⟩
  exact Volume.failed_deleteBatch_eq (.of_eq failed) (by decide)

end Disk

end Pass

end TabletSweep
