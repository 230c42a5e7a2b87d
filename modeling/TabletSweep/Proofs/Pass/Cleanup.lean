import TabletSweep.Proofs.Pass.Absences
import TabletSweep.Proofs.Volume.Vacancy

/-!
# Cleaning up on a volume

A volume can fail to remove the directory of a table, and that would end the pass. A pass asks for
it only if it has lost a tablet directory of the table by then (`Course.lost`), and nothing is found
any more where that was, in whatever order its batch was deleted (`Lost.locate`), so the way to the
directory of the table is open as far as it goes. On a volume without symbolic links that is enough:
no removal fails, and each takes away the directory if it is vacant, and nothing if it is not
(`cleanup_removes_vacant_directories`).
-/

namespace TabletSweep

namespace Pass

variable {settings : Settings} {snapshot : Snapshot} {rounds : List Round}
  {cursor table : String} {tables : List String} {calls more before after : List Call}
  {outcome : Outcome}

/-! ## What was deleted before -/

/-- A tablet directory of the table was deleted: an answered deletion was to delete it and does not
report it. -/
def Lost (calls : List Call) (table : String) : Prop :=
  ∃ batch report c, .delete batch (.ok report) ∈ calls ∧ c ∈ batch ∧ c.literal ∉ report.failed ∧
    c.key.isDirectory = true ∧ c.key.table = table

/-- The directory of a table is to be removed only after a tablet directory of the table was
deleted. -/
def AfterLoss (before : List Call) : Call → Prop
  | .removeTableDir table _ => Lost before table
  | _ => True

theorem Lost.append (h : Lost calls table) : Lost (calls ++ more) table := by
  obtain ⟨batch, report, c, mem, rest⟩ := h
  exact ⟨batch, report, c, List.mem_append_left more mem, rest⟩

/-- Nothing is to be shown of calls among which no directory of a table is to be removed. -/
theorem afterLoss_of_no_removal (none : ∀ call ∈ calls, call.removal? = none) :
    EachCall AfterLoss calls := by
  refine eachCall_nil.append fun call mem before => ?_
  cases call with
  | removeTableDir table answer => cases none _ mem
  | _ => trivial

theorem Worked.no_removal (worked : Worked settings snapshot rounds cursor calls) :
    ∀ call ∈ calls, call.removal? = none :=
  List.filterMap_eq_nil_iff.mp (removals_worked worked)

/-- A table that the ledger of some rounds lists as emptied was lost in one of them. -/
theorem Worked.lost (worked : Worked settings snapshot rounds cursor calls)
    (emptied : table ∈ (ledgerOf snapshot rounds).emptied) : Lost calls table := by
  obtain ⟨round, hround, c, deleted, directory, rfl⟩ := (mem_emptied_ledgerOf snapshot).mp emptied
  obtain ⟨d, hd, hc, unreported⟩ := mem_deleted.mp deleted
  exact ⟨d.batch, d.report, c, worked.delete_mem hround hd, hc, unreported, directory, rfl⟩

theorem Cleaned.lost (cleaned : Cleaned settings snapshot rounds tables calls) :
    EachCall AfterLoss calls ∧ ∀ table ∈ tables, Lost calls table := by
  induction cleaned with
  | start worked =>
    refine ⟨eachCall_concat.mpr ⟨afterLoss_of_no_removal worked.no_removal, trivial⟩, ?_⟩
    intro table removable
    exact (worked.lost (TableLedger.mem_removable.mp removable).1).append
  | remove earlier removed ih =>
    obtain ⟨each, lost⟩ := ih
    obtain ⟨first, others⟩ := List.forall_mem_cons.mp lost
    exact ⟨eachCall_concat.mpr ⟨each, first⟩, fun table mem => (others table mem).append⟩

/-- In every pass the directories that are to be removed are those of tables that have lost a tablet
directory before. -/
theorem Course.lost (course : Course settings outcome calls) : EachCall AfterLoss calls := by
  cases course with
  | failReferences | failBlips | failTableIds =>
    exact afterLoss_of_no_removal (by simp [Call.removal?])
  | unfinished worked => exact afterLoss_of_no_removal worked.no_removal
  | failFetch worked | stall worked =>
    exact eachCall_concat.mpr ⟨afterLoss_of_no_removal worked.no_removal, trivial⟩
  | malformedPage worked =>
    refine afterLoss_of_no_removal (List.forall_mem_append.mpr ⟨worked.no_removal, ?_⟩)
    simp [Call.removal?]
  | failDelete worked =>
    refine eachCall_concat.mpr ⟨afterLoss_of_no_removal ?_, trivial⟩
    refine List.forall_mem_append.mpr ⟨worked.no_removal, ?_⟩
    exact Round.forall_calls.mpr ⟨rfl, rfl, rfl, fun _ _ => rfl⟩
  | failRemove cleaned =>
    exact eachCall_concat.mpr ⟨cleaned.lost.1, cleaned.lost.2 _ (List.mem_cons_self ..)⟩
  | done cleaned => exact cleaned.lost.1

/-- A pass that fails while it cleans up has failed to remove a directory. -/
theorem Course.exists_failRemove {failure : Failure}
    (course : Course settings (.failed failure) calls) (phase : failure.phase = .cleaningTableDirs) :
    ∃ before table e, calls = before ++ [.removeTableDir table (.error e)] := by
  cases course with
  | failRemove => exact ⟨_, _, _, rfl⟩
  | _ => cases phase

/-! ## On a volume -/

variable {σ : Type} {env : Environment σ} {v : Volume} {g : TreeView σ} {start t left : Tree}

/-- Nothing is found any more at the path of a tablet directory that calls have deleted, whatever
tree they came to. -/
theorem Lost.locate (lost : Lost calls table) (carries : v.CarriesAll start calls t)
    (plain : PlainBatches calls) :
    ∃ key : Key, key.IsPlain ∧ key.isDirectory = true ∧ key.table = table ∧
      t.locate (v.keyPath key) = .error .notFound := by
  obtain ⟨batch, report, c, mem, hc, unreported, directory, rfl⟩ := lost
  refine ⟨c.key, plain _ _ mem c hc, directory, rfl, ?_⟩
  obtain ⟨before, after, rfl⟩ := List.append_of_mem mem
  obtain ⟨_, next, -, deletes, later⟩ := carries.split
  have gone : next.locate (v.keyPath c.key) = .error .notFound :=
    Volume.Deletes.locate (plain _ _ mem) deletes hc unreported
  have within : t.Within next := within_of_carriesAll later <| plain.of_subset <|
    List.subset_append_of_subset_right before (List.subset_cons_self ..)
  exact (within.locate _).notFound gone

/-- The directory of a table is removed if it is vacant in the tree that the calls before have come
to, and the tree stays as it is if not. -/
theorem removed_iff_vacant {answer : Except ServiceError Bool}
    (justified : EachCall (Justified settings) calls) (lost : EachCall AfterLoss calls)
    (linkless : start.Linkless) (split : calls = before ++ .removeTableDir table answer :: after)
    (carries : v.CarriesAll start before t)
    (removal : v.Carries t (.removeTableDir table answer) left) :
    v.Vacant t table ∧ answer = .ok true ∧ left = t.erase (v.tablePlace table) ∨
      ¬v.Vacant t table ∧ answer = .ok false ∧ left = t := by
  have plain : PlainBatches before := by
    refine (plainBatches_of_justified justified).of_subset ?_
    rw [split]
    exact List.subset_append_left ..
  obtain ⟨key, named, directory, rfl, gone⟩ := (lost before _ after split).locate carries plain
  have still : t.Linkless := (within_of_carriesAll carries plain).linkless linkless
  obtain ⟨rfl, rfl⟩ := removal
  rcases Volume.removeTableDir_of_notFound still named directory gone with
    ⟨vacant, removed⟩ | ⟨occupied, removed⟩
  · rw [removed]
    exact .inl ⟨vacant, rfl, rfl⟩
  · rw [removed]
    exact .inr ⟨occupied, rfl, rfl⟩

variable (settings) in
/-- In a pass whose removals are left to a volume without symbolic links, the calls carry the tree at
the start to the tree at the end, in whatever orders their batches were deleted. Whatever tree they
have come to by then, each removal of a table's directory takes that directory away if it is vacant,
and leaves the tree as it is if not. No removal fails, and a pass never fails while it cleans up. -/
theorem cleanup_removes_vacant_directories (entrusts : Entrusts env v g) (budget : Nat) (world : σ)
    (good : g.good world) (linkless : (g.tree world).Linkless) :
    v.CarriesAll (g.tree world) (run settings env budget world).calls
        (g.tree (run settings env budget world).world) ∧
      (∀ before table answer after,
        (run settings env budget world).calls = before ++ .removeTableDir table answer :: after →
        ∀ t left, v.CarriesAll (g.tree world) before t →
          v.Carries t (.removeTableDir table answer) left →
            v.Vacant t table ∧ answer = .ok true ∧ left = t.erase (v.tablePlace table) ∨
              ¬v.Vacant t table ∧ answer = .ok false ∧ left = t) ∧
      (∀ table e, .removeTableDir table (.error e) ∉ (run settings env budget world).calls) ∧
      ∀ failure, (run settings env budget world).outcome = .failed failure →
        failure.phase ≠ .cleaningTableDirs := by
  have carried := carried_run settings entrusts budget good
  have justified := justified_calls_run settings env budget world
  have course := course_run settings env budget world
  have answered : ∀ table e,
      .removeTableDir table (.error e) ∉ (run settings env budget world).calls := by
    intro table e mem
    obtain ⟨before, after, split⟩ := List.append_of_mem mem
    have carries := carried.carries
    rw [split] at carries
    obtain ⟨t, left, earlier, removal, -⟩ := carries.split
    rcases removed_iff_vacant justified course.lost linkless split earlier removal with
      ⟨-, ⟨⟩, -⟩ | ⟨-, ⟨⟩, -⟩
  refine ⟨carried.carries, fun before table answer after split t left => ?_, answered,
    fun failure failed phase => ?_⟩
  · exact removed_iff_vacant justified course.lost linkless split
  · rw [failed] at course
    obtain ⟨before, table, e, split⟩ := course.exists_failRemove phase
    exact answered table e (by simp [split])

section Disk

open Simulation

/-- A volume with the directories of two tables, one of which holds a stray file beside its tablet
directory, and with a file where the directory of a third is to be. Nothing is left of a fourth. -/
def strayWorld : World where
  log := ⟨["/4/t-0", "/5/t-1", "/6/t-2", "/7/t-3"], by decide +kernel⟩
  pageCap := some 2
  disk := some ⟨⟨"/vol", "tables"⟩, ⟨[
    (["vol"], .directory), (["vol", "tables"], .directory),
    (["vol", "tables", "4"], .directory), (["vol", "tables", "4", "t-0"], .directory),
    (["vol", "tables", "4", "t-0", "A.rf"], .file),
    (["vol", "tables", "5"], .directory), (["vol", "tables", "5", "t-1"], .directory),
    (["vol", "tables", "5", "notes"], .file), (["vol", "tables", "7"], .file)]⟩⟩

/-- Of the three directories that are to be removed one is vacant by then, one has the stray file in
it, and one is not there. The file in the place of a directory is not touched. -/
theorem vacant_directory_is_removed :
    let v : Volume := ⟨"/vol", "tables"⟩
    let report := run {} environment 4 strayWorld
    ∃ before t left, report.calls = before ++ [.removeTableDir "4" (.ok true),
        .removeTableDir "5" (.ok false), .removeTableDir "6" (.ok false)] ∧
      v.CarriesAll strayWorld.tree before t ∧ v.Vacant t "4" ∧
      left = t.erase (v.tablePlace "4") ∧ ¬v.Vacant left "5" ∧
      v.CarriesAll left [.removeTableDir "5" (.ok false), .removeTableDir "6" (.ok false)]
        report.world.tree ∧
      report.world.tree.entries = [
        (["vol"], .directory), (["vol", "tables"], .directory), (["vol", "tables", "5"], .directory),
        (["vol", "tables", "5", "notes"], .file), (["vol", "tables", "7"], .file)] := by
  intro v report
  have quiet : (quietView v 2).good strayWorld := ⟨⟨⟨_, rfl⟩, rfl, rfl, rfl, rfl, rfl⟩, rfl⟩
  obtain ⟨carries, removals, -⟩ := cleanup_removes_vacant_directories {} (environment_entrusts v 2) 4
    strayWorld quiet (Tree.linkless_of_entries (by decide +kernel))
  obtain ⟨before, split⟩ : ∃ before, report.calls = before ++ [.removeTableDir "4" (.ok true),
      .removeTableDir "5" (.ok false), .removeTableDir "6" (.ok false)] :=
    ⟨report.calls.take 12, by decide +kernel⟩
  have split' : report.calls = (before ++ [.removeTableDir "4" (.ok true)]) ++
      .removeTableDir "5" (.ok false) :: [.removeTableDir "6" (.ok false)] := by
    rw [split, List.append_assoc]
    rfl
  dsimp only [quietView] at carries removals
  have whole : v.CarriesAll strayWorld.tree report.calls report.world.tree := carries
  rw [split] at whole
  obtain ⟨t, left, earlier, first, later⟩ := whole.split
  obtain ⟨left', second, -⟩ := later.of_cons
  obtain ⟨vacant, erased⟩ : v.Vacant t "4" ∧ left = t.erase (v.tablePlace "4") := by
    rcases removals before _ _ _ split t left earlier first with ⟨vacant, -, erased⟩ | ⟨-, ⟨⟩, -⟩
    exact ⟨vacant, erased⟩
  have occupied : ¬v.Vacant left "5" := by
    rcases removals _ _ _ _ split' left left' (earlier.concat first) second with
      ⟨-, ⟨⟩, -⟩ | ⟨occupied, -⟩
    exact occupied
  exact ⟨before, t, left, split, earlier, vacant, erased, occupied, later, by decide +kernel⟩

end Disk

end Pass

end TabletSweep
