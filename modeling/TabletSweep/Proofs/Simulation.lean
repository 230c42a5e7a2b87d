import TabletSweep.Proofs.Pass.Orderly
import TabletSweep.Proofs.Pass.Storage
import TabletSweep.Simulation.Environment

/-!
# What the environment of worlds in memory is

A world in memory is tame if none of the ways in which it can misbehave is in use but that deletions
fail, and the environment that answers from tame worlds is orderly (`environment_orderly`). A world
may also have a disk, and as long as no changes are planned the environment is on the volume of that
disk, in whatever other ways the world misbehaves (`environment_onVolume`).
-/

namespace TabletSweep.Simulation

/-- How many more times the deletion of a text fails. -/
def failuresLeft (failures : List (String × Nat)) (x : String) : Nat := (failures.lookup x).getD 0

/-- A world that serves pages of up to a cap from its log, has certain entries, blips and table ids,
and does not misbehave but for deletions that fail. -/
structure World.Tame (cap : Nat) (entries : List Entry) (blips ids : List String) (w : World) :
    Prop where
  references : w.references = entries
  blips : w.blips = blips
  tableIds : w.tableIds = ids
  pageCap : w.pageCap = some cap
  script : w.script = none
  cursor : w.ignoresCursor = false
  outages : w.outages = []
  referencesBreak : w.referencesBreak = none
  blipsBreak : w.blipsBreak = none
  extraFailed : w.extraFailed = []
  plan : w.plan = []
  disk : w.disk = none

/-- What is seen of tame worlds. -/
def tameView (cap : Nat) (entries : List Entry) (blips ids : List String) : View World where
  good := World.Tame cap entries blips ids
  log := World.log
  left w := failuresLeft w.deleteFailures

/-! ## Failing deletions -/

theorem failuresLeft_map (failures : List (String × Nat)) (literal x : String) :
    failuresLeft (failures.map fun f => if f.1 = literal then (f.1, f.2 - 1) else f) x =
      if x = literal then failuresLeft failures x - 1 else failuresLeft failures x := by
  unfold failuresLeft
  induction failures with
  | nil => simp
  | cons f failures ih =>
    obtain ⟨name, n⟩ := f
    rw [List.map_cons, List.lookup_cons]
    by_cases hname : name = literal
    · subst hname
      rw [if_pos rfl, List.lookup_cons]
      by_cases hx : x = name
      · subst hx
        simp
      · simpa [beq_eq_false_iff_ne.mpr hx, hx] using ih
    · rw [if_neg hname, List.lookup_cons]
      by_cases hx : x = name
      · subst hx
        simp [hname]
      · simpa [beq_eq_false_iff_ne.mpr hx] using ih

theorem spendFailure_eq (failures : List (String × Nat)) (literal : String) :
    (World.spendFailure failures literal).1 = decide (0 < failuresLeft failures literal) ∧
      ∀ x, failuresLeft (World.spendFailure failures literal).2 x =
        if x = literal then failuresLeft failures x - 1 else failuresLeft failures x := by
  unfold World.spendFailure
  split
  · rename_i hpos
    exact ⟨(decide_eq_true hpos).symm, failuresLeft_map failures literal⟩
  · rename_i hzero
    refine ⟨(decide_eq_false hzero).symm, fun x => ?_⟩
    split
    · rename_i hx
      subst hx
      change ¬0 < failuresLeft failures x at hzero
      change failuresLeft failures x = _
      omega
    · rfl

/-- Of candidates with distinct texts those fail whose texts have a failure left, and each text has
one failure less after it was tried. -/
theorem spendFailures_eq (failures : List (String × Nat)) {cs : List Candidate}
    (nodup : (cs.map (·.literal)).Nodup) :
    (World.spendFailures failures cs).1 =
        (cs.map (·.literal)).filter (0 < failuresLeft failures ·) ∧
      ∀ x, failuresLeft (World.spendFailures failures cs).2 x =
        if x ∈ cs.map (·.literal) then failuresLeft failures x - 1
        else failuresLeft failures x := by
  induction cs generalizing failures with
  | nil => exact ⟨rfl, fun x => rfl⟩
  | cons c cs ih =>
    obtain ⟨hnot, hnodup⟩ := List.nodup_cons.mp nodup
    obtain ⟨hfails, hspent⟩ := spendFailure_eq failures c.literal
    obtain ⟨hfailed, hrest⟩ := ih (World.spendFailure failures c.literal).2 hnodup
    -- The texts of the other candidates are not touched by the first.
    have others : ∀ x ∈ cs.map (·.literal),
        failuresLeft (World.spendFailure failures c.literal).2 x = failuresLeft failures x := by
      intro x hx
      rw [hspent, if_neg]
      rintro rfl
      exact hnot hx
    constructor
    · change (if (World.spendFailure failures c.literal).1 then
          c.literal :: (World.spendFailures (World.spendFailure failures c.literal).2 cs).1
        else (World.spendFailures (World.spendFailure failures c.literal).2 cs).1) = _
      rw [hfails, hfailed, List.map_cons, List.filter_cons]
      rw [List.filter_congr fun x hx => by rw [others x hx]]
    · intro x
      change failuresLeft (World.spendFailures (World.spendFailure failures c.literal).2 cs).2 x = _
      rw [hrest, hspent]
      by_cases hx : x = c.literal
      · subst hx
        simp [hnot]
      · simp [hx]

/-! ## Performing actions -/

/-- The second of two actions is performed where the first leads, unless that fails. -/
theorem perform_bind {σ α β : Type} (action : Action σ α) (next : α → Action σ β) (w : σ) :
    (action >>= next).perform w =
      match action.perform w with
      | (.ok a, w') => (next a).perform w'
      | (.error e, w') => (.error e, w') := by
  change (ExceptT.bindCont next (action.run.run w).1).run (action.run.run w).2 = _
  rcases h : action.run.run w with ⟨e | a, w'⟩ <;> simp only [Action.perform, h] <;> rfl

theorem perform_get {σ : Type} (w : σ) : (get : Action σ σ).perform w = (.ok w, w) := rfl

theorem perform_pure {σ α : Type} (a : α) (w : σ) :
    (pure a : Action σ α).perform w = (.ok a, w) := rfl

theorem perform_set {σ : Type} (w w' : σ) :
    (set w' : Action σ PUnit).perform w = (.ok ⟨⟩, w') := rfl

theorem perform_liftExcept {σ α : Type} (answer : Except ServiceError α) (w : σ) :
    (liftExcept answer : Action σ α).perform w = (answer, w) := by
  cases answer <;> rfl

/-! ## The environment of tame worlds -/

variable {cap : Nat} {entries : List Entry} {blips ids : List String} {w : World}

/-- The world once a request was counted. -/
def World.received (w : World) (request : Request) : World :=
  { w with asked := request :: w.asked }

theorem World.perform_receive (outages : w.outages = []) (request : Request) :
    (World.receive request).perform w = (.ok (w.asked.count request), w.received request) := by
  have none : w.outages.find?
      (fun o => o.request = request && o.number = w.asked.count request) = none := by
    rw [outages, List.find?_nil]
  unfold World.receive
  simp only [perform_bind, perform_get, none]
  rfl

theorem World.Tame.received (tame : w.Tame cap entries blips ids) (request : Request) :
    (tameView cap entries blips ids).Same w (w.received request) :=
  ⟨⟨tame.1, tame.2, tame.3, tame.4, tame.5, tame.6, tame.7, tame.8, tame.9, tame.10, tame.11,
    tame.12⟩, rfl, rfl⟩

theorem World.Tame.page_eq (tame : w.Tame cap entries blips ids) (number : Nat) (cursor : String)
    (limit : Nat) : w.page number cursor limit = (w.log.after cursor).take (min limit cap) := by
  simp only [World.page, tame.script, tame.cursor, tame.pageCap, Option.elim_some]
  rfl

theorem World.Tame.tries (tame : w.Tame cap entries blips ids) {batch : List Candidate}
    (nodup : (batch.map (·.literal)).Nodup) :
    (tameView cap entries blips ids).Tries batch w (w.deleteBatch batch).1
      (w.deleteBatch batch).2 := by
  obtain ⟨hfailed, hspent⟩ := spendFailures_eq w.deleteFailures nodup
  have hstored : w.deleteStored batch = ((World.spendFailures w.deleteFailures batch).1,
      { w with deleteFailures := (World.spendFailures w.deleteFailures batch).2 }) := by
    simp only [World.deleteStored, tame.disk]
  have hreport : (w.deleteBatch batch).1.failed =
      (batch.map (·.literal)).filter (0 < failuresLeft w.deleteFailures ·) := by
    simp only [World.deleteBatch, hstored, tame.extraFailed, List.append_nil, hfailed]
  have lists : ∀ c ∈ batch, (w.deleteBatch batch).1.lists c = true ↔
      0 < failuresLeft w.deleteFailures c.literal := by
    intro c hc
    rw [DeleteReport.lists, hreport, List.contains_iff_mem, List.mem_filter, decide_eq_true_iff]
    exact and_iff_right (List.mem_map_of_mem hc)
  have hworld : (w.deleteBatch batch).2 = { w with
      deleteFailures := (World.spendFailures w.deleteFailures batch).2
      log := w.log.eraseAll ((batch.map (·.literal)).filter
        (!(World.spendFailures w.deleteFailures batch).1.contains ·)) } := by
    simp only [World.deleteBatch, hstored]
  rw [hworld]
  refine ⟨⟨tame.1, tame.2, tame.3, tame.4, tame.5, tame.6, tame.7, tame.8, tame.9, tame.10, tame.11,
    tame.12⟩, lists, fun x => ?_, hspent⟩
  change x ∈ w.log.eraseAll _ ↔ x ∈ w.log ∧ _
  rw [NameSet.mem_eraseAll]
  refine and_congr_right fun _ => ?_
  rw [hfailed]
  constructor
  · rintro hgone c hc rfl
    rw [lists c hc]
    refine Nat.pos_of_ne_zero fun hzero => hgone ?_
    simp [hzero, List.mem_map_of_mem hc]
  · intro hlisted hgone
    obtain ⟨hmem, hnot⟩ := List.mem_filter.mp hgone
    obtain ⟨c, hc, rfl⟩ := List.mem_map.mp hmem
    have hpos := (lists c hc).mp (hlisted c hc rfl)
    simp only [Bool.not_eq_true', List.contains_eq_mem, decide_eq_false_iff_not, List.mem_filter,
      decide_eq_true_eq, not_and] at hnot
    exact hnot (List.mem_map_of_mem hc) hpos

/-- The environment of tame worlds is orderly. -/
theorem environment_orderly (cap : Nat) (entries : List Entry) (blips ids : List String) :
    Orderly environment (tameView cap entries blips ids) cap entries blips ids where
  references w tame := by
    refine ⟨_, ?_, tame.received .references⟩
    simp only [environment, perform_bind, perform_get, perform_pure,
      World.perform_receive tame.outages, World.received, tame.references, tame.referencesBreak]
    rfl
  blips w tame := by
    refine ⟨_, ?_, tame.received .blips⟩
    simp only [environment, perform_bind, perform_get, perform_pure,
      World.perform_receive tame.outages, World.received, tame.blips, tame.blipsBreak]
    rfl
  tableIds w tame := by
    refine ⟨_, ?_, tame.received .tableIds⟩
    simp only [environment, perform_bind, perform_get, perform_pure,
      World.perform_receive tame.outages, World.received, tame.tableIds]
  candidates w cursor limit tame := by
    have same := tame.received .candidates
    refine ⟨_, ?_, same⟩
    have unplanned : (w.received .candidates).advance (w.asked.count .candidates) =
        w.received .candidates := by
      simp [World.advance, World.received, tame.plan]
    simp only [environment, perform_bind, perform_get, perform_pure, perform_set,
      World.perform_receive tame.outages, unplanned, same.good.page_eq]
    rfl
  delete w batch tame nodup := by
    have tries := (tame.received .delete).good.tries nodup
    refine ⟨_, _, ?_, ⟨tries.good, tries.lists, tries.log, tries.left⟩⟩
    simp only [environment, perform_bind, World.perform_receive tame.outages]
    rfl
  removeTableDir w table tame := by
    refine ⟨false, _, ?_, tame.received .removeTableDir⟩
    simp only [environment, perform_bind, perform_get, perform_set,
      World.perform_receive tame.outages, World.removeTableDir, World.received, tame.disk]
    rfl
  countCandidates w n tame := ⟨tame, rfl, rfl⟩
  countInUse w n tame := ⟨tame, rfl, rfl⟩

/-! ## Worlds with a disk -/

/-- What is seen of worlds with a disk that holds a volume, in which no changes are planned. -/
def diskView (v : Volume) : TreeView World where
  good w := (∃ tree, w.disk = some ⟨v, tree⟩) ∧ w.plan = []
  tree w := w.disk.elim .empty (·.tree)

theorem World.same_of_disk_eq {v : Volume} {w w' : World} (good : (diskView v).good w)
    (disk : w'.disk = w.disk) (plan : w'.plan = w.plan) : (diskView v).Same w w' :=
  ⟨⟨disk ▸ good.1, plan ▸ good.2⟩, congrArg (Option.elim · Tree.empty Disk.tree) disk⟩

/-- Counting a request, or refusing it, changes neither the disk nor the plan. -/
theorem World.receive_same {v : Volume} (request : Request) (good : (diskView v).good w) :
    (diskView v).Same w ((World.receive request).perform w).2 := by
  unfold World.receive
  simp only [perform_bind, perform_get]
  split <;> exact World.same_of_disk_eq good rfl rfl

/-- A request that is refused changes as little as counting it does. -/
theorem World.receive_bind {v : Volume} {α : Type} (request : Request)
    (next : Nat → Action World α) (P : World → Prop) (good : (diskView v).good w)
    (refused : ∀ w', (diskView v).Same w w' → P w')
    (received : ∀ n w', (diskView v).Same w w' → P ((next n).perform w').2) :
    P ((World.receive request >>= next).perform w).2 := by
  have same := World.receive_same request good
  rw [perform_bind]
  rcases h : (World.receive request).perform w with ⟨e | n, w'⟩ <;> rw [h] at same
  · exact refused w' same
  · exact received n w' same

section Removals

variable {v : Volume} {tree : Tree} (disk : w.disk = some ⟨v, tree⟩)
include disk

theorem diskView_tree : (diskView v).tree w = tree := by
  simp only [diskView, disk, Option.elim_some]

theorem World.disk_deleteBatch (batch : List Candidate) :
    (w.deleteBatch batch).2.disk = some ⟨v, (v.deleteBatch tree batch).2⟩ := by
  simp only [World.deleteBatch, World.deleteStored, disk]

theorem World.plan_deleteBatch (batch : List Candidate) :
    (w.deleteBatch batch).2.plan = w.plan := by
  simp only [World.deleteBatch, World.deleteStored, disk]

theorem World.disk_removeTableDir (table : String) :
    (w.removeTableDir table).2.disk = some ⟨v, (v.removeTableDir tree table).2⟩ := by
  simp only [World.removeTableDir, disk]

theorem World.plan_removeTableDir (table : String) :
    (w.removeTableDir table).2.plan = w.plan := by
  simp only [World.removeTableDir, disk]

end Removals

/-- A request that removes something from the disk is carried out as the volume does it, or
refused. -/
theorem World.receive_remove {v : Volume} {α : Type} (request : Request)
    (Removes : Tree → Tree → Prop) (next : Nat → Action World α) (good : (diskView v).good w)
    (removed : ∀ n w' tree, w'.disk = some ⟨v, tree⟩ → w'.plan = [] →
      ∃ left, Removes tree left ∧ ((next n).perform w').2.disk = some ⟨v, left⟩ ∧
        ((next n).perform w').2.plan = []) :
    (diskView v).good ((World.receive request >>= next).perform w).2 ∧
      ((diskView v).tree ((World.receive request >>= next).perform w).2 = (diskView v).tree w ∨
        Removes ((diskView v).tree w)
          ((diskView v).tree ((World.receive request >>= next).perform w).2)) := by
  refine World.receive_bind request next (fun w' => (diskView v).good w' ∧
    ((diskView v).tree w' = (diskView v).tree w ∨
      Removes ((diskView v).tree w) ((diskView v).tree w'))) good ?_ ?_
  · intro w' same
    exact ⟨same.good, .inl same.tree⟩
  · intro n w' same
    obtain ⟨⟨tree, disk⟩, plan⟩ := same.good
    obtain ⟨left, removes, disk', plan'⟩ := removed n w' tree disk plan
    refine ⟨⟨⟨left, disk'⟩, plan'⟩, .inr ?_⟩
    rw [← same.tree, diskView_tree disk, diskView_tree disk']
    exact removes

/-- The environment of worlds with a disk, in which no changes are planned, is on the volume that
the disk holds. -/
theorem environment_onVolume (v : Volume) : OnVolume environment v (diskView v) where
  references w good :=
    World.receive_bind .references _ ((diskView v).Same w) good (fun _ same => same)
      fun _ _ same => same
  blips w good :=
    World.receive_bind .blips _ ((diskView v).Same w) good (fun _ same => same) fun _ _ same => same
  tableIds w good :=
    World.receive_bind .tableIds _ ((diskView v).Same w) good (fun _ same => same)
      fun _ _ same => same
  candidates w cursor limit good := by
    refine World.receive_bind .candidates _ ((diskView v).Same w) good (fun _ same => same) ?_
    intro n w' same
    have unplanned : w'.advance n = w' := by simp [World.advance, same.good.2]
    simp only [perform_bind, perform_get, perform_set, perform_pure, unplanned]
    exact same
  delete w batch good := by
    refine World.receive_remove .delete
      (fun tree left => ∃ report, v.Deletes tree batch report left) _ good ?_
    intro n w' tree disk plan
    exact ⟨_, ⟨_, v.deletes_deleteBatch tree batch⟩, World.disk_deleteBatch disk batch,
      (World.plan_deleteBatch disk batch).trans plan⟩
  removeTableDir w table good := by
    refine World.receive_remove .removeTableDir
      (fun tree left => left = (v.removeTableDir tree table).2) _ good ?_
    intro n w' tree disk plan
    simp only [perform_bind, perform_get, perform_set, perform_liftExcept]
    exact ⟨_, rfl, World.disk_removeTableDir disk table,
      (World.plan_removeTableDir disk table).trans plan⟩
  countCandidates w n good := ⟨good, rfl⟩
  countInUse w n good := ⟨good, rfl⟩

end TabletSweep.Simulation
