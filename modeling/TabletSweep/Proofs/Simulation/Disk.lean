import TabletSweep.Proofs.Pass.Delegation
import TabletSweep.Proofs.Pass.Logged
import TabletSweep.Proofs.Simulation

/-!
# Worlds that keep their targets on a disk

A world is disked if it has a volume, serves pages of up to a cap from its log, reports of a
deletion what the volume reports, and plans no changes. Its scans may break and its requests may be
refused. The environment of such worlds keeps its log in order (`environment_logged`) and delegates
its deletions to the volume (`environment_delegates`). If no request is to be refused, it entrusts
all that is on the disk to the volume (`environment_entrusts`).
-/

namespace TabletSweep.Simulation

/-- A world that has a volume, serves pages of up to a cap from its log, and neither plans changes
nor adds to the reports of the volume. -/
structure World.Disked (v : Volume) (cap : Nat) (w : World) : Prop where
  disk : ∃ tree, w.disk = some ⟨v, tree⟩
  pageCap : w.pageCap = some cap
  script : w.script = none
  cursor : w.ignoresCursor = false
  extraFailed : w.extraFailed = []
  plan : w.plan = []

/-- The tree on the disk of a world. -/
def World.tree (w : World) : Tree := w.disk.elim .empty Disk.tree

/-- What is seen of the trees of disked worlds. -/
def treeView (v : Volume) (cap : Nat) : TreeView World := ⟨World.Disked v cap, World.tree⟩

/-- What is seen of the logs of disked worlds. -/
def logView (v : Volume) (cap : Nat) : LogView World := ⟨World.Disked v cap, World.log⟩

variable {v : Volume} {cap : Nat} {w w' : World} {α : Type}

/-- A disked world after a request that changes neither its log nor its disk. -/
structure World.Rests (v : Volume) (cap : Nat) (w w' : World) : Prop where
  disked : w'.Disked v cap
  log : w'.log = w.log
  disk : w'.disk = w.disk

theorem World.Rests.tree (rests : w.Rests v cap w') : (treeView v cap).Same w w' :=
  ⟨rests.disked, congrArg (Option.elim · Tree.empty Disk.tree) rests.disk⟩

theorem World.Rests.logged (rests : w.Rests v cap w') : (logView v cap).Same w w' :=
  ⟨rests.disked, rests.log⟩

namespace World.Disked

variable (disked : w.Disked v cap)
include disked

/-- Counting a request, or refusing it, changes neither the log nor the disk. -/
theorem rests_receive (request : Request) :
    w.Rests v cap ((World.receive request).perform w).2 := by
  obtain ⟨disk, pageCap, script, cursor, extraFailed, plan⟩ := disked
  unfold World.receive
  simp only [perform_bind, perform_get]
  split <;> exact ⟨⟨disk, pageCap, script, cursor, extraFailed, plan⟩, rfl, rfl⟩

/-- What a request comes to in a disked world: it is refused, or it is counted and carried out. -/
theorem receive (request : Request) (next : Nat → Action World α)
    (P : Except ServiceError α × World → Prop)
    (refused : ∀ e w', w.Rests v cap w' → P (.error e, w'))
    (received : ∀ n w', w.Rests v cap w' → P ((next n).perform w')) :
    P ((World.receive request >>= next).perform w) := by
  have rests := disked.rests_receive request
  rw [perform_bind]
  rcases h : (World.receive request).perform w with ⟨e | n, w'⟩ <;> rw [h] at rests
  · exact refused e w' rests
  · exact received n w' rests

theorem page_eq (number : Nat) (cursor : String) (limit : Nat) :
    w.page number cursor limit = (w.log.after cursor).take (min limit cap) := by
  simp only [World.page, disked.script, disked.cursor, disked.pageCap, Option.elim_some]
  rfl

theorem references : w.Rests v cap (environment.references.perform w).2 :=
  disked.receive .references _ (fun r => w.Rests v cap r.2) (fun _ _ rests => rests)
    fun _ _ rests => rests

theorem blips : w.Rests v cap (environment.blips.perform w).2 :=
  disked.receive .blips _ (fun r => w.Rests v cap r.2) (fun _ _ rests => rests)
    fun _ _ rests => rests

theorem tableIds : w.Rests v cap (environment.tableIds.perform w).2 :=
  disked.receive .tableIds _ (fun r => w.Rests v cap r.2) (fun _ _ rests => rests)
    fun _ _ rests => rests

/-- A page is served from the log. -/
theorem candidates (cursor : String) (limit : Nat) :
    w.Rests v cap ((environment.candidates cursor limit).perform w).2 ∧
      ∀ page, ((environment.candidates cursor limit).perform w).1 = .ok page →
        page = (w.log.after cursor).take (min limit cap) := by
  refine disked.receive .candidates _ (fun r => w.Rests v cap r.2 ∧ ∀ page, r.1 = .ok page →
    page = (w.log.after cursor).take (min limit cap)) (fun _ _ rests => ⟨rests, nofun⟩) ?_
  intro number w' rests
  have unplanned : w'.advance number = w' := by simp [World.advance, rests.disked.plan]
  simp only [perform_bind, perform_get, perform_set, perform_pure, unplanned]
  refine ⟨rests, ?_⟩
  rintro page ⟨⟩
  rw [rests.disked.page_eq, rests.log]

/-- A deletion that is carried out is reported as the volume reports it, by a single worker, and
drops from the log what is not reported. -/
theorem deleteBatch (batch : List Candidate) :
    (w.deleteBatch batch).1 = (v.deleteBatch w.tree batch).1 ∧
      (w.deleteBatch batch).2.Disked v cap ∧
      (w.deleteBatch batch).2.tree = (v.deleteBatch w.tree batch).2 ∧
      (w.deleteBatch batch).2.log = w.log.eraseAll
        ((Pass.deletedOf (v.deleteBatch w.tree batch).1 batch).map (·.literal)) := by
  obtain ⟨⟨tree, disk⟩, pageCap, script, cursor, extraFailed, plan⟩ := disked
  have here : w.tree = tree := by rw [World.tree, disk, Option.elim_some]
  have stored : w.deleteStored batch = ((v.deleteBatch tree batch).1.failed,
      { w with disk := some ⟨v, (v.deleteBatch tree batch).2⟩ }) := by
    simp only [World.deleteStored, disk]
  have dropped : (batch.map (·.literal)).filter
        (fun x => !(v.deleteBatch tree batch).1.failed.contains x) =
      (Pass.deletedOf (v.deleteBatch tree batch).1 batch).map (·.literal) := by
    rw [List.filter_map]
    rfl
  rw [here]
  simp only [World.deleteBatch, stored, extraFailed, List.append_nil, dropped]
  exact ⟨trivial, ⟨⟨_, rfl⟩, pageCap, script, cursor, rfl, plan⟩, rfl, trivial⟩

/-- A deletion is refused, or it is carried out. -/
theorem delete (batch : List Candidate) :
    (∃ e, ((environment.delete batch).perform w).1 = .error e ∧
        w.Rests v cap ((environment.delete batch).perform w).2) ∨
      ∃ w', w.Rests v cap w' ∧ ((environment.delete batch).perform w) =
        (.ok (w'.deleteBatch batch).1, (w'.deleteBatch batch).2) :=
  disked.receive .delete _ (fun r => (∃ e, r.1 = .error e ∧ w.Rests v cap r.2) ∨
    ∃ w', w.Rests v cap w' ∧ r = (.ok (w'.deleteBatch batch).1, (w'.deleteBatch batch).2))
    (fun e _ rests => .inl ⟨e, rfl, rests⟩) fun _ w' rests => .inr ⟨w', rests, rfl⟩

/-- The directory of a table stays, or is removed as the volume does it. -/
theorem removeTableDir (table : String) :
    ((environment.removeTableDir table).perform w).2.Disked v cap ∧
      ((environment.removeTableDir table).perform w).2.log = w.log ∧
      (((environment.removeTableDir table).perform w).2.tree = w.tree ∨
        ((environment.removeTableDir table).perform w).2.tree =
          (v.removeTableDir w.tree table).2) := by
  refine disked.receive .removeTableDir _ (fun r => r.2.Disked v cap ∧ r.2.log = w.log ∧
    (r.2.tree = w.tree ∨ r.2.tree = (v.removeTableDir w.tree table).2))
    (fun _ _ rests => ⟨rests.disked, rests.log, .inl rests.tree.tree⟩) ?_
  intro n w' rests
  obtain ⟨⟨tree, disk⟩, pageCap, script, cursor, extraFailed, plan⟩ := rests.disked
  have here : w.tree = tree := by
    rw [World.tree, ← rests.disk, disk, Option.elim_some]
  rw [here]
  simp only [perform_bind, perform_get, perform_set, perform_liftExcept, World.removeTableDir, disk]
  exact ⟨⟨⟨_, rfl⟩, pageCap, script, cursor, extraFailed, plan⟩, rests.log, .inr rfl⟩

end World.Disked

/-- A deletion that is carried out does to the disk what the volume does. -/
theorem World.Rests.deletes (rests : w.Rests v cap w') (batch : List Candidate) :
    v.Deletes w.tree batch (w'.deleteBatch batch).1 (w'.deleteBatch batch).2.tree := by
  obtain ⟨reported, -, tree, -⟩ := rests.disked.deleteBatch batch
  have same : w'.tree = w.tree := rests.tree.tree
  rw [reported, tree, same]
  exact v.deletes_deleteBatch w.tree batch

/-- The environment of disked worlds keeps its log in order. -/
theorem environment_logged (v : Volume) (cap : Nat) : Logged environment (logView v cap) cap where
  references w answer w' disked answered := by
    have rests := World.Disked.references disked
    rw [answered] at rests
    exact rests.logged
  blips w answer w' disked answered := by
    have rests := World.Disked.blips disked
    rw [answered] at rests
    exact rests.logged
  tableIds w answer w' disked answered := by
    have rests := World.Disked.tableIds disked
    rw [answered] at rests
    exact rests.logged
  candidates w cursor limit answer w' disked answered := by
    have rests := (World.Disked.candidates disked cursor limit).1
    rw [answered] at rests
    exact rests.logged
  page w cursor limit page w' disked answered := by
    refine (World.Disked.candidates disked cursor limit).2 page ?_
    rw [answered]
  delete w batch report w' disked _ answered := by
    rcases World.Disked.delete disked batch with ⟨e, refused, -⟩ | ⟨w₁, rests, performed⟩
    · rw [answered] at refused
      cases refused
    · obtain ⟨reported, disked', -, log⟩ := rests.disked.deleteBatch batch
      rw [← reported, rests.log] at log
      cases answered.symm.trans performed
      exact ⟨disked', log⟩
  removeTableDir w table answer w' disked answered := by
    obtain ⟨disked', log, -⟩ := World.Disked.removeTableDir disked table
    rw [answered] at disked' log
    exact ⟨disked', log⟩
  countCandidates w n disked := ⟨disked, rfl⟩
  countInUse w n disked := ⟨disked, rfl⟩

/-- The environment of disked worlds delegates its deletions to the volume. -/
theorem environment_delegates (v : Volume) (cap : Nat) :
    Delegates environment v (treeView v cap) where
  references _ disked := (World.Disked.references disked).tree
  blips _ disked := (World.Disked.blips disked).tree
  tableIds _ disked := (World.Disked.tableIds disked).tree
  candidates _ cursor limit disked := (World.Disked.candidates disked cursor limit).1.tree
  delete w batch disked := by
    rcases World.Disked.delete disked batch with ⟨e, -, rests⟩ | ⟨w₁, rests, performed⟩
    · exact ⟨rests.disked, .inl rests.tree.tree⟩
    · obtain ⟨-, disked', -, -⟩ := rests.disked.deleteBatch batch
      rw [performed]
      exact ⟨disked', .inr ⟨_, rests.deletes batch⟩⟩
  removeTableDir w table disked := by
    obtain ⟨disked', -, tree⟩ := World.Disked.removeTableDir disked table
    exact ⟨disked', tree⟩
  countCandidates w n disked := ⟨disked, rfl⟩
  countInUse w n disked := ⟨disked, rfl⟩
  answers w batch report w' disked answered := by
    rcases World.Disked.delete disked batch with ⟨e, refused, -⟩ | ⟨w₁, rests, performed⟩
    · rw [answered] at refused
      cases refused
    · cases answered.symm.trans performed
      exact rests.deletes batch

/-! ## Disked worlds without outages -/

/-- What is seen of the trees of disked worlds in which no request is refused. -/
def quietView (v : Volume) (cap : Nat) : TreeView World where
  good w := w.Disked v cap ∧ w.outages = []
  tree := World.tree

/-- Without outages a request is counted and carried out. -/
theorem World.receive_quiet (quiet : w.outages = []) (request : Request)
    (next : Nat → Action World α) (P : Except ServiceError α × World → Prop)
    (received : P ((next (w.asked.count request)).perform (w.received request))) :
    P ((World.receive request >>= next).perform w) := by
  rw [perform_bind, World.perform_receive quiet]
  exact received

theorem World.Rests.quiet (rests : w.Rests v cap w') (quiet : w'.outages = []) :
    (quietView v cap).Same w w' :=
  ⟨⟨rests.disked, quiet⟩, rests.tree.tree⟩

section Quiet

variable (good : (quietView v cap).good w)
include good

theorem quiet_candidates (cursor : String) (limit : Nat) :
    ((environment.candidates cursor limit).perform w).2.outages = [] := by
  refine World.receive_quiet good.2 .candidates _ (·.2.outages = []) ?_
  have unplanned : (w.received .candidates).advance (w.asked.count .candidates) =
      w.received .candidates := by
    simp [World.advance, World.received, good.1.plan]
  simp only [perform_bind, perform_get, perform_set, perform_pure, unplanned]
  exact good.2

/-- Without outages a deletion is answered. -/
theorem quiet_delete (batch : List Candidate) :
    (∃ report, ((environment.delete batch).perform w).1 = .ok report) ∧
      ((environment.delete batch).perform w).2.outages = [] := by
  refine World.receive_quiet good.2 .delete _ (fun r => (∃ report, r.1 = .ok report) ∧
    r.2.outages = []) ⟨⟨_, rfl⟩, ?_⟩
  change ((w.received .delete).deleteBatch batch).2.outages = []
  simp only [World.deleteBatch, World.deleteStored]
  split <;> exact good.2

/-- Without outages the removal of a table's directory is carried out by the volume. -/
theorem quiet_removeTableDir (table : String) :
    ((environment.removeTableDir table).perform w).1 =
        (v.removeTableDir w.tree table).1.mapError (fun e => .io e.toIoError) ∧
      ((environment.removeTableDir table).perform w).2.tree =
        (v.removeTableDir w.tree table).2 ∧
      ((environment.removeTableDir table).perform w).2.outages = [] := by
  obtain ⟨tree, disk⟩ := good.1.disk
  have here : w.tree = tree := by rw [World.tree, disk, Option.elim_some]
  rw [here]
  refine World.receive_quiet good.2 .removeTableDir _ (fun r =>
    r.1 = (v.removeTableDir tree table).1.mapError (fun e => .io e.toIoError) ∧
      r.2.tree = (v.removeTableDir tree table).2 ∧ r.2.outages = []) ?_
  simp only [perform_bind, perform_get, perform_set, perform_liftExcept, World.removeTableDir,
    World.received, disk]
  exact ⟨trivial, rfl, good.2⟩

end Quiet

/-- Without outages the environment of disked worlds entrusts what is on the disk to the volume. -/
theorem environment_entrusts (v : Volume) (cap : Nat) :
    Entrusts environment v (quietView v cap) where
  references w good := (World.Disked.references good.1).quiet
    (World.receive_quiet good.2 .references _ (·.2.outages = []) good.2)
  blips w good := (World.Disked.blips good.1).quiet
    (World.receive_quiet good.2 .blips _ (·.2.outages = []) good.2)
  tableIds w good := (World.Disked.tableIds good.1).quiet
    (World.receive_quiet good.2 .tableIds _ (·.2.outages = []) good.2)
  candidates w cursor limit good :=
    (World.Disked.candidates good.1 cursor limit).1.quiet (quiet_candidates good cursor limit)
  delete w batch good := by
    obtain ⟨disked, tree⟩ := (environment_delegates v cap).delete w batch good.1
    exact ⟨⟨disked, (quiet_delete good batch).2⟩, tree⟩
  removeTableDir w table good := by
    obtain ⟨disked, tree⟩ := (environment_delegates v cap).removeTableDir w table good.1
    exact ⟨⟨disked, (quiet_removeTableDir good table).2.2⟩, tree⟩
  countCandidates w n good := ⟨good, rfl⟩
  countInUse w n good := ⟨good, rfl⟩
  answers w batch report w' good answered :=
    (environment_delegates v cap).answers w batch report w' good.1 answered
  refuses w batch e w' good answered := by
    obtain ⟨⟨report, reported⟩, -⟩ := quiet_delete good batch
    rw [answered] at reported
    cases reported
  cleans w table answer w' good answered := by
    obtain ⟨cleaned, tree, -⟩ := quiet_removeTableDir good table
    rw [answered] at cleaned tree
    exact ⟨cleaned, tree⟩

end TabletSweep.Simulation
