import TabletSweep.Proofs.Pass.Machine
import TabletSweep.Proofs.Volume

/-!
# Passes over a volume

An environment is on a volume if its tree of directories changes only when a batch is deleted or the
directory of a table is to be removed, and then only as the volume does it, which may go through the
batch in any order; in all else it may answer anything. A step of a pass asks for one such removal,
or leaves the tree as it is (`asks_of_step`), so over a pass the tree becomes what the calls can
make of it (`evolves_run`).
-/

namespace TabletSweep

variable {σ : Type}

/-- What is seen of the states of an environment that keeps a tree of directories. -/
structure TreeView (σ : Type) where
  /-- Whether the environment can be in the state. -/
  good : σ → Prop
  tree : σ → Tree

/-- The tree is not changed. -/
structure TreeView.Same (g : TreeView σ) (w w' : σ) : Prop where
  good : g.good w'
  tree : g.tree w' = g.tree w

/-- An environment whose tree changes only by what a volume removes on request. A request may also
be refused, and then the tree stays as it is. -/
structure OnVolume (env : Environment σ) (v : Volume) (g : TreeView σ) : Prop where
  references : ∀ w, g.good w → g.Same w (env.references.perform w).2
  blips : ∀ w, g.good w → g.Same w (env.blips.perform w).2
  tableIds : ∀ w, g.good w → g.Same w (env.tableIds.perform w).2
  candidates : ∀ w cursor limit, g.good w → g.Same w ((env.candidates cursor limit).perform w).2
  delete : ∀ w batch, g.good w → g.good ((env.delete batch).perform w).2 ∧
    (g.tree ((env.delete batch).perform w).2 = g.tree w ∨
      ∃ report, v.Deletes (g.tree w) batch report (g.tree ((env.delete batch).perform w).2))
  removeTableDir : ∀ w table, g.good w → g.good ((env.removeTableDir table).perform w).2 ∧
    (g.tree ((env.removeTableDir table).perform w).2 = g.tree w ∨
      g.tree ((env.removeTableDir table).perform w).2 = (v.removeTableDir (g.tree w) table).2)
  countCandidates : ∀ w n, g.good w → g.Same w ((env.countCandidates n).run w).2
  countInUse : ∀ w n, g.good w → g.Same w ((env.countInUse n).run w).2

/-- Whether a call asks for something to be removed. -/
def Call.removes : Call → Bool
  | .delete .. | .removeTableDir .. => true
  | _ => false

namespace Pass

open PassM

/-- What calls can make of a tree on a volume. -/
inductive Evolves (v : Volume) (start : Tree) : List Call → Tree → Prop
  | nil : Evolves v start [] start
  | keep {calls t} (h : Evolves v start calls t) (call : Call) :
    Evolves v start (calls ++ [call]) t
  | delete {calls t batch report left} (h : Evolves v start calls t)
    (deletes : v.Deletes t batch report left) (answer : Except ServiceError DeleteReport) :
    Evolves v start (calls ++ [.delete batch answer]) left
  | removeTableDir {calls t} (h : Evolves v start calls t) (table : String)
    (answer : Except ServiceError Bool) :
    Evolves v start (calls ++ [.removeTableDir table answer]) (v.removeTableDir t table).2

variable {settings : Settings} {env : Environment σ} {v : Volume} {g : TreeView σ} {start t : Tree}
  {c d : Config σ} {calls : List Call}

/-- Calls may be added that leave the tree as it is. -/
theorem Evolves.append (h : Evolves v start calls t) (more : List Call) :
    Evolves v start (calls ++ more) t := by
  induction more generalizing calls with
  | nil =>
    rw [List.append_nil]
    exact h
  | cons call more ih =>
    rw [List.append_cons]
    exact ih (h.keep call)

/-! ## What a step asks of a volume -/

/-- What a step from one progress to another asks of a volume: nothing, the deletion of a batch, or
the removal of a table's directory. -/
inductive Asks (env : Environment σ) (g : TreeView σ) (p q : Progress σ) : Prop
  | nothing (more : List Call) (same : g.Same p.world q.world) (calls : q.calls = p.calls ++ more)
    (idle : ∀ call ∈ more, call.removes = false)
  | delete {batch answer} (answered : (env.delete batch).perform p.world = (answer, q.world))
    (calls : q.calls = p.calls ++ [.delete batch answer])
  | removeTableDir {table answer}
    (answered : (env.removeTableDir table).perform p.world = (answer, q.world))
    (calls : q.calls = p.calls ++ [.removeTableDir table answer])

/-- A call that removes nothing, and after which the tree is the same. -/
theorem Asks.call {p q : Progress σ} {call : Call} (same : g.Same p.world q.world)
    (calls : q.calls = p.calls ++ [call]) (idle : call.removes = false) : Asks env g p q :=
  .nothing [call] same calls (by simpa using idle)

theorem asks_of_step (onVolume : OnVolume env v g) (good : g.good c.progress.world)
    (step : Step settings env c d) : Asks env g c.progress d.progress := by
  cases step with
  | @readReferences p _ _ _ _ answered | @failReferences p _ _ _ _ answered =>
    have same := onVolume.references p.world good
    rw [answered] at same
    exact .call same rfl rfl
  | @readBlips _ p _ _ _ _ answered | @failBlips _ p _ _ _ _ answered =>
    have same := onVolume.blips p.world good
    rw [answered] at same
    exact .call same rfl rfl
  | @readTableIds _ _ p _ _ answered | @failTableIds _ _ p _ _ answered =>
    have same := onVolume.tableIds p.world good
    rw [answered] at same
    exact .call same rfl rfl
  | @fetchPage _ cursor p page _ _ answered =>
    have same := onVolume.candidates p.world cursor settings.batchSize good
    rw [answered] at same
    have counted := onVolume.countCandidates _ page.length same.good
    exact .nothing [.candidates cursor settings.batchSize (.ok page), .countCandidates page.length]
      ⟨counted.good, counted.tree.trans same.tree⟩ (List.append_assoc ..) (by simp [Call.removes])
  | @stall _ cursor p _ _ _ answered | @failFetch _ cursor p _ _ answered
  | @endLog _ cursor p _ answered =>
    have same := onVolume.candidates p.world cursor settings.batchSize good
    rw [answered] at same
    exact .call same rfl rfl
  | malformedPage | finish => exact .nothing [] ⟨good, rfl⟩ (List.append_nil _).symm (by simp)
  | keepPage | sparePage | confirmPage => exact .call (onVolume.countInUse _ _ good) rfl rfl
  | failDelete answered | endDelete answered | repeatDelete answered => exact .delete answered rfl
  | removeDir answered | failRemove answered => exact .removeTableDir answered rfl

/-! ## Over a pass -/

/-- The environment is in a state that it can be in, and its tree is what the calls can have made of
it. -/
structure Stored (v : Volume) (g : TreeView σ) (start : Tree) (calls : List Call) (w : σ) :
    Prop where
  good : g.good w
  evolves : Evolves v start calls (g.tree w)

section Stored

variable {w w' : σ} (stored : Stored v g start calls w)
include stored

theorem Stored.append (same : g.Same w w') (more : List Call) :
    Stored v g start (calls ++ more) w' := by
  refine ⟨same.good, ?_⟩
  rw [same.tree]
  exact stored.evolves.append more

theorem Stored.delete (onVolume : OnVolume env v g) {batch : List Candidate}
    {answer : Except ServiceError DeleteReport}
    (answered : (env.delete batch).perform w = (answer, w')) :
    Stored v g start (calls ++ [.delete batch answer]) w' := by
  obtain ⟨good, kept | ⟨report, deletes⟩⟩ := onVolume.delete w batch stored.good
  · rw [answered] at good kept
    exact stored.append ⟨good, kept⟩ _
  · rw [answered] at good deletes
    exact ⟨good, stored.evolves.delete deletes answer⟩

theorem Stored.removeTableDir (onVolume : OnVolume env v g) {table : String}
    {answer : Except ServiceError Bool}
    (answered : (env.removeTableDir table).perform w = (answer, w')) :
    Stored v g start (calls ++ [.removeTableDir table answer]) w' := by
  obtain ⟨good, kept | removed⟩ := onVolume.removeTableDir w table stored.good
  · rw [answered] at good kept
    exact stored.append ⟨good, kept⟩ _
  · rw [answered] at good removed
    exact ⟨good, removed ▸ stored.evolves.removeTableDir table answer⟩

end Stored

/-- Every step makes of the tree what its calls can make of it. -/
theorem stored_step (onVolume : OnVolume env v g)
    (h : Stored v g start c.progress.calls c.progress.world) (step : Step settings env c d) :
    Stored v g start d.progress.calls d.progress.world := by
  cases asks_of_step onVolume h.good step with
  | nothing more same calls =>
    rw [calls]
    exact h.append same more
  | delete answered calls =>
    rw [calls]
    exact h.delete onVolume answered
  | removeTableDir answered calls =>
    rw [calls]
    exact h.removeTableDir onVolume answered

variable (settings) in
/-- Over a pass on a volume the tree becomes what the calls of the pass can make of it. -/
theorem evolves_run (onVolume : OnVolume env v g) (budget : Nat) {world : σ} (good : g.good world) :
    Evolves v (g.tree world) (run settings env budget world).calls
      (g.tree (run settings env budget world).world) := by
  obtain ⟨c, stored, ends⟩ := run_invariant settings env
    (fun c => Stored v g (g.tree world) c.progress.calls c.progress.world) budget world
    ⟨good, .nil⟩ fun c d h step => stored_step onVolume h step
  rw [ends.calls, ends.world]
  exact stored.evolves

end Pass

end TabletSweep
