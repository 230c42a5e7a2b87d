import TabletSweep.Proofs.Pass.Scans
import TabletSweep.Proofs.Pass.Storage
import TabletSweep.Proofs.Volume.Removal

/-!
# Passes whose deletions a volume carries out

An environment `Delegates` its deletions to a volume if each that it answers was carried out by the
volume, in whatever order the candidates were taken, and the answer is the report of the volume. A
deletion may still be refused as a whole. It `Entrusts` its tree to the volume if a deletion that is
refused leaves the tree as it is, and the directories of tables are removed by the volume as well.

Each report of a pass is then that of a deletion from a tree that the calls before it can have made
of the tree at the start (`reported_run`), and in which nothing stands that did not stand at the
start (`Evolves.within`). If the tree is entrusted to the volume, the calls and their answers carry
the tree at the start to the one at the end (`carried_run`). The order in which a batch was deleted
is not told by its report, so this is a relation (`Volume.CarriesAll`): the same calls with the same
answers may lead to several trees.
-/

namespace TabletSweep

variable {σ : Type}

/-- An environment on a volume that answers a deletion with the report of the volume, whose workers
go through the batch in some order. -/
structure Delegates (env : Environment σ) (v : Volume) (g : TreeView σ) : Prop
    extends OnVolume env v g where
  answers : ∀ w batch report w', g.good w → (env.delete batch).perform w = (.ok report, w') →
    v.Deletes (g.tree w) batch report (g.tree w')

/-- An environment that leaves all removals to the volume, and answers as the volume does. A
deletion may still be refused as a whole, but then the tree stays as it is. -/
structure Entrusts (env : Environment σ) (v : Volume) (g : TreeView σ) : Prop
    extends Delegates env v g where
  refuses : ∀ w batch e w', g.good w → (env.delete batch).perform w = (.error e, w') →
    g.tree w' = g.tree w
  cleans : ∀ w table answer w', g.good w →
    (env.removeTableDir table).perform w = (answer, w') →
    answer = (v.removeTableDir (g.tree w) table).1.mapError (fun e => .io e.toIoError) ∧
      g.tree w' = (v.removeTableDir (g.tree w) table).2

/-- What a call can make of a tree that is entrusted to a volume, if it was answered as it was. -/
def Volume.Carries (v : Volume) (t : Tree) (call : Call) (left : Tree) : Prop :=
  match call with
  | .delete batch (.ok report) => v.Deletes t batch report left
  | .removeTableDir table answer =>
    answer = (v.removeTableDir t table).1.mapError (fun e => .io e.toIoError) ∧
      left = (v.removeTableDir t table).2
  | _ => left = t

/-- What calls can make, one after another, of a tree that is entrusted to a volume. -/
inductive Volume.CarriesAll (v : Volume) : Tree → List Call → Tree → Prop
  | nil (t : Tree) : CarriesAll v t [] t
  | cons {t next left call calls} (first : v.Carries t call next)
    (others : CarriesAll v next calls left) : CarriesAll v t (call :: calls) left

namespace Volume

variable {v : Volume} {t next left : Tree} {call : Call} {calls more : List Call}

/-- A call that asks for no removal leaves the tree as it is. -/
theorem carries_idle (idle : call.removes = false) : v.Carries t call t := by
  cases call with
  | delete | removeTableDir => cases idle
  | _ => rfl

theorem carriesAll_idle (idle : ∀ call ∈ calls, call.removes = false) : v.CarriesAll t calls t := by
  induction calls with
  | nil => exact .nil t
  | cons call calls ih =>
    obtain ⟨first, others⟩ := List.forall_mem_cons.mp idle
    exact .cons (carries_idle first) (ih others)

theorem CarriesAll.append (h : v.CarriesAll t calls next) (h' : v.CarriesAll next more left) :
    v.CarriesAll t (calls ++ more) left := by
  induction h with
  | nil => exact h'
  | cons first _ ih => exact .cons first (ih h')

theorem CarriesAll.concat (h : v.CarriesAll t calls next) (last : v.Carries next call left) :
    v.CarriesAll t (calls ++ [call]) left :=
  h.append (.cons last (.nil left))

theorem CarriesAll.of_cons (h : v.CarriesAll t (call :: calls) left) :
    ∃ next, v.Carries t call next ∧ v.CarriesAll next calls left := by
  cases h with
  | cons first others => exact ⟨_, first, others⟩

/-- Each of the calls takes one of the trees on the way to the next. -/
theorem CarriesAll.split (h : v.CarriesAll t (calls ++ call :: more) left) :
    ∃ before after, v.CarriesAll t calls before ∧ v.Carries before call after ∧
      v.CarriesAll after more left := by
  induction calls generalizing t with
  | nil =>
    obtain ⟨next, here, later⟩ := h.of_cons
    exact ⟨t, next, .nil t, here, later⟩
  | cons c calls ih =>
    obtain ⟨next, first, others⟩ := h.of_cons
    obtain ⟨before, after, earlier, here, later⟩ := ih others
    exact ⟨before, after, .cons first earlier, here, later⟩

end Volume

theorem Volume.removeTableDir_within (v : Volume) (t : Tree) (table : String) :
    (v.removeTableDir t table).2.Within t := by
  unfold removeTableDir
  split
  · exact .refl t
  · exact .refl t
  · exact .refl t
  · split
    · rename_i left removed
      exact Tree.within_of_removeBareDirectory removed
    · exact .refl t
    · exact .refl t

namespace Pass

open PassM

variable {settings : Settings} {env : Environment σ} {v : Volume} {g : TreeView σ} {start t : Tree}
  {calls : List Call} {c d : Config σ}

/-- The batches that are handed out have plain keys. -/
def PlainBatches (calls : List Call) : Prop :=
  ∀ batch answer, .delete batch answer ∈ calls → ∀ c ∈ batch, c.key.IsPlain

theorem PlainBatches.of_subset {all : List Call} (plain : PlainBatches all) (sub : calls ⊆ all) :
    PlainBatches calls :=
  fun batch answer mem => plain batch answer (sub mem)

theorem plainBatches_of_justified (each : EachCall (Justified settings) calls) :
    PlainBatches calls := by
  intro batch answer mem
  obtain ⟨before, after, split⟩ := List.append_of_mem mem
  obtain ⟨snapshot, -, cleared⟩ := cleared_of_delete each split
  exact fun c hc => Key.isPlain_of_ofPath (cleared.read c hc)

/-- Calls add nothing to the tree. -/
theorem Evolves.within (evolves : Evolves v start calls t) (plain : PlainBatches calls) :
    t.Within start := by
  induction evolves with
  | nil => exact .refl start
  | keep _ call ih => exact ih (plain.of_subset (List.subset_append_left ..))
  | @delete _ _ batch _ _ _ deletes answer ih =>
    have earlier := ih (plain.of_subset (List.subset_append_left ..))
    exact (deletes.within (plain batch answer (by simp))).trans earlier
  | removeTableDir _ table answer ih =>
    have earlier := ih (plain.of_subset (List.subset_append_left ..))
    exact (v.removeTableDir_within _ table).trans earlier

/-- What a call makes of a tree that is entrusted to a volume is one of the things that it can make
of a tree on a volume. -/
theorem Evolves.carries {call : Call} {left : Tree} (evolves : Evolves v start calls t)
    (carries : v.Carries t call left) : Evolves v start (calls ++ [call]) left := by
  match call, carries with
  | .delete batch (.ok report), deletes => exact evolves.delete deletes (.ok report)
  | .removeTableDir table answer, ⟨_, same⟩ =>
    rw [same]
    exact evolves.removeTableDir table answer
  | .delete _ (.error _), same | .references .., same | .blips .., same | .tableIds _, same
  | .candidates .., same | .countCandidates _, same | .countInUse _, same =>
    cases same
    exact evolves.keep _

theorem Evolves.carriesAll {more : List Call} {left : Tree} (evolves : Evolves v start calls t)
    (carries : v.CarriesAll t more left) : Evolves v start (calls ++ more) left := by
  induction carries generalizing calls with
  | nil =>
    rw [List.append_nil]
    exact evolves
  | cons first _ ih =>
    rw [List.append_cons]
    exact ih (evolves.carries first)

/-- Calls add nothing to a tree that is entrusted to a volume. -/
theorem within_of_carriesAll {left : Tree} (carries : v.CarriesAll t calls left)
    (plain : PlainBatches calls) : left.Within t :=
  (Evolves.nil.carriesAll carries).within plain

/-- A deletion that was answered has the report of the volume on what the calls before it can have
made of the tree. -/
def Reported (v : Volume) (start : Tree) (before : List Call) : Call → Prop
  | .delete batch (.ok report) =>
    ∃ t left, Evolves v start before t ∧ v.Deletes t batch report left
  | _ => True

/-- Every step keeps account of the tree and of the reports. -/
theorem reported_step (delegates : Delegates env v g)
    (h : Stored v g start c.progress.calls c.progress.world ∧
      EachCall (Reported v start) c.progress.calls) (step : Step settings env c d) :
    Stored v g start d.progress.calls d.progress.world ∧
      EachCall (Reported v start) d.progress.calls := by
  obtain ⟨stored, each⟩ := h
  refine ⟨stored_step delegates.toOnVolume stored step, ?_⟩
  cases asks_of_step delegates.toOnVolume stored.good step with
  | nothing more same calls idle =>
    rw [calls]
    refine each.append fun call mem before => ?_
    cases call with
    | delete batch answer => cases idle _ mem
    | _ => trivial
  | @delete batch answer answered calls =>
    rw [calls]
    refine eachCall_concat.mpr ⟨each, ?_⟩
    cases answer with
    | error e => trivial
    | ok report =>
      exact ⟨_, _, stored.evolves, delegates.answers _ _ _ _ stored.good answered⟩
  | removeTableDir _ calls =>
    rw [calls]
    exact eachCall_concat.mpr ⟨each, trivial⟩

variable (settings) in
/-- The reports of a pass are those of the volume. -/
theorem reported_run (delegates : Delegates env v g) (budget : Nat) {world : σ}
    (good : g.good world) :
    EachCall (Reported v (g.tree world)) (run settings env budget world).calls := by
  obtain ⟨c, ⟨-, each⟩, ends⟩ := run_invariant settings env
    (fun c => Stored v g (g.tree world) c.progress.calls c.progress.world ∧
      EachCall (Reported v (g.tree world)) c.progress.calls) budget world
    ⟨⟨good, .nil⟩, eachCall_nil⟩ fun c d h step => reported_step delegates h step
  rw [ends.calls]
  exact each

/-! ## A tree that is entrusted to a volume -/

/-- The environment is in a state that it can be in, and the calls carry the tree at the start to the
tree that it has. -/
structure Carried (v : Volume) (g : TreeView σ) (start : Tree) (calls : List Call) (w : σ) :
    Prop where
  good : g.good w
  carries : v.CarriesAll start calls (g.tree w)

section Carried

variable {w w' : σ} (carried : Carried v g start calls w)
include carried

/-- Calls that ask for no removal leave the tree as it is. -/
theorem Carried.append (same : g.Same w w') {more : List Call}
    (idle : ∀ call ∈ more, call.removes = false) : Carried v g start (calls ++ more) w' := by
  refine ⟨same.good, carried.carries.append ?_⟩
  rw [same.tree]
  exact Volume.carriesAll_idle idle

variable (entrusts : Entrusts env v g)
include entrusts

theorem Carried.delete {batch : List Candidate} {answer : Except ServiceError DeleteReport}
    (answered : (env.delete batch).perform w = (answer, w')) :
    Carried v g start (calls ++ [.delete batch answer]) w' := by
  have good := (entrusts.delete w batch carried.good).1
  rw [answered] at good
  refine ⟨good, carried.carries.concat ?_⟩
  cases answer with
  | error e => exact entrusts.refuses w batch e w' carried.good answered
  | ok report => exact entrusts.answers w batch report w' carried.good answered

theorem Carried.removeTableDir {table : String} {answer : Except ServiceError Bool}
    (answered : (env.removeTableDir table).perform w = (answer, w')) :
    Carried v g start (calls ++ [.removeTableDir table answer]) w' := by
  have good := (entrusts.removeTableDir w table carried.good).1
  rw [answered] at good
  exact ⟨good, carried.carries.concat (entrusts.cleans w table answer w' carried.good answered)⟩

end Carried

/-- Every step carries the tree on. -/
theorem carried_step (entrusts : Entrusts env v g)
    (h : Carried v g start c.progress.calls c.progress.world) (step : Step settings env c d) :
    Carried v g start d.progress.calls d.progress.world := by
  cases asks_of_step entrusts.toOnVolume h.good step with
  | nothing more same calls idle =>
    rw [calls]
    exact h.append same idle
  | delete answered calls =>
    rw [calls]
    exact h.delete entrusts answered
  | removeTableDir answered calls =>
    rw [calls]
    exact h.removeTableDir entrusts answered

variable (settings) in
/-- Over a pass the calls carry the tree at the start to the tree at the end. -/
theorem carried_run (entrusts : Entrusts env v g) (budget : Nat) {world : σ}
    (good : g.good world) :
    Carried v g (g.tree world) (run settings env budget world).calls
      (run settings env budget world).world := by
  obtain ⟨c, carried, ends⟩ := run_invariant settings env
    (fun c => Carried v g (g.tree world) c.progress.calls c.progress.world) budget world
    ⟨good, .nil _⟩ fun c d h step => carried_step entrusts h step
  rw [ends.calls, ends.world]
  exact carried

end Pass

end TabletSweep
