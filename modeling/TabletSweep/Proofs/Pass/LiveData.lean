import TabletSweep.Proofs.Pass.Scans
import TabletSweep.Proofs.Pass.Storage
import TabletSweep.Proofs.Simulation

/-!
# What a pass leaves alone on a volume

On a volume without symbolic links a pass destroys nothing that is alive: what a reference points
to stays, with all that stands above it, and so does what stands at or below a directory under bulk
load (`pass_spares_live_data`). A directory goes with all that stands in it, so it is not enough
that a place is not deleted itself. Places are `Sheltered` if no candidate that may be deleted, and
no table whose directory may be removed, has its place at or above them.
-/

namespace TabletSweep

namespace Pass

variable {σ : Type} {settings : Settings} {env : Environment σ} {v : Volume} {g : TreeView σ}
  {start t : Tree} {all calls : List Call} {snapshot : Snapshot}

/-- A set of places that no candidate that may be deleted, and no table whose directory may be
removed, has its place at or above, unless something in the set keeps the directory from being
bare. -/
structure Sheltered (settings : Settings) (all : List Call) (v : Volume) (start : Tree)
    (places : Place → Prop) : Prop where
  keys : ∀ snapshot, ReadIn settings snapshot all → ∀ key, snapshot.frees key = true →
    ∀ q, places q → ¬v.keyPlace key <+: q
  tables : ∀ snapshot, ReadIn settings snapshot all →
    ∀ table, snapshot.live.reaches table = false → places (v.tablePlace table) →
      ∃ q, places q ∧ v.tablePlace table <+: q ∧ q ≠ v.tablePlace table ∧
        (start.at? q).isSome = true

/-! ## What is sheltered stays -/

section Sheltered

variable {places : Place → Prop} (sheltered : Sheltered settings all v start places)
  (linkless : t.Linkless) (read : ReadIn settings snapshot all)
include sheltered linkless read

theorem Sheltered.deletes {batch : List Candidate} {report : DeleteReport} {left : Tree}
    (cleared : Cleared settings snapshot calls batch) (deletes : v.Deletes t batch report left) :
    left.Linkless ∧ ∀ q, places q → left.at? q = t.at? q := by
  have plain : ∀ c ∈ batch, ∀ name ∈ c.key.components, Plain name :=
    fun c hc name hname => Key.plain_of_ofPath (cleared.read c hc) hname
  obtain ⟨linkless', spared⟩ := deletes.spares linkless plain
  refine ⟨linkless', fun q hq => spared q fun c hc => ?_⟩
  exact sheltered.keys snapshot read c.key (cleared.free c hc) q hq

/-- The directory of a table is not removed if it is sheltered, because something in it still
stands. -/
theorem Sheltered.removeTableDir (spared : ∀ q, places q → t.at? q = start.at? q) {table : String}
    (plain : Plain table) (unreached : snapshot.live.reaches table = false) :
    (v.removeTableDir t table).2.Linkless ∧
      ∀ q, places q → (v.removeTableDir t table).2.at? q = t.at? q := by
  rcases Volume.removeTableDir_eq (v := v) linkless plain with same | ⟨erased, bare⟩
  · rw [same]
    exact ⟨linkless, fun _ _ => rfl⟩
  · rw [erased]
    refine ⟨(Tree.prunes_erase ..).linkless linkless, fun q hq => ?_⟩
    rw [Tree.at?_erase, if_neg]
    rintro ⟨rfl, -⟩
    obtain ⟨q, hq', below, hne, stands⟩ := sheltered.tables snapshot read table unreached hq
    rw [← spared q hq', Tree.at?_of_isBare bare below hne] at stands
    cases stands

end Sheltered

section Each

variable (each : EachCall (Justified settings) all)
include each

theorem plain_of_handedOut {table : String} (h : HandedOut all table) : Plain table := by
  obtain ⟨batch, answer, c, mem, hc, -, rfl⟩ := h
  obtain ⟨before, after, split⟩ := List.append_of_mem mem
  obtain ⟨snapshot, -, cleared⟩ := cleared_of_delete each split
  exact Key.plain_of_ofPath (cleared.read c hc) (by simp [Key.components])

/-- What is sheltered stays whatever calls of a pass make of the tree. -/
theorem Evolves.spares (evolves : Evolves v start calls t) (sub : calls <+: all)
    (linkless : start.Linkless) {places : Place → Prop}
    (sheltered : Sheltered settings all v start places) :
    t.Linkless ∧ ∀ q, places q → t.at? q = start.at? q := by
  induction evolves with
  | nil => exact ⟨linkless, fun _ _ => rfl⟩
  | keep h call ih => exact ih ((List.prefix_append _ _).trans sub)
  | @delete calls t batch report left h deletes answer ih =>
    obtain ⟨linkless, spared⟩ := ih ((List.prefix_append _ _).trans sub)
    obtain ⟨after, split⟩ := sub
    have hcalls : all = calls ++ .delete batch answer :: after := by simp [← split]
    obtain ⟨snapshot, read, cleared⟩ := cleared_of_delete each hcalls
    obtain ⟨linkless', spared'⟩ := sheltered.deletes linkless read cleared deletes
    exact ⟨linkless', fun q hq => (spared' q hq).trans (spared q hq)⟩
  | @removeTableDir calls t h table answer ih =>
    obtain ⟨linkless, spared⟩ := ih ((List.prefix_append _ _).trans sub)
    obtain ⟨after, split⟩ := sub
    have hcalls : all = calls ++ .removeTableDir table answer :: after := by simp [← split]
    obtain ⟨snapshot, read, vacated⟩ := vacated_of_removeTableDir each hcalls
    have plain := plain_of_handedOut each vacated.handedOut
    obtain ⟨linkless', spared'⟩ :=
      sheltered.removeTableDir linkless read spared plain vacated.unreached
    exact ⟨linkless', fun q hq => (spared' q hq).trans (spared q hq)⟩

/-! ## What is sheltered -/

/-- What a reference points to is sheltered, with all that stands above it. -/
theorem sheltered_of_refers {r : Reference} (refers : Refers settings all r) :
    Sheltered settings all v start (· <+: v.keyPlace r.key) := by
  obtain ⟨items, n, entry, hcall, hentry, hr⟩ := id refers
  constructor
  · intro snapshot read key free q hq above
    have hprefix := v.keyPlace_prefix_iff.mp (above.trans hq)
    have protects := Reference.protects_of_ofEntry hr (Key.eq_or_eq_directory_of_prefix hprefix)
    have kept := read.keeps each refers protects
    rw [(Snapshot.frees_eq_true_iff.mp free).1] at kept
    cases kept
  · intro snapshot read table unreached hq
    have reached := read.reaches each refers
    rw [← v.tablePlace_prefix_iff.mp hq, unreached] at reached
    cases reached

/-- What stands at or below a directory under bulk load is sheltered, with all that stands above. -/
theorem sheltered_of_marks {key : Key} (marks : Marks settings all key)
    (stands : (start.at? (v.keyPlace key)).isSome = true) :
    Sheltered settings all v start fun q => q <+: v.keyPlace key ∨ v.keyPlace key <+: q := by
  constructor
  · intro snapshot read c free q hq above
    -- One of the two targets stands at or above the other, so they share a tablet directory.
    have hdirectory : c.directory = key.directory := by
      rcases hq with hq | hq
      · exact Key.directory_eq_of_prefix (v.keyPlace_prefix_iff.mp (above.trans hq))
      · rcases List.prefix_or_prefix_of_prefix above hq with h | h
        · exact Key.directory_eq_of_prefix (v.keyPlace_prefix_iff.mp h)
        · exact (Key.directory_eq_of_prefix (v.keyPlace_prefix_iff.mp h)).symm
    have covered := read.covers each marks hdirectory
    rw [(Snapshot.frees_eq_true_iff.mp free).2] at covered
    cases covered
  · intro snapshot read table unreached hq
    have never : ¬v.keyPlace key <+: v.tablePlace table := v.not_keyPlace_prefix_tablePlace
    refine ⟨v.keyPlace key, .inl (List.prefix_refl _), hq.resolve_right never, ?_, stands⟩
    intro same
    apply never
    exact same ▸ List.prefix_refl (v.keyPlace key)

end Each

theorem plain_of_refers {r : Reference} (refers : Refers settings calls r) {name : String}
    (hname : name ∈ r.key.components) : Plain name := by
  obtain ⟨-, -, entry, -, -, hr⟩ := refers
  exact Reference.plain_of_ofEntry hr hname

theorem plain_of_marks {key : Key} (marks : Marks settings calls key) {name : String}
    (hname : name ∈ key.components) : Plain name := by
  obtain ⟨-, -, blip, -, -, hkey⟩ := marks
  exact Key.plain_of_ofPath hkey hname

/-- The path of a target leads on to where it led if nothing on the way has gone and the path of the
volume does not go up. -/
theorem resolve_keyPath_congr (linkless : start.Linkless)
    (noUp : ".." ∉ segments (joinPaths v.root v.tablesDir)) {key : Key}
    (plain : ∀ name ∈ key.components, Plain name) {place : Place}
    (led : start.resolve (v.keyPath key) = .ok place)
    (agree : ∀ q, q <+: place → t.at? q = start.at? q) :
    t.resolve (v.keyPath key) = .ok place := by
  refine linkless.resolve_congr ?_ agree led
  rw [Volume.keyPath, segments_foldl_joinPaths _ plain, List.mem_append, not_or]
  exact ⟨noUp, fun hmem => (plain _ hmem).ne_dots.2 rfl⟩

variable (settings) in
/-- On a volume without symbolic links a pass, however it ends, leaves at its place what the path of
a referenced target led to, and what the path of a directory under bulk load led to with all that
stood below it. The places above stay as well, so such a path leads on to its place, unless the path
of the volume goes up through some directory that was removed. -/
theorem pass_spares_live_data (onVolume : OnVolume env v g) (budget : Nat) (world : σ)
    (good : g.good world) (linkless : (g.tree world).Linkless) :
    (∀ r, Refers settings (run settings env budget world).calls r →
        ∀ place, (g.tree world).resolve (v.keyPath r.key) = .ok place →
          ∀ q, q <+: place →
            (g.tree (run settings env budget world).world).at? q = (g.tree world).at? q) ∧
      (∀ key, Marks settings (run settings env budget world).calls key →
        ∀ place, (g.tree world).resolve (v.keyPath key) = .ok place →
          ∀ q, q <+: place ∨ place <+: q →
            (g.tree (run settings env budget world).world).at? q = (g.tree world).at? q) ∧
      (".." ∉ segments (joinPaths v.root v.tablesDir) →
        ∀ key, (∃ r, Refers settings (run settings env budget world).calls r ∧ r.key = key) ∨
            Marks settings (run settings env budget world).calls key →
          ∀ place, (g.tree world).resolve (v.keyPath key) = .ok place →
            (g.tree (run settings env budget world).world).resolve (v.keyPath key) =
              .ok place) := by
  have each := justified_calls_run settings env budget world
  have evolves := evolves_run settings onVolume budget good
  have referenced : ∀ r, Refers settings (run settings env budget world).calls r →
      ∀ place, (g.tree world).resolve (v.keyPath r.key) = .ok place → ∀ q, q <+: place →
        (g.tree (run settings env budget world).world).at? q = (g.tree world).at? q := by
    intro r refers place led
    obtain ⟨rfl, -⟩ := linkless.resolve_ok led
    rw [v.endOf_keyPath fun name hname => plain_of_refers refers hname]
    exact (evolves.spares each (List.prefix_refl _) linkless (sheltered_of_refers each refers)).2
  have marked : ∀ key, Marks settings (run settings env budget world).calls key →
      ∀ place, (g.tree world).resolve (v.keyPath key) = .ok place →
        ∀ q, q <+: place ∨ place <+: q →
          (g.tree (run settings env budget world).world).at? q = (g.tree world).at? q := by
    intro key marks place led
    obtain ⟨rfl, stands⟩ := linkless.resolve_ok led
    rw [v.endOf_keyPath fun name hname => plain_of_marks marks hname] at stands ⊢
    exact (evolves.spares each (List.prefix_refl _) linkless
      (sheltered_of_marks each marks stands)).2
  refine ⟨referenced, marked, fun noUp key named place led => ?_⟩
  rcases named with ⟨r, refers, rfl⟩ | marks
  · exact resolve_keyPath_congr linkless noUp (fun name hname => plain_of_refers refers hname) led
      (referenced r refers place led)
  · exact resolve_keyPath_congr linkless noUp (fun name hname => plain_of_marks marks hname) led
      fun q hq => marked key marks place led q (.inl hq)

section Disk

open Simulation

/-- A volume on which a table has a file in use and one that is not, a bulk load brings in a file,
and nothing is left of a third table but a tablet directory. -/
def diskWorld : World where
  log := ⟨["/4/t-0/A.rf", "/4/t-0/B.rf", "/5/b-0/I.rf", "/9/t-0"], by decide +kernel⟩
  references := [.ofFile "4" none "/t-0/A.rf", .ofDirectory "4" none "/t-0"]
  blips := ["/5/b-0"]
  tableIds := ["4", "5"]
  disk := some ⟨⟨"/vol", "tables"⟩, ⟨[
    (["vol"], .directory), (["vol", "tables"], .directory),
    (["vol", "tables", "4"], .directory), (["vol", "tables", "4", "t-0"], .directory),
    (["vol", "tables", "4", "t-0", "A.rf"], .file), (["vol", "tables", "4", "t-0", "B.rf"], .file),
    (["vol", "tables", "5"], .directory), (["vol", "tables", "5", "b-0"], .directory),
    (["vol", "tables", "5", "b-0", "I.rf"], .file),
    (["vol", "tables", "9"], .directory), (["vol", "tables", "9", "t-0"], .directory),
    (["vol", "tables", "9", "t-0", "C.rf"], .file)]⟩⟩

/-- The tree that a pass leaves on the disk. -/
def treeAfter : Tree := (diskView ⟨"/vol", "tables"⟩).tree (run {} environment 6 diskWorld).world

/-- The file in use and the one brought in stay, with the way to the file in use, while the others
go. -/
theorem disk_pass_spares_live_data :
    treeAfter.at? ["vol", "tables", "4", "t-0", "A.rf"] = some .file ∧
      treeAfter.at? ["vol", "tables", "4", "t-0", "B.rf"] = none ∧
      treeAfter.at? ["vol", "tables", "5", "b-0", "I.rf"] = some .file ∧
      treeAfter.at? ["vol", "tables", "9"] = none ∧
      treeAfter.resolve "/vol/tables/4/t-0/A.rf" = .ok ["vol", "tables", "4", "t-0", "A.rf"] := by
  have refers : Refers {} (run {} environment 6 diskWorld).calls
      (.file ⟨"4", "t-0", some "A.rf"⟩) :=
    ⟨[.ok (.ofFile "4" none "/t-0/A.rf"), .ok (.ofDirectory "4" none "/t-0")], 2, _,
      by decide +kernel, List.mem_cons_self, by decide +kernel⟩
  have marks : Marks {} (run {} environment 6 diskWorld).calls ⟨"5", "b-0", none⟩ :=
    ⟨[.ok "/5/b-0"], 1, _, by decide +kernel, List.mem_cons_self, by decide +kernel⟩
  have led : ((diskView ⟨"/vol", "tables"⟩).tree diskWorld).resolve "/vol/tables/4/t-0/A.rf" =
      .ok ["vol", "tables", "4", "t-0", "A.rf"] := by decide +kernel
  obtain ⟨referenced, marked, paths⟩ :=
    pass_spares_live_data {} (environment_onVolume ⟨"/vol", "tables"⟩) 6 diskWorld
      ⟨⟨_, rfl⟩, rfl⟩ (Tree.linkless_of_entries (by decide +kernel))
  refine ⟨?_, by decide +kernel, ?_, by decide +kernel, ?_⟩
  · have kept := referenced _ refers _ led _ (List.prefix_refl _)
    rw [treeAfter, kept]
    decide +kernel
  · have kept := marked _ marks ["vol", "tables", "5", "b-0"] (by decide +kernel)
      ["vol", "tables", "5", "b-0", "I.rf"] (.inr ⟨["I.rf"], rfl⟩)
    rw [treeAfter, kept]
    decide +kernel
  · exact paths (by decide +kernel) _ (.inl ⟨_, refers, rfl⟩) _ led

end Disk

end Pass

end TabletSweep
