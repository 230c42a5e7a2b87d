import Mathlib.Data.List.Basic
import TabletSweep.Proofs.Linkless
import TabletSweep.Volume

/-!
# Where the targets of keys stand, and what a volume removes

On a volume without symbolic links the target of a key stands at `keyPlace`: below the place of the
tables directory, under the components of the key (`endOf_keyPath`). Deleting a batch leaves alone
all that is not at or below the target of a candidate (`deleteBatch_spares`), and removing the
directory of a table takes away that directory, and only if it is bare (`removeTableDir_eq`).

A batch is deleted by several workers, each of which takes the next candidate when it has done with
one, so the candidates may come in any order. `Deletes` says what a deletion can come to.
-/

namespace TabletSweep

/-! ## Joining -/

theorem startsWithSlash_of_slashless {name : String} (slashless : '/' ∉ name.toList) :
    startsWithSlash name = false := by
  rw [startsWithSlash, decide_eq_false_iff_not]
  intro hslash
  exact slashless (List.mem_of_head? hslash)

theorem startsWithSlash_of_plain {name : String} (h : Plain name) : startsWithSlash name = false :=
  startsWithSlash_of_slashless h.no_slash

theorem segments_foldl_joinPaths (path : String) {names : List String}
    (plain : ∀ name ∈ names, Plain name) :
    segments (names.foldl joinPaths path) = segments path ++ names := by
  induction names generalizing path with
  | nil => simp
  | cons name names ih =>
    have hname : Plain name := plain name (by simp)
    rw [List.foldl_cons, ih _ fun n hn => plain n (by simp [hn]),
      segments_joinPaths (startsWithSlash_of_plain hname), hname.segments_eq]
    simp

/-- A path that joining puts a slash behind. -/
structure NeedsSlash (path : String) : Prop where
  ne_empty : path ≠ ""
  not_ends : endsWithSlash path = false

theorem NeedsSlash.append {left right : String} (h : NeedsSlash right) :
    NeedsSlash (left ++ right) where
  ne_empty := by simp [h.ne_empty]
  not_ends := by
    have nonempty : right.toList ≠ [] := by simpa using h.ne_empty
    unfold endsWithSlash
    rw [String.toList_append, List.getLast?_append_of_ne_nil _ nonempty]
    exact h.not_ends

theorem needsSlash_of_slashless {name : String} (nonempty : name ≠ "")
    (slashless : '/' ∉ name.toList) : NeedsSlash name where
  ne_empty := nonempty
  not_ends := by
    rw [endsWithSlash, decide_eq_false_iff_not]
    intro last
    exact slashless (List.mem_of_getLast? last)

theorem Plain.needsSlash {name : String} (h : Plain name) : NeedsSlash name :=
  needsSlash_of_slashless h.ne_empty h.no_slash

/-- A plain name is put behind a path, and replaces nothing. -/
theorem NeedsSlash.joinPaths_eq {left name : String} (h : NeedsSlash left) (plain : Plain name) :
    joinPaths left name = left ++ "/" ++ name := by
  unfold joinPaths
  rw [startsWithSlash_of_plain plain, h.not_ends]
  simp [h.ne_empty]

/-- A path with a plain name behind it is not empty and does not end with a slash. -/
theorem needsSlash_joinPaths {name : String} (plain : Plain name) (path : String) :
    NeedsSlash (joinPaths path name) := by
  unfold joinPaths
  rw [startsWithSlash_of_plain plain]
  split
  · contradiction
  · split <;> exact plain.needsSlash.append

/-- A path does not end with a slash once a plain name is put behind it. -/
theorem endsWithSlash_joinPaths {name : String} (plain : Plain name) (path : String) :
    endsWithSlash (joinPaths path name) = false := (needsSlash_joinPaths plain path).not_ends

/-! ## Targets -/

namespace Volume

variable (v : Volume)

/-- The place of the directory that holds the directories of the tables. -/
def tablesPlace : Place := endOf (joinPaths v.root v.tablesDir)

/-- The place of the directory of a table. -/
def tablePlace (table : String) : Place := v.tablesPlace ++ [table]

/-- The place of the target of a key. -/
def keyPlace (key : Key) : Place := v.tablesPlace ++ key.components

theorem segments_keyPath {key : Key} (plain : ∀ name ∈ key.components, Plain name) :
    segments (v.keyPath key) = segments (joinPaths v.root v.tablesDir) ++ key.components :=
  segments_foldl_joinPaths _ plain

theorem endOf_keyPath {key : Key} (plain : ∀ name ∈ key.components, Plain name) :
    endOf (v.keyPath key) = v.keyPlace key := by
  rw [endOf, v.segments_keyPath plain, Place.follow_append, Place.follow_plain _ plain]
  rfl

theorem endOf_tablePath {table : String} (plain : Plain table) :
    endOf (v.tablePath table) = v.tablePlace table := by
  rw [endOf, tablePath, segments_joinPaths (startsWithSlash_of_plain plain), plain.segments_eq,
    Place.follow_append, Place.follow_plain _ (by simpa using plain)]
  rfl

/-- The target of one key stands at or above that of another as the components say. -/
theorem keyPlace_prefix_iff {k k' : Key} :
    v.keyPlace k <+: v.keyPlace k' ↔ k.components <+: k'.components :=
  List.prefix_append_right_inj _

theorem tablePlace_prefix_iff {table : String} {k : Key} :
    v.tablePlace table <+: v.keyPlace k ↔ table = k.table := by
  rw [tablePlace, keyPlace, List.prefix_append_right_inj]
  simp [Key.components]

/-- No key has its target at the directory of a table or above that. -/
theorem not_keyPlace_prefix_tablePlace {table : String} {k : Key} :
    ¬v.keyPlace k <+: v.tablePlace table := by
  intro h
  have := h.length_le
  simp only [keyPlace, tablePlace, List.length_append, Key.components, List.length_cons,
    List.length_nil] at this
  omega

variable {v} {t : Tree}

/-- The removal of a target takes away only what is at its place or below. -/
theorem removeKey_prunes (linkless : t.Linkless) {key : Key}
    (plain : ∀ name ∈ key.components, Plain name) :
    Tree.Prunes (v.keyPlace key) t (v.removeKey t key).2 := by
  rw [← v.endOf_keyPath plain]
  unfold removeKey
  split
  · have pruned := linkless.removeSubtree_prunes (v.keyPath key)
    split <;> rename_i hleft <;> rw [hleft] at pruned <;> exact pruned
  · split
    · rename_i left hleft
      exact linkless.removeFile_prunes hleft
    · exact .refl ..
    · exact .refl ..

/-- The deletion of a batch adds no links, and leaves alone what is not at the place of a candidate
or below. -/
theorem deleteBatch_spares (linkless : t.Linkless) {batch : List Candidate}
    (plain : ∀ c ∈ batch, ∀ name ∈ c.key.components, Plain name) :
    (v.deleteBatch t batch).2.Linkless ∧
      ∀ q, (∀ c ∈ batch, ¬v.keyPlace c.key <+: q) → (v.deleteBatch t batch).2.at? q = t.at? q := by
  change (v.removeEach t batch).2.Linkless ∧
    ∀ q, _ → (v.removeEach t batch).2.at? q = t.at? q
  induction batch generalizing t with
  | nil => exact ⟨linkless, fun q _ => rfl⟩
  | cons c cs ih =>
    have pruned := removeKey_prunes (v := v) linkless (plain c (by simp))
    obtain ⟨linkless', spared⟩ := ih (pruned.linkless linkless) fun d hd => plain d (by simp [hd])
    refine ⟨linkless', fun q hq => ?_⟩
    change (v.removeEach (v.removeKey t c.key).2 cs).2.at? q = _
    rw [spared q fun d hd => hq d (by simp [hd]), pruned.elsewhere q (hq c (by simp))]

/-- What the deletion of a batch can come to: the workers go through the candidates in some order. -/
def Deletes (v : Volume) (t : Tree) (batch : List Candidate) (report : DeleteReport)
    (left : Tree) : Prop :=
  ∃ order : List Candidate, order.Perm batch ∧
    report = (v.deleteBatch t order).1 ∧ left = (v.deleteBatch t order).2

variable (v t) in
/-- A single worker goes through the candidates as they stand. -/
theorem deletes_deleteBatch (batch : List Candidate) :
    v.Deletes t batch (v.deleteBatch t batch).1 (v.deleteBatch t batch).2 :=
  ⟨batch, .refl batch, rfl, rfl⟩

/-- In whatever order, a deletion adds no links, and leaves alone what is not at the place of a
candidate or below. -/
theorem Deletes.spares {batch : List Candidate} {report : DeleteReport} {left : Tree}
    (deletes : v.Deletes t batch report left) (linkless : t.Linkless)
    (plain : ∀ c ∈ batch, ∀ name ∈ c.key.components, Plain name) :
    left.Linkless ∧ ∀ q, (∀ c ∈ batch, ¬v.keyPlace c.key <+: q) → left.at? q = t.at? q := by
  obtain ⟨order, perm, -, rfl⟩ := deletes
  obtain ⟨linkless', spared⟩ :=
    deleteBatch_spares (v := v) linkless fun c hc => plain c (perm.mem_iff.mp hc)
  exact ⟨linkless', fun q apart => spared q fun c hc => apart c (perm.mem_iff.mp hc)⟩

/-- The removal of a table's directory leaves the tree as it is, or takes away that directory, which
then has nothing in it. -/
theorem removeTableDir_eq (linkless : t.Linkless) {table : String} (plain : Plain table) :
    (v.removeTableDir t table).2 = t ∨
      (v.removeTableDir t table).2 = t.erase (v.tablePlace table) ∧
        t.isBare (v.tablePlace table) = true := by
  unfold removeTableDir
  split
  · exact .inl rfl
  · exact .inl rfl
  · exact .inl rfl
  · split
    · rename_i left hleft
      rw [← v.endOf_tablePath plain]
      exact .inr (linkless.removeBareDirectory_ok hleft)
    · exact .inl rfl
    · exact .inl rfl

end Volume

end TabletSweep
