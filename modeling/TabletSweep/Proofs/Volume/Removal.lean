import TabletSweep.Proofs.Key.Text
import TabletSweep.Proofs.Reading
import TabletSweep.Proofs.Shrinking
import TabletSweep.Proofs.Volume

/-!
# The removal of one target

A path that ends with a plain name is removed, in any tree, by first locating what it names
(`removeFile_eq`, `removeBareDirectory_eq`). So all that the removal of a target can come to depends
on where its path leads and on what stands there; `Removal` lists the cases, and there is no other
(`removal`).

A removal leaves nothing of a target that it calls gone (`Removal.gone`), and changes nothing if it
does not (`Removal.kept`), which is when the way to the target is blocked or leads to something of
the other kind (`removeKey_refused_iff`). In whatever is left after it and after more removals it
changes nothing any more, and does not fail unless it failed already (`removeKey_again`). The same
holds of batches (`removeEach_again`), and nothing is found where a candidate was that a deletion
does not report (`locate_of_not_failed`), in whatever order it went through the batch
(`Deletes.locate`).
-/

namespace TabletSweep

/-- A path that ends with a name, and not with a slash or a step to the same or the upper
directory. -/
structure EndsPlain (path : String) : Prop where
  no_slash : endsWithSlash path = false
  last : ∃ name, (segments path).getLast? = some name ∧ name ≠ "." ∧ name ≠ ".."

theorem Volume.endsPlain_keyPath (v : Volume) {key : Key} (plain : key.IsPlain) :
    EndsPlain (v.keyPath key) := by
  obtain ⟨init, name, split⟩ : ∃ init name, key.components = init ++ [name] := by
    rcases List.eq_nil_or_concat key.components with none | ⟨init, name, split⟩
    · cases none
    · exact ⟨init, name, split.trans List.concat_eq_append⟩
  have named : Plain name := plain name (by simp [split])
  constructor
  · rw [keyPath, split, List.foldl_append]
    exact endsWithSlash_joinPaths named _
  · refine ⟨name, ?_, named.ne_dots⟩
    rw [v.segments_keyPath plain, split, ← List.append_assoc, List.getLast?_concat]

theorem Key.IsPlain.directory {key : Key} (plain : key.IsPlain) : key.directory.IsPlain := by
  intro name hname
  refine plain name ?_
  simp only [Key.components, Key.directory, Option.toList, List.mem_cons, List.not_mem_nil,
    or_false] at hname ⊢
  exact hname.imp_right .inl

/-- The path of a file goes on from the path of the directory that it lies in. -/
theorem Volume.segments_keyPath_dropLast (v : Volume) {key : Key} (plain : key.IsPlain)
    (file : key.isDirectory = false) :
    (segments (v.keyPath key)).dropLast = segments (v.keyPath key.directory) := by
  obtain ⟨table, tablet, _ | name⟩ := key
  · cases file
  · rw [v.segments_keyPath plain, v.segments_keyPath plain.directory]
    simp [Key.components, Key.directory, List.dropLast_append_of_ne_nil]

namespace Tree

variable {t left : Tree} {path : String} {place : Place}

/-! ## Removing what a path names -/

/-- A path that no operation accepts names nothing. -/
theorem locate_of_checkPath_error {e : FsError} (refused : checkPath path = .error e) (t : Tree) :
    t.locate path = .error e := by
  rw [locate, lastStep, refused]
  rfl

section EndsPlain

variable (ends : EndsPlain path)
include ends

/-- Nothing on the way of such a path, or its last name, is looked up in a directory. -/
theorem lastStep_cases (t : Tree) :
    (∃ e, t.lastStep path = .error e) ∨
      ∃ parent name, t.lastStep path = .ok (.name parent name) := by
  obtain ⟨last, hlast, hdot, hup⟩ := ends.last
  cases hstep : t.lastStep path with
  | error e => exact .inl ⟨e, rfl⟩
  | ok step =>
    obtain ⟨⟨⟩, -, h⟩ := exists_of_bind_eq_ok hstep
    rw [hlast] at h
    obtain ⟨parent, -, h⟩ := exists_of_bind_eq_ok h
    rw [if_neg hdot, if_neg hup] at h
    split at h
    · cases h
    · cases h
      exact .inr ⟨parent, last, rfl⟩

/-- What such a path names is looked up in the directory that its last step leads to. -/
theorem locate_eq {parent : Place} {name : String}
    (step : t.lastStep path = .ok (.name parent name)) :
    t.locate path = (t.child parent name).map fun _ => parent ++ [name] := by
  rw [locate, step]
  change (if endsWithSlash path = true then _ else _) = _
  rw [if_neg (by simp [ends.no_slash])]
  cases t.child parent name <;> rfl

theorem locate_ne_root (h : t.locate path = .ok place) : place ≠ [] := by
  rcases lastStep_cases ends t with ⟨e, step⟩ | ⟨parent, name, step⟩
  · rw [locate, step] at h
    cases h
  · rw [locate_eq ends step] at h
    cases hchild : t.child parent name with
    | error e =>
      rw [hchild] at h
      cases h
    | ok node =>
      rw [hchild] at h
      cases h
      simp

/-- The last name of such a path is looked up in the directory that the way to it leads to. -/
theorem locate_of_walk (accepted : checkPath path = .ok ()) {parent : Place}
    (h : t.walk maxLinks [] (segments path).dropLast = .ok parent)
    (directory : t.isDirectory parent = true) {name : String}
    (last : (segments path).getLast? = some name) :
    t.locate path = (t.child parent name).map fun _ => parent ++ [name] := by
  obtain ⟨name', last', hdot, hup⟩ := ends.last
  cases last.symm.trans last'
  refine locate_eq ends ?_
  rw [lastStep, accepted, last, h]
  change (if (!t.isDirectory parent) = true then _ else _) = _
  rw [if_neg (by simp [directory]), if_neg hdot, if_neg hup]
  rfl

/-- The error of the way to the last name of such a path is the error of the path. -/
theorem locate_of_walk_error (accepted : checkPath path = .ok ()) {e : FsError}
    (h : t.walk maxLinks [] (segments path).dropLast = .error e) : t.locate path = .error e := by
  obtain ⟨last, hlast, -⟩ := ends.last
  have step : t.lastStep path = .error e := by
    rw [lastStep, accepted, hlast, h]
    rfl
  rw [locate, step]
  rfl

/-- Such a path names the same in another tree if all on its way is the same. -/
theorem locate_congr (linkless : t.Linkless)
    (agree : ∀ p ∈ Place.way [] (segments path), left.at? p = t.at? p) :
    left.locate path = t.locate path := by
  obtain ⟨last, hlast, -⟩ := ends.last
  have split := List.dropLast_append_getLast? last hlast
  have step : left.lastStep path = t.lastStep path := by
    refine linkless.lastStep_eq fun p hp => agree p ?_
    rw [← split, Place.mem_way_append]
    exact .inl hp
  rcases lastStep_cases ends t with ⟨e, h⟩ | ⟨parent, name, h⟩
  · rw [locate, locate, step, h]
    rfl
  · have same : left.at? (parent ++ [name]) = t.at? (parent ++ [name]) := by
      rw [linkless.lastStep_name h]
      exact agree _ (Place.follow_mem_way ..)
    rw [locate_eq ends h, locate_eq ends (step.trans h), Tree.child, Tree.child, same]

/-- Such a path leads to what it names by nothing but directories. -/
theorem isDirectory_of_locate (linkless : t.Linkless) (h : t.locate path = .ok place) :
    ∀ p ∈ Place.way [] (segments path).dropLast, t.isDirectory p = true := by
  rcases lastStep_cases ends t with ⟨e, step⟩ | ⟨parent, name, step⟩
  · rw [locate, step] at h
    cases h
  · exact linkless.isDirectory_of_lastStep step

/-- What such a path names can be walked to. -/
theorem walk_of_locate (linkless : t.Linkless) (h : t.locate path = .ok place) :
    t.walk maxLinks [] (segments path) = .ok place := by
  rcases lastStep_cases ends t with ⟨e, step⟩ | ⟨parent, name, step⟩
  · rw [locate, step] at h
    cases h
  rw [locate_eq ends step] at h
  cases hchild : t.child parent name with
  | error e =>
    rw [hchild] at h
    cases h
  | ok node =>
    rw [hchild] at h
    cases h
    obtain ⟨hwalk, directory, split, hdot, hup⟩ := of_lastStep_eq_name step
    have hreach := (walk_eq_ok_iff.mp hwalk).1
    have stands := child_ok hchild
    have short : ¬name.utf8ByteSize > maxNameBytes := by
      intro long
      rw [child, if_pos long] at hchild
      cases hchild
    have entered : ¬(!t.isDirectory parent) = true := by simp [directory]
    refine walk_eq_ok_iff.mpr ⟨?_, by rw [stands, Option.isSome_some]⟩
    rw [← split]
    refine (linkless.reachWith_concat hreach directory).trans ?_
    rw [reachWith, if_neg entered, if_neg hdot, if_neg hup, if_neg short, stands]
    cases node with
    | file | directory => rfl
    | link target => exact absurd stands (linkless _ target)

theorem removeFile_eq (t : Tree) :
    t.removeFile path = t.locate path >>= fun place =>
      if t.at? place = some .directory then .error .isADirectory else .ok (t.erase place) := by
  rcases lastStep_cases ends t with ⟨e, step⟩ | ⟨parent, name, step⟩
  · rw [removeFile, locate, step]
    rfl
  · rw [locate_eq ends step, removeFile, step]
    change (t.child parent name >>= _) = _
    cases hchild : t.child parent name with
    | error e => rfl
    | ok node =>
      change _ = if t.at? (parent ++ [name]) = some .directory then _ else _
      rw [child_ok hchild]
      have slashless : ¬endsWithSlash path = true := by simp [ends.no_slash]
      cases node with
      | directory => rfl
      | file | link target => exact if_neg slashless

theorem removeBareDirectory_eq (t : Tree) :
    t.removeBareDirectory path = t.locate path >>= fun place =>
      if t.at? place = some .directory then
        if t.isBare place then .ok (t.erase place) else .error .notEmpty
      else .error .notADirectory := by
  rcases lastStep_cases ends t with ⟨e, step⟩ | ⟨parent, name, step⟩
  · rw [removeBareDirectory, locate, step]
    rfl
  · rw [locate_eq ends step, removeBareDirectory, step]
    change (t.child parent name >>= _) = _
    cases hchild : t.child parent name with
    | error e => rfl
    | ok node =>
      change _ = if t.at? (parent ++ [name]) = some .directory then _ else _
      rw [child_ok hchild]
      cases node <;> rfl

/-- Once all below it is gone, a directory is removed or not found any more. -/
theorem removeBareDirectory_clear (located : t.locate path = .ok place)
    (directory : t.at? place = some .directory) :
    (t.clear place).locate path = .ok place ∧
        (t.clear place).removeBareDirectory path = .ok ((t.clear place).erase place) ∨
      (t.clear place).locate path = .error .notFound ∧
        (t.clear place).removeBareDirectory path = .error .notFound := by
  rw [removeBareDirectory_eq ends]
  rcases (within_clear t place).locate path with same | gone
  · refine .inl ⟨same.trans located, ?_⟩
    have stays : (t.clear place).at? place = some .directory := by
      rw [at?_clear, if_neg (by simp [Place.isBelow]), directory]
    have bare : (t.clear place).isBare place = true := by
      simp [isBare, clear]
    rw [same, located]
    change (if (t.clear place).at? place = some .directory then _ else _) = _
    rw [if_pos stays, if_pos bare]
  · rw [gone]
    exact .inr ⟨rfl, rfl⟩

/-- What a path led to is not found once it is erased, whatever else has gone. -/
theorem locate_erase (within : left.Within t) (located : t.locate path = .ok place) :
    (left.erase place).locate path = .error .notFound := by
  have within' : (left.erase place).Within t := (within_erase left place).trans within
  refine (within'.locate path).resolve_left fun same => ?_
  have stands := isSome_of_locate (same.trans located)
  rw [at?_erase, if_pos ⟨rfl, locate_ne_root ends located⟩] at stands
  cases stands

end EndsPlain

end Tree

namespace Volume

open TabletSweep.Tree

variable {v : Volume} {t left : Tree} {key : Key} {answer : Bool}

/-! ## Cases -/

/-- What the removal of a target comes to: whether the target is gone, and what is left. -/
inductive Removal (v : Volume) (t : Tree) (key : Key) : Bool → Tree → Prop
  /-- Something on the way to the target, or the target itself, does not exist. -/
  | absent (h : t.locate (v.keyPath key) = .error .notFound) : Removal v t key true t
  /-- The way cannot be followed for another reason. -/
  | unreachable {e} (h : t.locate (v.keyPath key) = .error e) (other : e ≠ .notFound) :
    Removal v t key false t
  /-- A file stands where a directory is to be removed, or a directory for a file. -/
  | mismatch {place} (h : t.locate (v.keyPath key) = .ok place)
    (node : t.at? place = some (if key.isDirectory then .file else .directory)) :
    Removal v t key false t
  /-- A file or a symbolic link is removed by itself. -/
  | entry {place node} (h : t.locate (v.keyPath key) = .ok place) (stands : t.at? place = some node)
    (kind : node ≠ .directory ∧ (key.isDirectory = true → node ≠ .file)) :
    Removal v t key true (t.erase place)
  /-- A directory is removed with all below it. -/
  | subtree {place} (directory : key.isDirectory = true)
    (h : t.locate (v.keyPath key) = .ok place) (stands : t.at? place = some .directory)
    (cleared : (t.clear place).locate (v.keyPath key) = .ok place) :
    Removal v t key true ((t.clear place).erase place)
  /-- The way to a directory leads through something below it, and goes with that. -/
  | hollow {place} (directory : key.isDirectory = true)
    (h : t.locate (v.keyPath key) = .ok place) (stands : t.at? place = some .directory)
    (cleared : (t.clear place).locate (v.keyPath key) = .error .notFound) :
    Removal v t key true (t.clear place)

/-- The removal of a directory goes through the cases. -/
theorem removal_of_directory (plain : key.IsPlain) (directory : key.isDirectory = true) :
    Removal v t key (v.removeKey t key).1 (v.removeKey t key).2 := by
  have ends := v.endsPlain_keyPath plain
  rw [removeKey, if_pos directory, removeSubtree]
  cases located : t.locate (v.keyPath key) with
  | error e =>
    cases e with
    | notFound => exact .absent located
    | _ => exact .unreachable located nofun
  | ok place =>
    obtain ⟨node, stands⟩ := Option.isSome_iff_exists.mp (isSome_of_locate located)
    simp only [stands]
    cases node with
    | file =>
      refine .mismatch located ?_
      rw [stands, if_pos directory]
    | directory =>
      rcases removeBareDirectory_clear ends located stands with ⟨found, removed⟩ | ⟨lost, refused⟩
      · simp only [removed]
        exact .subtree directory located stands found
      · simp only [refused]
        exact .hollow directory located stands lost
    | link target =>
      have removed : t.removeFile (v.keyPath key) = .ok (t.erase place) := by
        rw [removeFile_eq ends, located]
        exact if_neg (by simp [stands])
      simp only [removed]
      exact .entry located stands ⟨nofun, fun _ => nofun⟩

/-- The removal of a file goes through the cases. -/
theorem removal_of_file (plain : key.IsPlain) (file : key.isDirectory = false) :
    Removal v t key (v.removeKey t key).1 (v.removeKey t key).2 := by
  have ends := v.endsPlain_keyPath plain
  have notDirectory : ¬key.isDirectory = true := by simp [file]
  rw [removeKey, if_neg notDirectory]
  cases located : t.locate (v.keyPath key) with
  | error e =>
    have refused : t.removeFile (v.keyPath key) = .error e := by
      rw [removeFile_eq ends, located]
      rfl
    simp only [refused]
    cases e with
    | notFound => exact .absent located
    | _ => exact .unreachable located nofun
  | ok place =>
    obtain ⟨node, stands⟩ := Option.isSome_iff_exists.mp (isSome_of_locate located)
    by_cases directory : node = .directory
    · subst directory
      have refused : t.removeFile (v.keyPath key) = .error .isADirectory := by
        rw [removeFile_eq ends, located]
        exact if_pos stands
      simp only [refused]
      refine .mismatch located ?_
      rw [stands, if_neg notDirectory]
    · have removed : t.removeFile (v.keyPath key) = .ok (t.erase place) := by
        rw [removeFile_eq ends, located]
        exact if_neg (by simp [stands, directory])
      simp only [removed]
      exact .entry located stands ⟨directory, fun h => absurd h notDirectory⟩

/-- The removal of a target goes through the cases. -/
theorem removal (plain : key.IsPlain) (v : Volume) (t : Tree) :
    Removal v t key (v.removeKey t key).1 (v.removeKey t key).2 := by
  cases directory : key.isDirectory with
  | true => exact removal_of_directory plain directory
  | false => exact removal_of_file plain directory

/-! ## What every case has in common -/

namespace Removal

/-- A removal adds nothing. -/
theorem within (h : Removal v t key answer left) : left.Within t := by
  cases h with
  | absent | unreachable | mismatch => exact .refl t
  | entry => exact within_erase t _
  | subtree => exact (within_erase _ _).trans (within_clear t _)
  | hollow => exact within_clear t _

/-- A removal that does not get its target changes nothing. -/
theorem kept (h : Removal v t key false left) : left = t := by
  cases h <;> rfl

/-- Nothing is found at the path of a target that is gone. -/
theorem gone (plain : key.IsPlain) (h : Removal v t key true left) :
    left.locate (v.keyPath key) = .error .notFound := by
  have ends := v.endsPlain_keyPath plain
  cases h with
  | absent h => exact h
  | entry h => exact locate_erase ends (.refl t) h
  | subtree _ h => exact locate_erase ends (within_clear t _) h
  | hollow _ _ _ cleared => exact cleared

end Removal

variable (v) in
/-- A target that is not found counts as gone. -/
theorem removeKey_of_notFound (plain : key.IsPlain)
    (absent : t.locate (v.keyPath key) = .error .notFound) : v.removeKey t key = (true, t) := by
  have h := removal plain v t
  generalize v.removeKey t key = result at h
  obtain ⟨gone, left⟩ := result
  cases h with
  | absent => rfl
  | unreachable h other => cases absent.symm.trans h; exact absurd rfl other
  | mismatch h | entry h | subtree _ h | hollow _ h => cases absent.symm.trans h

variable (v) in
/-- A target is not removed when its path cannot be followed for another reason than that something
is not found, or leads to something of the other kind. -/
theorem removeKey_refused_iff (plain : key.IsPlain) (t : Tree) :
    (v.removeKey t key).1 = false ↔
      (∃ e, t.locate (v.keyPath key) = .error e ∧ e ≠ .notFound) ∨
        ∃ place, t.locate (v.keyPath key) = .ok place ∧
          t.at? place = some (if key.isDirectory then .file else .directory) := by
  have h := removal plain v t
  generalize v.removeKey t key = result at h
  obtain ⟨gone, left⟩ := result
  cases h with
  | unreachable h other => exact ⟨fun _ => .inl ⟨_, h, other⟩, fun _ => rfl⟩
  | mismatch h node => exact ⟨fun _ => .inr ⟨_, h, node⟩, fun _ => rfl⟩
  | absent h =>
    refine ⟨nofun, ?_⟩
    rintro (⟨e, h', other⟩ | ⟨place, h', -⟩)
    · cases h.symm.trans h'
      exact absurd rfl other
    · cases h.symm.trans h'
  | entry h stands kind =>
    refine ⟨nofun, ?_⟩
    rintro (⟨e, h', -⟩ | ⟨place, h', node⟩)
    · cases h.symm.trans h'
    · cases h.symm.trans h'
      cases stands.symm.trans node
      split at kind
      · rename_i directory
        exact absurd rfl (kind.2 directory)
      · exact absurd rfl kind.1
  | subtree directory h stands | hollow directory h stands =>
    refine ⟨nofun, ?_⟩
    rintro (⟨e, h', -⟩ | ⟨place, h', node⟩)
    · cases h.symm.trans h'
    · cases h.symm.trans h'
      rw [if_pos directory] at node
      cases stands.symm.trans node

/-- Whether a target is removed is the same in what is left of a tree if its path leads there as
before. -/
theorem removeKey_answer_congr (plain : key.IsPlain) (within : left.Within t)
    (same : left.locate (v.keyPath key) = t.locate (v.keyPath key)) :
    (v.removeKey left key).1 = (v.removeKey t key).1 := by
  rw [Bool.eq_iff_iff, ← not_iff_not, Bool.not_eq_true, Bool.not_eq_true,
    removeKey_refused_iff v plain, removeKey_refused_iff v plain, same]
  refine or_congr_right (exists_congr fun place => and_congr_right fun located => ?_)
  rw [within.at?_eq (isSome_of_locate (same.trans located))]

/-- Once a target was to be removed, removing it from whatever is left then changes nothing, and
fails only if it failed before. -/
theorem removeKey_again (plain : key.IsPlain) (within : left.Within (v.removeKey t key).2) :
    (v.removeKey left key).2 = left ∧
      ((v.removeKey left key).1 = false → (v.removeKey t key).1 = false) := by
  have h := removal plain v t
  cases answer : (v.removeKey t key).1 with
  | true =>
    rw [answer] at h
    have absent := (within.locate (v.keyPath key)).notFound (h.gone plain)
    rw [removeKey_of_notFound v plain absent]
    exact ⟨rfl, nofun⟩
  | false =>
    rw [answer] at h
    rw [h.kept] at within
    refine ⟨?_, fun _ => rfl⟩
    rcases within.locate (v.keyPath key) with same | absent
    · have h' := removal plain v left
      rw [removeKey_answer_congr plain within same, answer] at h'
      exact h'.kept
    · rw [removeKey_of_notFound v plain absent]

/-! ## Batches -/

/-- The candidates of a page have keys with plain names. -/
theorem isPlain_of_ofPage {tablesDir : String} {page : List String} {batch : List Candidate}
    (read : Candidate.ofPage tablesDir page = .ok batch) : ∀ c ∈ batch, c.key.IsPlain :=
  fun c hc => Key.isPlain_of_ofPath ((ofPage_eq_ok_iff.mp read).2 c hc)

variable {c : Candidate} {cs batch : List Candidate}

theorem removeEach_cons_tree (v : Volume) (t : Tree) (c : Candidate) (cs : List Candidate) :
    (v.removeEach t (c :: cs)).2 = (v.removeEach (v.removeKey t c.key).2 cs).2 := rfl

theorem removeEach_cons_failed (v : Volume) (t : Tree) (c : Candidate) (cs : List Candidate) :
    (v.removeEach t (c :: cs)).1 =
      if (v.removeKey t c.key).1 then (v.removeEach (v.removeKey t c.key).2 cs).1
      else c.literal :: (v.removeEach (v.removeKey t c.key).2 cs).1 := rfl

theorem deleteBatch_tree (v : Volume) (t : Tree) (batch : List Candidate) :
    (v.deleteBatch t batch).2 = (v.removeEach t batch).2 := rfl

theorem failed_deleteBatch_perm (v : Volume) (t : Tree) (batch : List Candidate) :
    (v.deleteBatch t batch).1.failed.Perm (v.removeEach t batch).1 :=
  List.mergeSort_perm ..

theorem sorted_failed_deleteBatch (v : Volume) (t : Tree) (batch : List Candidate) :
    (v.deleteBatch t batch).1.failed.Pairwise (· ≤ ·) := by
  have sorted : (v.deleteBatch t batch).1.failed.Pairwise fun a b => decide (a ≤ b) = true := by
    apply List.pairwise_mergeSort
    · simpa using fun a b c => String.le_trans
    · simpa using String.le_total
  simpa using sorted

/-- A report is told by what it lists, in whatever order. -/
theorem failed_deleteBatch_eq {failed : List String} (perm : (v.removeEach t batch).1.Perm failed)
    (sorted : failed.Pairwise (· ≤ ·)) : (v.deleteBatch t batch).1.failed = failed :=
  ((failed_deleteBatch_perm v t batch).trans perm).eq_of_pairwise
    (fun _ _ _ _ => String.le_antisymm) (sorted_failed_deleteBatch v t batch) sorted

/-- A batch leaves what its first candidates leave and, of that, what the others do. -/
theorem removeEach_append_tree (v : Volume) (t : Tree) (before after : List Candidate) :
    (v.removeEach t (before ++ after)).2 = (v.removeEach (v.removeEach t before).2 after).2 := by
  induction before generalizing t with
  | nil => rfl
  | cons c before ih => exact ih (v.removeKey t c.key).2

/-- What is not removed of a batch are the candidates whose removal fails when their turn comes. -/
theorem mem_failed_iff {literal : String} :
    literal ∈ (v.deleteBatch t batch).1.failed ↔
      ∃ before c after, batch = before ++ c :: after ∧ c.literal = literal ∧
        (v.removeKey (v.removeEach t before).2 c.key).1 = false := by
  rw [(failed_deleteBatch_perm v t batch).mem_iff]
  induction batch generalizing t with
  | nil => simp [removeEach]
  | cons c cs ih =>
    rw [removeEach_cons_failed]
    have later : literal ∈ (v.removeEach (v.removeKey t c.key).2 cs).1 ↔
        ∃ before d after, c :: cs = (c :: before) ++ d :: after ∧ d.literal = literal ∧
          (v.removeKey (v.removeEach t (c :: before)).2 d.key).1 = false := by
      rw [ih]
      simp only [List.cons_append, List.cons.injEq, true_and, removeEach_cons_tree]
    have split : literal ∈ (if (v.removeKey t c.key).1 then
          (v.removeEach (v.removeKey t c.key).2 cs).1
        else c.literal :: (v.removeEach (v.removeKey t c.key).2 cs).1) ↔
        (v.removeKey t c.key).1 = false ∧ c.literal = literal ∨
          literal ∈ (v.removeEach (v.removeKey t c.key).2 cs).1 := by
      cases (v.removeKey t c.key).1 <;> simp [eq_comm]
    rw [split, later]
    constructor
    · rintro (⟨failed, rfl⟩ | ⟨before, d, after, e, rfl, failed⟩)
      · exact ⟨[], c, cs, rfl, rfl, failed⟩
      · exact ⟨c :: before, d, after, e, rfl, failed⟩
    · rintro ⟨before, d, after, e, rfl, failed⟩
      cases before with
      | nil =>
        obtain ⟨rfl, -⟩ := List.cons.inj e
        exact .inl ⟨failed, rfl⟩
      | cons b before =>
        obtain ⟨rfl, -⟩ := List.cons.inj e
        exact .inr ⟨before, d, after, e, rfl, failed⟩

section Plain

variable (plain : ∀ c ∈ batch, c.key.IsPlain)
include plain

theorem removeEach_within (v : Volume) (t : Tree) : (v.removeEach t batch).2.Within t := by
  induction batch generalizing t with
  | nil => exact .refl t
  | cons c cs ih =>
    obtain ⟨first, others⟩ := List.forall_mem_cons.mp plain
    exact (ih others _).trans (removal first v t).within

/-- Nothing is found at the path of a candidate that a deletion does not report, whatever came of
the other candidates. -/
theorem locate_of_not_failed (hc : c ∈ batch)
    (reported : c.literal ∉ (v.deleteBatch t batch).1.failed) :
    (v.deleteBatch t batch).2.locate (v.keyPath c.key) = .error .notFound := by
  obtain ⟨before, after, rfl⟩ := List.append_of_mem hc
  have plain' : ∀ d ∈ after, d.key.IsPlain := fun d hd => plain d (by simp [hd])
  have first : c.key.IsPlain := plain c hc
  have gone : (v.removeKey (v.removeEach t before).2 c.key).1 = true := by
    rw [← Bool.not_eq_false]
    exact fun failed => reported (mem_failed_iff.mpr ⟨before, c, after, rfl, rfl, failed⟩)
  have h := removal first v (v.removeEach t before).2
  rw [gone] at h
  rw [deleteBatch_tree, removeEach_append_tree, removeEach_cons_tree]
  exact ((removeEach_within plain' v _).locate _).notFound (h.gone first)

/-- Once a batch was to be removed, removing it from whatever is left then changes nothing, and
fails only where it failed before. -/
theorem removeEach_again (within : left.Within (v.removeEach t batch).2) :
    (v.removeEach left batch).2 = left ∧
      (v.removeEach left batch).1.Sublist (v.removeEach t batch).1 := by
  induction batch generalizing t with
  | nil => exact ⟨rfl, .refl _⟩
  | cons c cs ih =>
    obtain ⟨first, others⟩ := List.forall_mem_cons.mp plain
    have within' : left.Within (v.removeKey t c.key).2 :=
      within.trans (removeEach_within others v _)
    obtain ⟨same, failed⟩ := removeKey_again first within'
    obtain ⟨same', failed'⟩ := ih others within
    rw [removeEach_cons_tree, removeEach_cons_failed, removeEach_cons_failed, same]
    refine ⟨same', ?_⟩
    cases again : (v.removeKey left c.key).1 with
    | true =>
      cases (v.removeKey t c.key).1 with
      | true => exact failed'
      | false => exact failed'.cons _
    | false =>
      rw [failed again]
      exact failed'.cons_cons _

/-! ## In any order -/

section Deletes

variable {report : DeleteReport} (deletes : v.Deletes t batch report left)
include deletes

/-- A deletion adds nothing. -/
theorem Deletes.within : left.Within t := by
  obtain ⟨order, perm, -, rfl⟩ := deletes
  exact removeEach_within (fun c hc => plain c (perm.mem_iff.mp hc)) v t

/-- Nothing is found at the path of a candidate that a deletion does not report, in whatever order
it went through the batch. -/
theorem Deletes.locate (hc : c ∈ batch) (unreported : c.literal ∉ report.failed) :
    left.locate (v.keyPath c.key) = .error .notFound := by
  obtain ⟨order, perm, rfl, rfl⟩ := deletes
  exact locate_of_not_failed (fun d hd => plain d (perm.mem_iff.mp hd)) (perm.mem_iff.mpr hc)
    unreported

end Deletes

end Plain

end Volume

end TabletSweep
