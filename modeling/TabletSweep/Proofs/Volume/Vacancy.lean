import TabletSweep.Proofs.Volume.Removal

/-!
# Empty directories of tables

The directory of a table is `Vacant` if it stands where its path leads and nothing is in it. A
volume that is to remove it can fail for many reasons, as a file in its place or a name that is too
long. Once nothing is found at the path of a tablet directory of the table, all of these are ruled
out: then the volume removes the directory of the table if that is vacant, and leaves the tree alone
if not (`removeTableDir_of_notFound`).
-/

namespace TabletSweep

variable {t : Tree} {path : String} {place : Place}

theorem EndsPlain.ne_empty (ends : EndsPlain path) : path ≠ "" := by
  rintro rfl
  obtain ⟨name, last, -⟩ := ends.last
  cases last

namespace Tree

/-- The start of an accepted path is accepted, unless it is empty. -/
theorem checkPath_of_append {left right : String} (nonempty : left ≠ "")
    (accepted : checkPath (left ++ right) = .ok ()) : checkPath left = .ok () := by
  unfold checkPath at accepted
  split at accepted
  · cases accepted
  rename_i clean
  split at accepted
  · cases accepted
  rename_i short
  rw [String.toList_append, List.contains_iff_mem, List.mem_append, not_or] at clean
  rw [String.utf8ByteSize_append] at short
  rw [checkPath, if_neg (by simpa using clean.1), if_neg (by omega), if_neg nonempty]

/-- Only the empty path is refused as not found before it is followed. -/
theorem checkPath_ne_notFound (nonempty : path ≠ "") : checkPath path ≠ .error .notFound := by
  unfold checkPath
  rw [if_neg nonempty]
  split
  · nofun
  · split <;> nofun

theorem isBareDirectory_of_resolve (found : t.resolve path = .ok place)
    (directory : t.isDirectory place = true) : t.isBareDirectory path = .ok (t.isBare place) := by
  rw [isBareDirectory, found]
  exact if_pos directory

section EndsPlain

variable (ends : EndsPlain path)
include ends

theorem removeBareDirectory_of_isBare (located : t.locate path = .ok place)
    (directory : t.isDirectory place = true) (bare : t.isBare place = true) :
    t.removeBareDirectory path = .ok (t.erase place) := by
  have stands : t.at? place = some .directory := of_decide_eq_true directory
  rw [removeBareDirectory_eq ends, located]
  exact (if_pos stands).trans (if_pos bare)

/-- An accepted path that ends with a name is resolved by walking along its names. -/
theorem resolve_eq_walk (accepted : checkPath path = .ok ()) (t : Tree) :
    t.resolve path = t.walk maxLinks [] (segments path) := by
  rw [resolve, accepted, wayOf, if_neg (by simp [ends.no_slash]), List.append_nil]
  rfl

/-- What such a path can be walked to is what it names. -/
theorem locate_of_walk_eq_ok (linkless : t.Linkless) (accepted : checkPath path = .ok ())
    (h : t.walk maxLinks [] (segments path) = .ok place) : t.locate path = .ok place := by
  obtain ⟨name, last, hdot, hup⟩ := ends.last
  obtain ⟨reached, stands⟩ := walk_eq_ok_iff.mp h
  rw [← List.dropLast_append_getLast? name last] at reached
  obtain ⟨parent, toParent, directory, toPlace⟩ := linkless.reachWith_of_concat reached stands
  have walked : t.walk maxLinks [] (segments path).dropLast = .ok parent :=
    walk_eq_ok_iff.mpr ⟨toParent, isSome_of_isDirectory directory⟩
  obtain ⟨node, found, rfl⟩ := linkless.child_of_reachWith hdot hup toPlace stands
  rw [locate_of_walk ends accepted walked directory last, found]
  rfl

/-- If nothing is found at such a path, either the way to its last name is lost, or it leads to a
directory. -/
theorem walk_of_locate_notFound (absent : t.locate path = .error .notFound) :
    checkPath path = .ok () ∧
      (t.walk maxLinks [] (segments path).dropLast = .error .notFound ∨
        ∃ parent, t.walk maxLinks [] (segments path).dropLast = .ok parent ∧
          t.isDirectory parent = true) := by
  cases accepted : checkPath path with
  | error e =>
    rw [locate_of_checkPath_error accepted] at absent
    cases absent
    exact absurd accepted (checkPath_ne_notFound ends.ne_empty)
  | ok =>
    refine ⟨rfl, ?_⟩
    cases walked : t.walk maxLinks [] (segments path).dropLast with
    | error e =>
      rw [locate_of_walk_error ends accepted walked] at absent
      exact .inl absent
    | ok parent =>
      refine .inr ⟨parent, rfl, ?_⟩
      obtain ⟨name, last, -⟩ := ends.last
      by_contra other
      have step : t.lastStep path = .error .notADirectory := by
        rw [lastStep, accepted, last, walked]
        exact if_pos (by simp [other])
      rw [locate, step] at absent
      cases absent

end EndsPlain

end Tree

namespace Volume

open TabletSweep.Tree

variable (v : Volume) {key : Key} {table : String}

/-- The directory of a table stands where its path leads, with nothing in it. -/
structure Vacant (t : Tree) (table : String) : Prop where
  found : t.resolve (v.tablePath table) = .ok (v.tablePlace table)
  directory : t.isDirectory (v.tablePlace table) = true
  bare : ∀ q, v.tablePlace table <+: q → q ≠ v.tablePlace table → t.at? q = none

theorem endsPlain_tablePath (plain : Plain table) : EndsPlain (v.tablePath table) := by
  constructor
  · exact endsWithSlash_joinPaths plain _
  · refine ⟨table, ?_, plain.ne_dots⟩
    rw [tablePath, segments_joinPaths (startsWithSlash_of_plain plain), plain.segments_eq,
      List.getLast?_concat]

/-- The path of a tablet directory goes on from that of the directory of its table. -/
theorem keyPath_eq_tablePath_append (plain : key.IsPlain) (directory : key.isDirectory = true) :
    v.keyPath key = v.tablePath key.table ++ "/" ++ key.tablet ∧
      (segments (v.keyPath key)).dropLast = segments (v.tablePath key.table) := by
  obtain ⟨table, tablet, _ | file⟩ := key
  · have hname : Plain tablet := plain tablet (by simp [Key.components])
    have htable : Plain table := plain table (by simp [Key.components])
    have joined : v.keyPath ⟨table, tablet, none⟩ = v.tablePath table ++ "/" ++ tablet :=
      (needsSlash_joinPaths htable _).joinPaths_eq hname
    refine ⟨joined, ?_⟩
    rw [joined, segments_append_slash, hname.segments_eq, List.dropLast_concat]
  · cases directory

variable {v}

section Accepted

variable (linkless : t.Linkless) (plain : Plain table)
  (accepted : checkPath (v.tablePath table) = .ok ())
include plain accepted

/-- Nothing is removed where the way to the directory of a table is lost. -/
theorem removeTableDir_of_walk_notFound
    (lost : t.walk maxLinks [] (segments (v.tablePath table)) = .error .notFound) :
    ¬v.Vacant t table ∧ v.removeTableDir t table = (.ok false, t) := by
  have absent : t.resolve (v.tablePath table) = .error .notFound := by
    rw [resolve_eq_walk (v.endsPlain_tablePath plain) accepted, lost]
  refine ⟨fun vacant => ?_, ?_⟩
  · cases absent.symm.trans vacant.found
  · have refused : t.isBareDirectory (v.tablePath table) = .error .notFound := by
      rw [isBareDirectory, absent]
      rfl
    unfold removeTableDir
    simp only [refused]

include linkless in
/-- The directory of a table that is walked to is removed if it is bare. -/
theorem removeTableDir_of_walk_ok
    (found : t.walk maxLinks [] (segments (v.tablePath table)) = .ok place)
    (directory : t.isDirectory place = true) :
    v.Vacant t table ∧ v.removeTableDir t table = (.ok true, t.erase (v.tablePlace table)) ∨
      ¬v.Vacant t table ∧ v.removeTableDir t table = (.ok false, t) := by
  have ends := v.endsPlain_tablePath plain
  obtain rfl : place = v.tablePlace table := by
    rw [← v.endOf_tablePath plain]
    exact (linkless.walk_ok found).1
  have resolved : t.resolve (v.tablePath table) = .ok (v.tablePlace table) := by
    rw [resolve_eq_walk ends accepted, found]
  have answered := isBareDirectory_of_resolve resolved directory
  cases bare : t.isBare (v.tablePlace table) with
  | true =>
    have located := locate_of_walk_eq_ok ends linkless accepted found
    have removed := removeBareDirectory_of_isBare ends located directory bare
    refine .inl ⟨⟨resolved, directory, isBare_iff.mp bare⟩, ?_⟩
    unfold removeTableDir
    simp only [answered, bare, removed]
  | false =>
    refine .inr ⟨fun vacant => ?_, ?_⟩
    · rw [isBare_iff.mpr vacant.bare] at bare
      cases bare
    · unfold removeTableDir
      simp only [answered, bare]

end Accepted

/-- Where nothing is found at the path of a tablet directory, the directory of the table is removed
if it is vacant, and the tree stays as it is if not. -/
theorem removeTableDir_of_notFound (linkless : t.Linkless) (plain : key.IsPlain)
    (directory : key.isDirectory = true) (absent : t.locate (v.keyPath key) = .error .notFound) :
    v.Vacant t key.table ∧
        v.removeTableDir t key.table = (.ok true, t.erase (v.tablePlace key.table)) ∨
      ¬v.Vacant t key.table ∧ v.removeTableDir t key.table = (.ok false, t) := by
  have htable : Plain key.table := plain key.table (by simp [Key.components])
  obtain ⟨joined, names⟩ := v.keyPath_eq_tablePath_append plain directory
  obtain ⟨accepted, way⟩ := walk_of_locate_notFound (v.endsPlain_keyPath plain) absent
  rw [names] at way
  rw [joined, String.append_assoc] at accepted
  have accepted' := checkPath_of_append (needsSlash_joinPaths htable _).ne_empty accepted
  rcases way with lost | ⟨place, found, entered⟩
  · exact .inr (removeTableDir_of_walk_notFound htable accepted' lost)
  · exact removeTableDir_of_walk_ok linkless htable accepted' found entered

end Volume

end TabletSweep
