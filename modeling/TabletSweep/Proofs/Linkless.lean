import TabletSweep.Filesystem.Remove
import TabletSweep.Proofs.Key

/-!
# Trees without symbolic links

Without symbolic links it does not depend on a tree where a path leads, only whether it leads there:
`endOf` says where, and `Place.way` by which places. What a removal takes away stands at the end of
its path or below (`Linkless.removeFile_prunes`, `Linkless.removeSubtree_prunes`), and the removal
of a bare directory takes away nothing but that (`Linkless.removeBareDirectory_ok`). What a path
comes to stays the same as long as all stays that stands on its way (`Linkless.walk_eq`,
`Linkless.lastStep_eq`), and if it has no `..` that is what stands above its end
(`Linkless.resolve_congr`).
-/

namespace TabletSweep

namespace Place

/-- Where names lead from a place when no symbolic link is in the way. -/
def follow : Place → List String → Place
  | place, [] => place
  | place, name :: names =>
    if name = "." then follow place names
    else if name = ".." then follow place.dropLast names
    else follow (place ++ [name]) names

theorem follow_append (place : Place) (xs ys : List String) :
    follow place (xs ++ ys) = follow (follow place xs) ys := by
  induction xs generalizing place with
  | nil => rfl
  | cons x xs ih =>
    simp only [List.cons_append, follow]
    split
    · exact ih place
    · split
      · exact ih place.dropLast
      · exact ih (place ++ [x])

theorem follow_plain (place : Place) {names : List String} (plain : ∀ name ∈ names, Plain name) :
    follow place names = place ++ names := by
  induction names generalizing place with
  | nil => simp [follow]
  | cons name names ih =>
    obtain ⟨hdot, hdotdot⟩ := (plain name (by simp)).ne_dots
    rw [follow, if_neg hdot, if_neg hdotdot, ih _ fun n hn => plain n (by simp [hn])]
    simp

/-- The places that names lead by, from a place on, when no symbolic link is in the way. -/
def way : Place → List String → List Place
  | place, [] => [place]
  | place, name :: names =>
    place ::
      if name = "." then way place names
      else if name = ".." then way place.dropLast names
      else way (place ++ [name]) names

theorem start_mem_way (place : Place) (names : List String) : place ∈ way place names := by
  cases names with
  | nil => exact List.mem_singleton_self place
  | cons name names => exact List.mem_cons_self

theorem way_cons (place : Place) (name : String) (names : List String) :
    way place (name :: names) = place :: way (follow place [name]) names := by
  simp only [way, follow]
  split
  · rfl
  · split <;> rfl

theorem mem_way_append {place q : Place} {xs ys : List String} :
    q ∈ way place (xs ++ ys) ↔ q ∈ way place xs ∨ q ∈ way (follow place xs) ys := by
  induction xs generalizing place with
  | nil =>
    rw [List.nil_append, way, follow, List.mem_singleton]
    refine ⟨.inr, fun h => h.elim ?_ id⟩
    rintro rfl
    exact start_mem_way q ys
  | cons x xs ih =>
    simp only [List.cons_append, way, follow, List.mem_cons, or_assoc]
    refine or_congr_right ?_
    split
    · exact ih
    · split
      · exact ih
      · exact ih

/-- Without `..` names lead by nothing but what is above the place that they lead to. -/
theorem prefix_follow_of_mem_way {place q : Place} {names : List String} (noUp : ".." ∉ names)
    (h : q ∈ way place names) : q <+: follow place names := by
  induction names generalizing place q with
  | nil => exact List.mem_singleton.mp h ▸ List.prefix_refl place
  | cons name names ih =>
    simp only [List.mem_cons, not_or] at noUp
    rw [way, if_neg (Ne.symm noUp.1), List.mem_cons] at h
    rw [follow, if_neg (Ne.symm noUp.1)]
    by_cases hdot : name = "."
    · rw [if_pos hdot] at h ⊢
      rcases h with rfl | h
      · exact ih noUp.2 (start_mem_way q names)
      · exact ih noUp.2 h
    · rw [if_neg hdot] at h ⊢
      rcases h with rfl | h
      · exact (List.prefix_append q [name]).trans (ih noUp.2 (start_mem_way _ names))
      · exact ih noUp.2 h

theorem follow_mem_way (place : Place) (names : List String) :
    follow place names ∈ way place names := by
  induction names generalizing place with
  | nil => exact List.mem_singleton_self place
  | cons name names ih =>
    rw [way, follow]
    refine List.mem_cons_of_mem _ ?_
    split
    · exact ih _
    · split
      · exact ih _
      · exact ih _

end Place

/-- Where a path leads when no symbolic link is in the way. -/
def endOf (path : String) : Place := Place.follow [] (segments path)

theorem follow_wayOf (path : String) : Place.follow [] (wayOf path) = endOf path := by
  rw [wayOf, Place.follow_append, endOf]
  split <;> rfl

namespace Tree

variable {t t' : Tree} {place q : Place} {names : List String} {path : String}

/-- No symbolic link stands anywhere. -/
def Linkless (t : Tree) : Prop := ∀ place target, t.at? place ≠ some (.link target)

/-- A tree of files and directories has no symbolic link. -/
theorem linkless_of_entries (h : ∀ entry ∈ t.entries, entry.2 = .file ∨ entry.2 = .directory) :
    t.Linkless := by
  intro place target
  unfold at?
  split
  · simp
  · rw [ne_eq, Option.map_eq_some_iff]
    rintro ⟨entry, found, link⟩
    rcases h entry (List.mem_of_find?_eq_some found) with file | directory
    · cases file.symm.trans link
    · cases directory.symm.trans link

theorem isSome_of_isDirectory (directory : t.isDirectory place = true) :
    (t.at? place).isSome = true := by
  rw [isDirectory, decide_eq_true_eq] at directory
  rw [directory, Option.isSome_some]

section Follow

variable {follow follow' : Place → List String → Except FsError Place}

theorem Linkless.reachWith_ok (linkless : t.Linkless)
    (h : t.reachWith follow place names = .ok q) : q = Place.follow place names := by
  induction names generalizing place with
  | nil =>
    cases h
    rfl
  | cons name names ih =>
    unfold reachWith at h
    rw [Place.follow]
    split at h
    · cases h
    split at h
    · rename_i hdot
      rw [if_pos hdot]
      exact ih h
    rename_i hdot
    rw [if_neg hdot]
    split at h
    · rename_i hup
      rw [if_pos hup]
      exact ih h
    rename_i hup
    rw [if_neg hup]
    split at h
    · cases h
    split at h
    · split at h
      · rename_i hnames
        obtain rfl := List.isEmpty_iff.mp hnames
        cases h
        rfl
      · cases h
    · rename_i target hlink
      exact absurd hlink (linkless _ target)
    · exact ih h

/-- Names come to the same in another tree if all on their way is the same. -/
theorem Linkless.reachWith_eq (linkless : t.Linkless)
    (agree : ∀ p ∈ Place.way place names, t'.at? p = t.at? p) :
    t'.reachWith follow' place names = t.reachWith follow place names := by
  induction names generalizing place with
  | nil => rfl
  | cons name names ih =>
    rw [Place.way] at agree
    obtain ⟨here, onward⟩ := List.forall_mem_cons.mp agree
    rw [reachWith, reachWith, isDirectory, isDirectory, here]
    by_cases hdot : name = "."
    · rw [if_pos hdot] at onward ⊢
      rw [if_pos hdot, ih onward]
    rw [if_neg hdot] at onward ⊢
    rw [if_neg hdot]
    by_cases hup : name = ".."
    · rw [if_pos hup] at onward ⊢
      rw [if_pos hup, ih onward]
    rw [if_neg hup] at onward ⊢
    rw [if_neg hup, onward _ (Place.start_mem_way ..)]
    match hnode : t.at? (place ++ [name]) with
    | none => rfl
    | some (.link target) => exact absurd hnode (linkless _ target)
    | some .file | some .directory => rw [ih onward]

/-- Names that lead to something lead by a directory first, and from there on whatever follows. -/
theorem Linkless.reachWith_cons (linkless : t.Linkless) {name : String}
    (h : t.reachWith follow place (name :: names) = .ok q) (stands : (t.at? q).isSome = true) :
    t.isDirectory place = true ∧
      t.reachWith follow (Place.follow place [name]) names = .ok q ∧
      ∀ others, t.reachWith follow place (name :: others) =
        t.reachWith follow (Place.follow place [name]) others := by
  rw [reachWith] at h
  simp only [reachWith, Place.follow]
  by_cases entered : (!t.isDirectory place) = true
  · rw [if_pos entered] at h
    cases h
  simp only [if_neg entered] at h ⊢
  refine ⟨by simpa using entered, ?_⟩
  by_cases hdot : name = "."
  · simp only [if_pos hdot] at h ⊢
    exact ⟨h, fun _ => trivial⟩
  simp only [if_neg hdot] at h ⊢
  by_cases hup : name = ".."
  · simp only [if_pos hup] at h ⊢
    exact ⟨h, fun _ => trivial⟩
  simp only [if_neg hup] at h ⊢
  by_cases hlong : name.utf8ByteSize > maxNameBytes
  · rw [if_pos hlong] at h
    cases h
  simp only [if_neg hlong] at h ⊢
  match hnode : t.at? (place ++ [name]) with
  | none =>
    simp only [hnode] at h
    split at h
    · cases h
      simp [hnode] at stands
    · cases h
  | some (.link target) => exact absurd hnode (linkless _ target)
  | some .file | some .directory =>
    simp only [hnode] at h
    exact ⟨h, fun _ => rfl⟩

/-- Names that lead to a directory lead by nothing but directories. -/
theorem Linkless.isDirectory_of_reachWith (linkless : t.Linkless)
    (h : t.reachWith follow place names = .ok q) (directory : t.isDirectory q = true) :
    ∀ p ∈ Place.way place names, t.isDirectory p = true := by
  induction names generalizing place with
  | nil =>
    cases h
    simpa [Place.way] using directory
  | cons name names ih =>
    obtain ⟨first, onward, -⟩ := linkless.reachWith_cons h (isSome_of_isDirectory directory)
    rw [Place.way_cons]
    exact List.forall_mem_cons.mpr ⟨first, ih onward⟩

/-- A name leads on from the directory that other names lead to. -/
theorem Linkless.reachWith_concat (linkless : t.Linkless) {name : String}
    (h : t.reachWith follow place names = .ok q) (directory : t.isDirectory q = true) :
    t.reachWith follow place (names ++ [name]) = t.reachWith follow q [name] := by
  induction names generalizing place with
  | nil =>
    cases h
    rfl
  | cons first names ih =>
    obtain ⟨-, onward, same⟩ := linkless.reachWith_cons h (isSome_of_isDirectory directory)
    rw [List.cons_append, same, ih onward]

/-- Names that lead to something lead to a directory before the last of them. -/
theorem Linkless.reachWith_of_concat (linkless : t.Linkless) {name : String}
    (h : t.reachWith follow place (names ++ [name]) = .ok q) (stands : (t.at? q).isSome = true) :
    ∃ parent, t.reachWith follow place names = .ok parent ∧ t.isDirectory parent = true ∧
      t.reachWith follow parent [name] = .ok q := by
  induction names generalizing place with
  | nil => exact ⟨place, rfl, (linkless.reachWith_cons h stands).1, h⟩
  | cons first names ih =>
    obtain ⟨-, onward, same⟩ := linkless.reachWith_cons h stands
    obtain ⟨parent, hparent, directory, last⟩ := ih onward
    exact ⟨parent, (same names).trans hparent, directory, last⟩

/-- A name that leads to something is the name of an entry. -/
theorem Linkless.child_of_reachWith (linkless : t.Linkless) {name : String}
    (hdot : name ≠ ".") (hup : name ≠ "..") (h : t.reachWith follow place [name] = .ok q)
    (stands : (t.at? q).isSome = true) :
    ∃ node, t.child place name = .ok node ∧ q = place ++ [name] := by
  have last : q = place ++ [name] := by
    rw [linkless.reachWith_ok h, Place.follow, if_neg hdot, if_neg hup]
    rfl
  subst last
  obtain ⟨node, hnode⟩ := Option.isSome_iff_exists.mp stands
  refine ⟨node, ?_, rfl⟩
  rw [reachWith, if_neg hdot, if_neg hup] at h
  split at h
  · cases h
  split at h
  · cases h
  rename_i short
  rw [child, if_neg short, hnode]

end Follow

variable {links : Nat}

/-- Names are walked to where they lead if something stands there. -/
theorem walk_eq_ok_iff :
    t.walk links place names = .ok q ↔
      t.reach links place names = .ok q ∧ (t.at? q).isSome = true := by
  constructor
  · intro h
    obtain ⟨place', reached, h⟩ := exists_of_bind_eq_ok h
    split at h
    · rename_i stands
      cases h
      exact ⟨reached, stands⟩
    · cases h
  · rintro ⟨reached, stands⟩
    rw [walk, reached]
    exact if_pos stands

theorem Linkless.reach_ok (linkless : t.Linkless) (h : t.reach links place names = .ok q) :
    q = Place.follow place names := by
  cases links with
  | zero => exact linkless.reachWith_ok h
  | succ links => exact linkless.reachWith_ok h

theorem Linkless.walk_ok (linkless : t.Linkless) (h : t.walk links place names = .ok q) :
    q = Place.follow place names ∧ (t.at? q).isSome = true :=
  (walk_eq_ok_iff.mp h).imp_left linkless.reach_ok

/-- A path leads to its end, and something stands there. -/
theorem Linkless.resolve_ok (linkless : t.Linkless) (h : t.resolve path = .ok q) :
    q = endOf path ∧ (t.at? q).isSome = true := by
  obtain ⟨⟨⟩, -, h⟩ := exists_of_bind_eq_ok h
  rw [← follow_wayOf]
  exact linkless.walk_ok h

/-- Names lead to the same in another tree if all on their way is the same. -/
theorem Linkless.walk_eq (linkless : t.Linkless)
    (agree : ∀ p ∈ Place.way place names, t'.at? p = t.at? p) :
    t'.walk links place names = t.walk links place names := by
  have hreach : t'.reach links place names = t.reach links place names := by
    cases links <;> exact linkless.reachWith_eq agree
  rw [walk, walk, hreach]
  cases hq : t.reach links place names with
  | error e => rfl
  | ok q =>
    change (if (t'.at? q).isSome = true then _ else _) = if (t.at? q).isSome = true then _ else _
    rw [linkless.reach_ok hq, agree _ (Place.follow_mem_way ..)]

/-- The last step of a path is the same in another tree if all on the way to it is the same. -/
theorem Linkless.lastStep_eq (linkless : t.Linkless)
    (agree : ∀ p ∈ Place.way [] (segments path).dropLast, t'.at? p = t.at? p) :
    t'.lastStep path = t.lastStep path := by
  rw [lastStep, lastStep, linkless.walk_eq agree]
  cases (segments path).getLast? with
  | none => rfl
  | some last =>
    cases hparent : t.walk maxLinks [] (segments path).dropLast with
    | error e => rfl
    | ok parent =>
      have same : t'.isDirectory parent = t.isDirectory parent := by
        rw [isDirectory, isDirectory, (linkless.walk_ok hparent).1,
          agree _ (Place.follow_mem_way ..)]
      change (checkPath path >>= fun _ => if (!t'.isDirectory parent) = true then _ else _) = _
      rw [same]
      rfl

/-- What a path comes to whose last step is a name. -/
theorem of_lastStep_eq_name {parent : Place} {name : String}
    (h : t.lastStep path = .ok (.name parent name)) :
    t.walk maxLinks [] (segments path).dropLast = .ok parent ∧ t.isDirectory parent = true ∧
      (segments path).dropLast ++ [name] = segments path ∧ name ≠ "." ∧ name ≠ ".." := by
  obtain ⟨⟨⟩, -, h⟩ := exists_of_bind_eq_ok h
  split at h
  · cases h
  rename_i last hlast
  obtain ⟨parent', hwalk, h⟩ := exists_of_bind_eq_ok h
  split at h
  · cases h
  rename_i directory
  split at h
  · cases h
  rename_i hdot
  split at h
  · cases h
  rename_i hup
  cases h
  obtain ⟨init, hsegments⟩ := List.getLast?_eq_some_iff.mp hlast
  have split : (segments path).dropLast ++ [name] = segments path := by
    rw [hsegments, List.dropLast_concat]
  exact ⟨hwalk, by simpa using directory, split, hdot, hup⟩

/-- A path whose last step is a name leads to it by nothing but directories. -/
theorem Linkless.isDirectory_of_lastStep (linkless : t.Linkless) {parent : Place} {name : String}
    (h : t.lastStep path = .ok (.name parent name)) :
    ∀ p ∈ Place.way [] (segments path).dropLast, t.isDirectory p = true := by
  obtain ⟨hwalk, directory, -⟩ := of_lastStep_eq_name h
  exact linkless.isDirectory_of_reachWith (walk_eq_ok_iff.mp hwalk).1 directory

/-- A path without `..` leads on to where it led if all that stands on the way stays. -/
theorem Linkless.resolve_congr (linkless : t.Linkless) (noUp : ".." ∉ segments path)
    (agree : ∀ p, p <+: q → t'.at? p = t.at? p) (h : t.resolve path = .ok q) :
    t'.resolve path = .ok q := by
  obtain ⟨rfl, -⟩ := linkless.resolve_ok h
  have noUp' : ".." ∉ wayOf path := by
    rw [wayOf, List.mem_append, not_or]
    refine ⟨noUp, ?_⟩
    split <;> simp
  rw [← h, resolve, resolve, linkless.walk_eq fun p hp => agree p ?_]
  rw [← follow_wayOf]
  exact Place.prefix_follow_of_mem_way noUp' hp

/-! ## Removals -/

/-- A tree is what another is, but for something at a place or below that was removed. -/
structure Prunes (place : Place) (t t' : Tree) : Prop where
  elsewhere : ∀ q, ¬place <+: q → t'.at? q = t.at? q
  nothing_new : ∀ q node, t'.at? q = some node → t.at? q = some node

theorem Prunes.refl (place : Place) (t : Tree) : Prunes place t t :=
  ⟨fun _ _ => rfl, fun _ _ h => h⟩

theorem Prunes.trans {t'' : Tree} (h : Prunes place t t') (h' : Prunes place t' t'') :
    Prunes place t t'' :=
  ⟨fun q hq => (h'.elsewhere q hq).trans (h.elsewhere q hq),
    fun q node hq => h.nothing_new q node (h'.nothing_new q node hq)⟩

theorem Prunes.linkless (h : Prunes place t t') (linkless : t.Linkless) : t'.Linkless :=
  fun q target hq => linkless q target (h.nothing_new q _ hq)

theorem prunes_erase (t : Tree) (place : Place) : Prunes place t (t.erase place) := by
  refine ⟨fun q hq => ?_, fun q node hq => ?_⟩
  · rw [at?_erase, if_neg]
    rintro ⟨rfl, -⟩
    exact hq (List.prefix_refl q)
  · rw [at?_erase] at hq
    split at hq
    · cases hq
    · exact hq

theorem prunes_clear (t : Tree) (place : Place) : Prunes place t (t.clear place) := by
  refine ⟨fun q hq => ?_, fun q node hq => ?_⟩
  · rw [at?_clear, if_neg]
    intro below
    simp only [Place.isBelow, Bool.and_eq_true, List.isPrefixOf_iff_prefix] at below
    exact hq below.1
  · rw [at?_clear] at hq
    split at hq
    · cases hq
    · exact hq

/-- The last step of a path leads from a directory to the end of the path. -/
theorem Linkless.lastStep_name (linkless : t.Linkless) {parent : Place} {name : String}
    (h : t.lastStep path = .ok (.name parent name)) : parent ++ [name] = endOf path := by
  obtain ⟨hwalk, -, split, hdot, hup⟩ := of_lastStep_eq_name h
  rw [endOf, (linkless.walk_ok hwalk).1, ← split, List.dropLast_concat, Place.follow_append]
  simp only [Place.follow, hdot, hup, if_false]

/-- A file is removed where its path ends. -/
theorem Linkless.removeFile_prunes (linkless : t.Linkless) (h : t.removeFile path = .ok t') :
    Prunes (endOf path) t t' := by
  obtain ⟨step, hstep, h⟩ := exists_of_bind_eq_ok h
  split at h
  · cases h
  · cases h
  · cases h
  rename_i parent name
  obtain ⟨node, -, h⟩ := exists_of_bind_eq_ok h
  split at h
  · cases h
  all_goals
    split at h
    · cases h
    · cases h
      rw [← linkless.lastStep_name hstep]
      exact prunes_erase ..

/-- A directory is removed by itself only where its path ends, and if nothing is in it. -/
theorem Linkless.removeBareDirectory_ok (linkless : t.Linkless)
    (h : t.removeBareDirectory path = .ok t') :
    t' = t.erase (endOf path) ∧ t.isBare (endOf path) = true := by
  obtain ⟨step, hstep, h⟩ := exists_of_bind_eq_ok h
  split at h
  · cases h
  · cases h
  · cases h
  rename_i parent name
  obtain ⟨node, -, h⟩ := exists_of_bind_eq_ok h
  split at h
  · cases h
  · cases h
  split at h
  · rename_i bare
    cases h
    rw [← linkless.lastStep_name hstep]
    exact ⟨rfl, bare⟩
  · cases h

theorem Linkless.locate_ok (linkless : t.Linkless) (h : t.locate path = .ok q) :
    q = endOf path := by
  obtain ⟨step, hstep, h⟩ := exists_of_bind_eq_ok h
  split at h
  · split at h
    · exact (linkless.resolve_ok h).1
    · obtain ⟨node, -, h⟩ := exists_of_bind_eq_ok h
      cases h
      exact linkless.lastStep_name hstep
  · exact (linkless.resolve_ok h).1

/-- A directory is removed with what is below it where its path ends. -/
theorem Linkless.removeSubtree_prunes (linkless : t.Linkless) (path : String) :
    Prunes (endOf path) t (t.removeSubtree path).2 := by
  unfold removeSubtree
  split
  · exact .refl ..
  rename_i place hplace
  obtain rfl := linkless.locate_ok hplace
  split
  · have cleared := prunes_clear t (endOf path)
    simp only
    split
    · rename_i left hleft
      obtain ⟨rfl, -⟩ := (cleared.linkless linkless).removeBareDirectory_ok hleft
      exact cleared.trans (prunes_erase ..)
    · exact cleared
  · rename_i target hlink
    exact absurd hlink (linkless _ target)
  · exact .refl ..

/-- Nothing stands below a bare directory. -/
theorem at?_of_isBare (bare : t.isBare place = true) (below : place <+: q) (hne : q ≠ place) :
    t.at? q = none := by
  have hq : q ≠ [] := by
    rintro rfl
    exact hne (List.prefix_nil.mp below).symm
  rw [at?, if_neg hq, Option.map_eq_none_iff, List.find?_eq_none]
  intro entry hentry hplace
  rw [isBare, Bool.not_eq_true', List.any_eq_false] at bare
  refine bare entry hentry ?_
  have same : entry.1 = q := by simpa using hplace
  simp [Place.isBelow, same, below, hne]

/-- A directory is bare if nothing stands below it. -/
theorem isBare_iff :
    t.isBare place = true ↔ ∀ q, place <+: q → q ≠ place → t.at? q = none := by
  refine ⟨fun bare q below other => at?_of_isBare bare below other, fun none => ?_⟩
  rw [isBare, Bool.not_eq_true', List.any_eq_false]
  intro entry hentry below
  simp only [Place.isBelow, Bool.and_eq_true, List.isPrefixOf_iff_prefix, decide_eq_true_eq] at below
  have absent := none entry.1 below.1 below.2
  have named : entry.1 ≠ [] := by
    intro root
    rw [root] at below
    exact below.2 (List.prefix_nil.mp below.1).symm
  rw [at?, if_neg named, Option.map_eq_none_iff, List.find?_eq_none] at absent
  exact absent entry hentry (by simp)

end Tree

end TabletSweep
