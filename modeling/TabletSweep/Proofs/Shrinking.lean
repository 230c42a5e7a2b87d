import TabletSweep.Proofs.Linkless

/-!
# Paths in trees that lose entries

Removals only take entries away. In what they leave of a tree, be there symbolic links or not, a
path never leads somewhere else: it leads where it led, or something on its way is not found
(`Within.locate`). What was refused for another reason is still refused for that reason or is not
found.
-/

namespace TabletSweep

/-- A result is that of another operation, or that something was not found. -/
def SameOrGone {α : Type} (x y : Except FsError α) : Prop := x = y ∨ x = .error .notFound

namespace SameOrGone

variable {α β : Type} {x y : Except FsError α}

theorem bind {f g : α → Except FsError β} (h : SameOrGone x y)
    (next : ∀ a, x = .ok a → y = .ok a → SameOrGone (f a) (g a)) :
    SameOrGone (x >>= f) (y >>= g) := by
  rcases h with rfl | rfl
  · cases x with
    | error e => exact .inl rfl
    | ok a => exact next a rfl rfl
  · exact .inr rfl

/-- What was not found is not found. -/
theorem notFound (h : SameOrGone x y) (gone : y = .error .notFound) : x = .error .notFound :=
  h.elim (·.trans gone) id

/-- What is found was found. -/
theorem ok {a : α} (h : SameOrGone x y) (found : x = .ok a) : y = .ok a := by
  rcases h with rfl | rfl
  · exact found
  · cases found

end SameOrGone

namespace Tree

variable {left t t' : Tree} {place q : Place} {path : String} {names : List String} {node : Node}

/-- All that stands in a tree stands in another. -/
def Within (left t : Tree) : Prop := ∀ q node, left.at? q = some node → t.at? q = some node

namespace Within

theorem refl (t : Tree) : t.Within t := fun _ _ h => h

theorem trans (h : left.Within t) (h' : t.Within t') : left.Within t' :=
  fun q node hq => h' q node (h q node hq)

theorem linkless (h : left.Within t) (linkless : t.Linkless) : left.Linkless :=
  fun q target hq => linkless q target (h q _ hq)

/-- What stands in the smaller tree is the same in both. -/
theorem at?_eq (within : left.Within t) (stands : (left.at? q).isSome = true) :
    left.at? q = t.at? q := by
  obtain ⟨node, hnode⟩ := Option.isSome_iff_exists.mp stands
  rw [hnode, within q node hnode]

end Within

theorem Prunes.within (h : Prunes place t left) : left.Within t := h.nothing_new

theorem within_erase (t : Tree) (place : Place) : (t.erase place).Within t :=
  (prunes_erase t place).within

theorem within_clear (t : Tree) (place : Place) : (t.clear place).Within t :=
  (prunes_clear t place).within

/-- The removal of a directory by itself adds nothing. -/
theorem within_of_removeBareDirectory (h : t.removeBareDirectory path = .ok left) :
    left.Within t := by
  obtain ⟨step, -, h⟩ := exists_of_bind_eq_ok h
  split at h
  · cases h
  · cases h
  · cases h
  obtain ⟨node, -, h⟩ := exists_of_bind_eq_ok h
  split at h
  · cases h
  · cases h
  split at h
  · cases h
    exact within_erase t _
  · cases h

/-! ## Following names -/

/-- A place that was got to name by name: directories stand above it, and something stands there. -/
structure Reached (t : Tree) (place : Place) : Prop where
  above : ∀ p, p <+: place → p ≠ place → t.isDirectory p = true
  stands : (t.at? place).isSome = true

theorem reached_root (t : Tree) : t.Reached [] where
  above p start other := absurd (List.prefix_nil.mp start) other
  stands := by rw [at?_root, Option.isSome_some]

theorem Reached.dropLast (reached : t.Reached place) : t.Reached place.dropLast := by
  rcases List.eq_nil_or_concat place with rfl | ⟨init, name, rfl⟩
  · exact reached
  · rw [List.concat_eq_append] at reached ⊢
    rw [List.dropLast_concat]
    have above : ∀ p, p <+: init → t.isDirectory p = true := by
      intro p start
      refine reached.above p (start.trans (List.prefix_append ..)) ?_
      rintro rfl
      have short := start.length_le
      rw [List.length_append, List.length_singleton] at short
      omega
    exact ⟨fun p start _ => above p start, isSome_of_isDirectory (above init (List.prefix_refl _))⟩

theorem Reached.name (reached : t.Reached place) (directory : t.isDirectory place = true)
    {name : String} (stands : (t.at? (place ++ [name])).isSome = true) :
    t.Reached (place ++ [name]) := by
  refine ⟨fun p start other => ?_, stands⟩
  have start' : p <+: place := by
    rcases List.prefix_concat_iff.mp start with same | start'
    · exact absurd same other
    · exact start'
  by_cases same : p = place
  · rw [same]
    exact directory
  · exact reached.above p start' same

/-- Following names in what is left of a tree comes to the same, or does not find something, or
comes to a place where nothing is left. -/
def Astray (left : Tree) (x y : Except FsError Place) : Prop :=
  x = y ∨ x = .error .notFound ∨ ∃ q, x = .ok q ∧ left.at? q = none

section Within

variable (within : left.Within t)
include within

theorem Within.isDirectory_eq (stands : (left.at? place).isSome = true) :
    left.isDirectory place = t.isDirectory place := by
  rw [isDirectory, isDirectory, within.at?_eq stands]

theorem Within.reachWith {follow follow' : Place → List String → Except FsError Place}
    (onward : ∀ place names, left.Reached place →
      left.Astray (follow' place names) (follow place names))
    (reached : left.Reached place) (names : List String) :
    left.Astray (left.reachWith follow' place names) (t.reachWith follow place names) := by
  induction names generalizing place with
  | nil => exact .inl rfl
  | cons name names ih =>
    rw [Tree.reachWith, Tree.reachWith, ← within.isDirectory_eq reached.stands]
    by_cases directory : left.isDirectory place = true
    · have entered : ¬(!left.isDirectory place) = true := by simp [directory]
      rw [if_neg entered, if_neg entered]
      by_cases hdot : name = "."
      · rw [if_pos hdot, if_pos hdot]
        exact ih reached
      rw [if_neg hdot, if_neg hdot]
      by_cases hup : name = ".."
      · rw [if_pos hup, if_pos hup]
        exact ih reached.dropLast
      rw [if_neg hup, if_neg hup]
      by_cases hlong : name.utf8ByteSize > maxNameBytes
      · rw [if_pos hlong, if_pos hlong]
        exact .inl rfl
      rw [if_neg hlong, if_neg hlong]
      cases hnode : left.at? (place ++ [name]) with
      | none =>
        by_cases last : names.isEmpty = true
        · exact .inr (.inr ⟨_, if_pos last, hnode⟩)
        · exact .inr (.inl (if_neg last))
      | some node =>
        have reached' := reached.name directory (by rw [hnode, Option.isSome_some])
        rw [within _ node hnode]
        cases node with
        | file | directory => exact ih reached'
        | link target =>
          refine onward _ _ ?_
          split
          · exact reached_root left
          · exact reached
    · have refused : (!left.isDirectory place) = true := by simp [directory]
      rw [if_pos refused, if_pos refused]
      exact .inl rfl

theorem Within.reach (links : Nat) (reached : left.Reached place) (names : List String) :
    left.Astray (left.reach links place names) (t.reach links place names) := by
  induction links generalizing place names with
  | zero => exact within.reachWith (fun _ _ _ => .inl rfl) reached names
  | succ links ih => exact within.reachWith (fun _ names reached => ih reached names) reached names

theorem Within.walk (links : Nat) (reached : left.Reached place) (names : List String) :
    SameOrGone (left.walk links place names) (t.walk links place names) := by
  rw [Tree.walk, Tree.walk]
  rcases within.reach links reached names with same | gone | ⟨q, hq, none⟩
  · rw [same]
    refine SameOrGone.bind (.inl rfl) fun q _ _ => ?_
    by_cases stands : (left.at? q).isSome = true
    · rw [within.at?_eq stands]
      exact .inl rfl
    · exact .inr (if_neg stands)
  · rw [gone]
    exact .inr rfl
  · rw [hq]
    exact .inr (if_neg (by simp [none]))

/-! ## Paths -/

theorem Within.resolve (path : String) : SameOrGone (left.resolve path) (t.resolve path) :=
  SameOrGone.bind (.inl rfl) fun _ _ _ => within.walk _ (reached_root left) _

end Within

/-- Something stands where names lead. -/
theorem isSome_of_walk {links : Nat} (h : t.walk links place names = .ok q) :
    (t.at? q).isSome = true := (walk_eq_ok_iff.mp h).2

theorem isSome_of_resolve (h : t.resolve path = .ok q) : (t.at? q).isSome = true := by
  obtain ⟨⟨⟩, -, h⟩ := exists_of_bind_eq_ok h
  exact isSome_of_walk h

/-- A name is looked up in a directory and stands for what is there. -/
theorem child_ok {name : String} (h : t.child place name = .ok node) :
    t.at? (place ++ [name]) = some node := by
  rw [child] at h
  split at h
  · cases h
  · split at h
    · cases h
    · rename_i hnode
      cases h
      exact hnode

/-- Something stands where a path leads. -/
theorem isSome_of_locate (h : t.locate path = .ok q) : (t.at? q).isSome = true := by
  obtain ⟨step, -, h⟩ := exists_of_bind_eq_ok h
  split at h
  · split at h
    · exact isSome_of_resolve h
    · obtain ⟨node, hchild, h⟩ := exists_of_bind_eq_ok h
      cases h
      rw [child_ok hchild, Option.isSome_some]
  · exact isSome_of_resolve h

section Within

variable (within : left.Within t)
include within

theorem Within.lastStep (path : String) : SameOrGone (left.lastStep path) (t.lastStep path) := by
  refine SameOrGone.bind (.inl rfl) fun _ _ _ => ?_
  cases (segments path).getLast? with
  | none => exact .inl rfl
  | some last =>
    refine SameOrGone.bind (within.walk _ (reached_root left) _) fun parent hparent _ => ?_
    rw [within.isDirectory_eq (isSome_of_walk hparent)]
    exact .inl rfl

theorem Within.child (parent : Place) (name : String) :
    SameOrGone (left.child parent name) (t.child parent name) := by
  rw [Tree.child, Tree.child]
  by_cases hlong : name.utf8ByteSize > maxNameBytes
  · rw [if_pos hlong, if_pos hlong]
    exact .inl rfl
  rw [if_neg hlong, if_neg hlong]
  cases hnode : left.at? (parent ++ [name]) with
  | none => exact .inr rfl
  | some node =>
    rw [within _ node hnode]
    exact .inl rfl

/-- In what is left of a tree a path leads where it led, or something on its way is not found. -/
theorem Within.locate (path : String) : SameOrGone (left.locate path) (t.locate path) := by
  refine SameOrGone.bind (within.lastStep path) fun step _ _ => ?_
  cases step with
  | name parent name =>
    refine dite (endsWithSlash path = true) (fun slash => ?_) fun slash => ?_
    · simp only [slash, if_true]
      exact within.resolve path
    · simp only [slash]
      exact SameOrGone.bind (within.child parent name) fun _ _ _ => .inl rfl
  | root | stay | up => exact within.resolve path

end Within

end Tree

end TabletSweep
