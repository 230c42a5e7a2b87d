/-!
# Sorted sets of names

A `NameSet` is a finite set of texts kept as its strictly ascending list, in the order of their code
points. It serves wherever names are listed or paged through in order: the log of candidates, the
ids of tables.

Each operation is described by its members: `mem_insert`, `mem_erase`, `mem_ofList`, `mem_after`.
A set is determined by them (`ext`).
-/

namespace TabletSweep

/-- A finite set of texts, as its strictly ascending list. -/
structure NameSet where
  toList : List String
  sorted : toList.Pairwise (· < ·) := by simp

namespace NameSet

instance : Membership String NameSet := ⟨fun s x => x ∈ s.toList⟩

theorem mem_def {x : String} {s : NameSet} : x ∈ s ↔ x ∈ s.toList := Iff.rfl

instance (x : String) (s : NameSet) : Decidable (x ∈ s) :=
  inferInstanceAs (Decidable (x ∈ s.toList))

/-- The set without members. -/
def empty : NameSet := ⟨[], .nil⟩

instance : Inhabited NameSet := ⟨empty⟩

/-- Puts a text at its place in an ascending list, unless it stands there already. -/
def insertAt (x : String) : List String → List String
  | [] => [x]
  | y :: ys => if x < y then x :: y :: ys else if x = y then y :: ys else y :: insertAt x ys

theorem mem_insertAt {x y : String} {ys : List String} : y ∈ insertAt x ys ↔ y = x ∨ y ∈ ys := by
  induction ys with
  | nil => simp [insertAt]
  | cons z zs ih =>
    simp only [insertAt]
    split
    · simp
    · split
      · rename_i h
        subst h
        simp
      · simp only [List.mem_cons, ih]
        exact or_left_comm

theorem sorted_insertAt {x : String} {ys : List String} (h : ys.Pairwise (· < ·)) :
    (insertAt x ys).Pairwise (· < ·) := by
  induction ys with
  | nil => simp [insertAt]
  | cons y ys ih =>
    obtain ⟨hy, hys⟩ := List.pairwise_cons.mp h
    simp only [insertAt]
    split
    · rename_i hxy
      refine List.pairwise_cons.mpr ⟨fun z hz => ?_, h⟩
      rcases List.mem_cons.mp hz with rfl | hz
      · exact hxy
      · exact String.lt_trans hxy (hy z hz)
    · split
      · exact h
      · rename_i hxy hne
        refine List.pairwise_cons.mpr ⟨fun z hz => ?_, ih hys⟩
        rcases mem_insertAt.mp hz with rfl | hz
        · exact Std.lt_of_le_of_ne (Std.not_lt.mp hxy) (Ne.symm hne)
        · exact hy z hz

/-- The set with one more member. -/
def insert (s : NameSet) (x : String) : NameSet := ⟨insertAt x s.toList, sorted_insertAt s.sorted⟩

/-- The set without one text. -/
def erase (s : NameSet) (x : String) : NameSet :=
  ⟨s.toList.filter (· ≠ x), s.sorted.filter _⟩

/-- The set with further members. -/
def insertAll (s : NameSet) (xs : List String) : NameSet := xs.foldl insert s

/-- The set without the texts of a list. -/
def eraseAll (s : NameSet) (xs : List String) : NameSet := xs.foldl erase s

/-- The set of the texts of a list. -/
def ofList (xs : List String) : NameSet := empty.insertAll xs

/-- The members that follow a text, in ascending order. -/
def after (s : NameSet) (x : String) : List String := s.toList.filter (x < ·)

theorem ext_toList {s t : NameSet} (h : s.toList = t.toList) : s = t := by
  cases s
  cases t
  cases h
  rfl

instance : DecidableEq NameSet := fun s t =>
  decidable_of_iff (s.toList = t.toList) ⟨ext_toList, fun h => h ▸ rfl⟩

private theorem eq_of_sorted : ∀ {xs ys : List String}, xs.Pairwise (· < ·) →
    ys.Pairwise (· < ·) → (∀ z, z ∈ xs ↔ z ∈ ys) → xs = ys
  | [], [], _, _, _ => rfl
  | [], y :: _, _, _, h => absurd ((h y).mpr (by simp)) (by simp)
  | x :: _, [], _, _, h => absurd ((h x).mp (by simp)) (by simp)
  | x :: xs, y :: ys, hx, hy, h => by
    obtain ⟨hx, hxs⟩ := List.pairwise_cons.mp hx
    obtain ⟨hy, hys⟩ := List.pairwise_cons.mp hy
    have hxy : x = y := by
      rcases List.mem_cons.mp ((h x).mp (by simp)) with e | e
      · exact e
      · rcases List.mem_cons.mp ((h y).mpr (by simp)) with e' | e'
        · exact e'.symm
        · exact absurd (hx y e') (String.lt_asymm (hy x e))
    subst hxy
    rw [eq_of_sorted hxs hys fun z => ?_]
    have := h z
    simp only [List.mem_cons] at this
    constructor
    · intro hz
      rcases this.mp (.inr hz) with rfl | hz'
      · exact absurd (hx z hz) (String.lt_irrefl z)
      · exact hz'
    · intro hz
      rcases this.mpr (.inr hz) with rfl | hz'
      · exact absurd (hy z hz) (String.lt_irrefl z)
      · exact hz'

/-- A set is determined by its members. -/
@[ext] theorem ext {s t : NameSet} (h : ∀ x, x ∈ s ↔ x ∈ t) : s = t :=
  ext_toList (eq_of_sorted s.sorted t.sorted h)

@[simp] theorem not_mem_empty {y : String} : y ∉ empty := by simp [mem_def, empty]

@[simp] theorem mem_insert {s : NameSet} {x y : String} : y ∈ s.insert x ↔ y = x ∨ y ∈ s :=
  mem_insertAt

@[simp] theorem mem_erase {s : NameSet} {x y : String} : y ∈ s.erase x ↔ y ∈ s ∧ y ≠ x := by
  simp [mem_def, erase]

@[simp] theorem mem_insertAll {s : NameSet} {xs : List String} {y : String} :
    y ∈ s.insertAll xs ↔ y ∈ xs ∨ y ∈ s := by
  induction xs generalizing s with
  | nil => simp [insertAll]
  | cons x xs ih =>
    rw [insertAll, List.foldl_cons, ← insertAll, ih, mem_insert, List.mem_cons]
    exact or_left_comm.trans or_assoc.symm

@[simp] theorem mem_eraseAll {s : NameSet} {xs : List String} {y : String} :
    y ∈ s.eraseAll xs ↔ y ∈ s ∧ y ∉ xs := by
  induction xs generalizing s with
  | nil => simp [eraseAll]
  | cons x xs ih =>
    rw [eraseAll, List.foldl_cons, ← eraseAll, ih, mem_erase, List.mem_cons, not_or, and_assoc]

@[simp] theorem mem_ofList {xs : List String} {y : String} : y ∈ ofList xs ↔ y ∈ xs := by
  simp [ofList]

@[simp] theorem mem_after {s : NameSet} {x y : String} : y ∈ s.after x ↔ y ∈ s ∧ x < y := by
  simp [after, mem_def]

theorem sorted_after (s : NameSet) (x : String) : (s.after x).Pairwise (· < ·) :=
  s.sorted.filter _

end NameSet

end TabletSweep
