/-!
# Trees of directories

A `Tree` says what stands at each place below the root: a file, a directory or a symbolic link. A
place is the list of names that lead to it from the root. A tree is its list of entries; the root is
always a directory and has no entry. The content of files plays no part.

Removing something is a filter on the entries, so removals commute. What stands at a place after a
change is said by `at?_erase`, `at?_clear` and `at?_put`.
-/

namespace TabletSweep

/-- The names that lead to a place from the root. -/
abbrev Place := List String

/-- Whether a place lies below another, at any depth. -/
def Place.isBelow (place above : Place) : Bool := above.isPrefixOf place && place ≠ above

/-- What can stand at a place. -/
inductive Node
  | file
  | directory
  /-- A symbolic link, with the path that it stands for. -/
  | link (target : String)
  deriving DecidableEq, Repr, Inhabited

/-- What stands at the places below the root. -/
structure Tree where
  entries : List (Place × Node) := []
  deriving DecidableEq, Repr, Inhabited

namespace Tree

/-- The tree with nothing but the root. -/
def empty : Tree := {}

/-- What stands at a place. -/
def at? (t : Tree) (place : Place) : Option Node :=
  if place = [] then some .directory else (t.entries.find? (·.1 = place)).map (·.2)

/-- Whether a directory stands at a place. -/
def isDirectory (t : Tree) (place : Place) : Bool := t.at? place = some .directory

/-- Whether nothing stands below a place. -/
def isBare (t : Tree) (place : Place) : Bool := !t.entries.any (Place.isBelow ·.1 place)

/-- The tree with a node put at a place, instead of what stands there. -/
def put (t : Tree) (place : Place) (node : Node) : Tree :=
  ⟨(place, node) :: t.entries.filter (·.1 ≠ place)⟩

/-- The tree without the entry at a place. -/
def erase (t : Tree) (place : Place) : Tree := ⟨t.entries.filter (·.1 ≠ place)⟩

/-- The tree without everything below a place. -/
def clear (t : Tree) (place : Place) : Tree := ⟨t.entries.filter (!Place.isBelow ·.1 place)⟩

/-- The entries below a place as texts relative to it, in ascending order. A slash follows the path
of a directory, and an at sign that of a symbolic link. -/
def listing (t : Tree) (above : Place) : List String :=
  let texts := t.entries.filterMap fun (place, node) =>
    if Place.isBelow place above then
      let path := String.intercalate "/" (place.drop above.length)
      some (path ++ match node with
        | .file => ""
        | .directory => "/"
        | .link _ => "@")
    else none
  texts.mergeSort (· ≤ ·)

@[simp] theorem at?_root (t : Tree) : t.at? [] = some .directory := by simp [at?]

private theorem find?_filter_of_imp {α : Type} {p q : α → Bool} {xs : List α}
    (h : ∀ x, q x = true → p x = true) : (xs.filter p).find? q = xs.find? q := by
  rw [List.find?_filter]
  congr 1
  funext x
  cases hq : q x
  · simp
  · simp [h x hq]

private theorem find?_filter_of_imp_not {α : Type} {p q : α → Bool} {xs : List α}
    (h : ∀ x, q x = true → p x = false) : (xs.filter p).find? q = none := by
  rw [List.find?_eq_none]
  intro x hx hq
  simp [h x hq] at hx

/-- Only the place itself loses its entry. -/
theorem at?_erase {t : Tree} {place q : Place} :
    (t.erase place).at? q = if q = place ∧ q ≠ [] then none else t.at? q := by
  by_cases hq : q = []
  · simp [hq]
  · by_cases h : q = place
    · subst h
      have : (t.entries.filter (·.1 ≠ q)).find? (·.1 = q) = none :=
        find?_filter_of_imp_not fun x hx => by simpa using hx
      simp only [at?, erase, hq, if_false, this, Option.map_none, ne_eq, not_false_eq_true,
        and_self, if_true]
    · have : (t.entries.filter (·.1 ≠ place)).find? (·.1 = q) = t.entries.find? (·.1 = q) :=
        find?_filter_of_imp fun x hx => by
          have : x.1 = q := by simpa using hx
          simpa [this] using h
      simp only [at?, erase, hq, if_false, this, h, false_and]

/-- The places below lose their entries, and no others. -/
theorem at?_clear {t : Tree} {place q : Place} :
    (t.clear place).at? q = if q.isBelow place then none else t.at? q := by
  by_cases hq : q = []
  · subst hq
    have : Place.isBelow [] place = false := by cases place <;> simp [Place.isBelow]
    simp [this]
  · by_cases h : q.isBelow place
    · have : (t.entries.filter (!Place.isBelow ·.1 place)).find? (·.1 = q) = none :=
        find?_filter_of_imp_not fun x hx => by
          have : x.1 = q := by simpa using hx
          simp [this, h]
      simp only [at?, clear, hq, if_false, this, Option.map_none, h, if_true]
    · have : (t.entries.filter (!Place.isBelow ·.1 place)).find? (·.1 = q) =
          t.entries.find? (·.1 = q) :=
        find?_filter_of_imp fun x hx => by
          have : x.1 = q := by simpa using hx
          simp [this, h]
      simp only [at?, clear, hq, if_false, this, h, Bool.false_eq_true]

/-- The place holds what was put there, and the other places what they held. -/
theorem at?_put {t : Tree} {place q : Place} {node : Node} (hplace : place ≠ []) :
    (t.put place node).at? q = if q = place then some node else t.at? q := by
  by_cases hq : q = []
  · subst hq
    simp [Ne.symm hplace]
  · by_cases h : q = place
    · subst h
      simp [at?, put, hq]
    · have : (t.entries.filter (·.1 ≠ place)).find? (·.1 = q) = t.entries.find? (·.1 = q) :=
        find?_filter_of_imp fun x hx => by
          have : x.1 = q := by simpa using hx
          simpa [this] using h
      simp only [at?, put, hq, if_false, List.find?_cons, h, Ne.symm h, decide_false, this]

end Tree

end TabletSweep
