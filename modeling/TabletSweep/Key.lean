/-!
# Keys of files and tablet directories

Everything the collector reasons about lies under a table: a tablet directory, or a file in one. A
`Key` names such a target by its table, its tablet directory and, for a file, its file name. Two
spellings of a path name one target exactly when they have one key.

Keys are ordered by table, then tablet directory, then file, each by code points, and a directory
comes before the files in it.
-/

namespace TabletSweep

/-- The name of a tablet directory (`file` is absent) or of a file in one. -/
structure Key where
  table : String
  tablet : String
  file : Option String
  deriving DecidableEq, Repr, Inhabited

namespace Key

/-- Whether the key names a tablet directory. -/
def isDirectory (k : Key) : Bool := k.file.isNone

/-- The tablet directory that the key names or lies in. -/
def directory (k : Key) : Key := ⟨k.table, k.tablet, none⟩

/-- The names along the key, from the table inwards. -/
def components (k : Key) : List String := k.table :: k.tablet :: k.file.toList

/-- The text of a key: its components with slashes between them. -/
def text (k : Key) : String :=
  match k.file with
  | none => k.table ++ "/" ++ k.tablet
  | some f => k.table ++ "/" ++ k.tablet ++ "/" ++ f

instance : Ord Key where
  compare a b :=
    (compare a.table b.table).then ((compare a.tablet b.tablet).then (compare a.file b.file))

/-- Whether `a` stands before `b` in the order of keys, or is `b`. -/
def before (a b : Key) : Bool := (compare a b).isLE

@[simp] theorem directory_directory (k : Key) : k.directory.directory = k.directory := rfl

@[simp] theorem isDirectory_directory (k : Key) : k.directory.isDirectory = true := rfl

theorem directory_eq_self_iff {k : Key} : k.directory = k ↔ k.isDirectory = true := by
  rcases k with ⟨t, d, _ | f⟩ <;> simp [directory, isDirectory]

/-- Keys have one tablet directory if they have their table and their tablet in common. -/
theorem directory_eq_directory_iff {k key : Key} :
    k.directory = key.directory ↔ k.table = key.table ∧ k.tablet = key.tablet := by
  simp [directory]

end Key

end TabletSweep
