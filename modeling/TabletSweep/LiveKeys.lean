import TabletSweep.Candidate
import TabletSweep.Reference

/-!
# The keys that references keep alive

The references of one scan, arranged for looking up. A file is kept when some reference has its key.
A tablet directory is kept when some reference has its key or points to a file in it: to remove it
would destroy that file. A reference to a directory does not keep the files in it. It is also known
which tables are pointed into at all.

Main statements: what one more reference adds to the kept keys (`keeps_insert`) and to the tables
pointed into (`reaches_insert`).
-/

namespace TabletSweep

/-- The keys that the references of a scan keep alive. -/
structure LiveKeys where
  /-- The files that are kept. -/
  files : List Key := []
  /-- The tablet directories that are kept, those of kept files included. -/
  directories : List Key := []
  /-- The tables that are pointed into. -/
  tables : List String := []
  /-- How many references were put in. -/
  size : Nat := 0
  deriving Repr

namespace LiveKeys

/-- No key is kept. -/
def empty : LiveKeys := {}

/-- The kept keys with those of one more reference. A file also keeps its directory. -/
def insert (live : LiveKeys) (r : Reference) : LiveKeys :=
  let directories := match r with
    | .file key => live.directories.insert key.directory
    | .directory _ => live.directories
  { files := if r.key.isDirectory then live.files else live.files.insert r.key
    directories := if r.key.isDirectory then directories.insert r.key else directories
    tables := live.tables.insert r.key.table
    size := live.size + 1 }

/-- The keys that a list of references keeps. -/
def ofList (rs : List Reference) : LiveKeys := rs.foldl insert empty

/-- Whether a reference keeps the key. -/
def keeps (live : LiveKeys) (key : Key) : Bool :=
  if key.isDirectory then live.directories.contains key else live.files.contains key

/-- Whether a reference points into the table. -/
def reaches (live : LiveKeys) (table : String) : Bool := live.tables.contains table

/-- Whether no reference was put in. -/
def isEmpty (live : LiveKeys) : Bool := live.size = 0

/-- A page split into the candidates that nothing keeps and those that are kept, in page order. -/
def split (live : LiveKeys) (page : List Candidate) : List Candidate × List Candidate :=
  page.partition (!live.keeps ·.key)

@[simp] theorem keeps_empty {key : Key} : empty.keeps key = false := by
  simp [empty, keeps]

@[simp] theorem reaches_empty {table : String} : empty.reaches table = false := by
  simp [empty, reaches]

/-- One more reference keeps its own key and, if it is to a file, the directory of that. -/
theorem keeps_insert {live : LiveKeys} {r : Reference} {key : Key} :
    (live.insert r).keeps key = true ↔
      live.keeps key = true ∨ key = r.key ∨ ∃ k, r = .file k ∧ key = k.directory := by
  have hdir : ∀ k : Key, k.directory.isDirectory = true := Key.isDirectory_directory
  cases r with
  | file k =>
    by_cases hk : k.isDirectory <;> by_cases hkey : key.isDirectory <;>
      simp only [insert, keeps, Reference.key, hk, hkey, if_true, Bool.false_eq_true, if_false,
        List.contains_iff_mem, List.mem_insert_iff, Reference.file.injEq, exists_eq_left'] <;>
      grind
  | directory k =>
    by_cases hk : k.isDirectory <;> by_cases hkey : key.isDirectory <;>
      simp only [insert, keeps, Reference.key, hk, hkey, if_true, Bool.false_eq_true, if_false,
        List.contains_iff_mem, List.mem_insert_iff, reduceCtorEq, false_and, exists_false,
        or_false] <;>
      grind

/-- One more reference points into the table of its key. -/
theorem reaches_insert {live : LiveKeys} {r : Reference} {table : String} :
    (live.insert r).reaches table = true ↔ live.reaches table = true ∨ table = r.key.table := by
  simp [insert, reaches, or_comm]

end LiveKeys

end TabletSweep
