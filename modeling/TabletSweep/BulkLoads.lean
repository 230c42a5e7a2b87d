import TabletSweep.Candidate

/-!
# Directories under bulk load

While a bulk load writes into a tablet directory, a marker, called a blip, names that directory.
Whatever lies under a marked directory may be half written, so the directory itself and every file
in it are covered, whether or not anything refers to them. Names are compared whole: a marked
directory does not cover one whose name merely starts like its own.
-/

namespace TabletSweep

/-- The tablet directories that bulk loads are writing into. -/
structure BulkLoads where
  /-- The marked directories, each once. -/
  directories : List Key := []
  deriving Repr

namespace BulkLoads

/-- No directory is marked. -/
def empty : BulkLoads := {}

/-- Also marks the directory of a key. -/
def insert (loads : BulkLoads) (key : Key) : BulkLoads :=
  ⟨loads.directories.insert key.directory⟩

/-- Also marks the directory that a blip names. -/
def mark (tablesDir : String) (loads : BulkLoads) (blip : String) : Except PathError BulkLoads :=
  (Key.ofPath tablesDir .directory blip).map loads.insert

/-- Whether the key is a marked directory or lies in one. -/
def covers (loads : BulkLoads) (key : Key) : Bool := loads.directories.contains key.directory

/-- The number of marked directories. -/
def size (loads : BulkLoads) : Nat := loads.directories.length

/-- Whether no directory is marked. -/
def isEmpty (loads : BulkLoads) : Bool := loads.directories.isEmpty

/-- Candidates split into those that are not covered and those that are, each in order. -/
def split (loads : BulkLoads) (candidates : List Candidate) :
    List Candidate × List Candidate :=
  if loads.isEmpty then (candidates, [])
  else candidates.partition (!loads.covers ·.key)

@[simp] theorem covers_empty {key : Key} : empty.covers key = false := by simp [empty, covers]

theorem covers_insert {loads : BulkLoads} {marked key : Key} :
    (loads.insert marked).covers key = true ↔
      loads.covers key = true ∨ key.directory = marked.directory := by
  simp [insert, covers, or_comm]

end BulkLoads

end TabletSweep
