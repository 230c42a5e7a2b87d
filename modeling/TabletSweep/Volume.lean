import TabletSweep.Environment
import TabletSweep.Filesystem.Remove

/-!
# Deletion on a volume

A volume is a directory on disk in which the targets of keys lie under a tables directory, at
`tables/table/tablet` and `tables/table/tablet/file`. It carries out the deletions of a collector.
Files are removed by themselves, tablet directories with all that is in them. A target that is gone
already counts as deleted; any other error leaves its candidate undone.
-/

namespace TabletSweep

/-- A directory on disk that holds the directories of tables. -/
structure Volume where
  /-- The path of the volume. -/
  root : String
  /-- The name of the directory that holds the directories of the tables. -/
  tablesDir : String := "tables"
  deriving DecidableEq, Repr, Inhabited

namespace Volume

/-- The path of the directory of a table. -/
def tablePath (v : Volume) (table : String) : String :=
  joinPaths (joinPaths v.root v.tablesDir) table

/-- The path of the target of a key. -/
def keyPath (v : Volume) (key : Key) : String :=
  key.components.foldl joinPaths (joinPaths v.root v.tablesDir)

/-- Removes the target of a key. Tells whether it is gone, and what is left of the tree. -/
def removeKey (v : Volume) (t : Tree) (key : Key) : Bool × Tree :=
  if key.isDirectory then
    match t.removeSubtree (v.keyPath key) with
    | (.ok (), left) | (.error .notFound, left) => (true, left)
    | (.error _, left) => (false, left)
  else
    match t.removeFile (v.keyPath key) with
    | .ok left => (true, left)
    | .error .notFound => (true, t)
    | .error _ => (false, t)

/-- Removes the targets of candidates one after another. Gives the literals of those that are not
gone, in the order of the candidates. -/
def removeEach (v : Volume) (t : Tree) : List Candidate → List String × Tree
  | [] => ([], t)
  | c :: cs =>
    let (gone, t) := v.removeKey t c.key
    let (failed, t) := removeEach v t cs
    (if gone then failed else c.literal :: failed, t)

/-- Deletes a batch. The report lists what failed in ascending order. -/
def deleteBatch (v : Volume) (t : Tree) (batch : List Candidate) : DeleteReport × Tree :=
  let (failed, t) := v.removeEach t batch
  (⟨failed.mergeSort (· ≤ ·)⟩, t)

/-- Removes the directory of a table if it is there and has nothing in it. Tells whether it was
removed. -/
def removeTableDir (v : Volume) (t : Tree) (table : String) : Except FsError Bool × Tree :=
  match t.isBareDirectory (v.tablePath table) with
  | .error .notFound => (.ok false, t)
  | .error e => (.error e, t)
  | .ok false => (.ok false, t)
  | .ok true =>
    match t.removeBareDirectory (v.tablePath table) with
    | .ok left => (.ok true, left)
    | .error .notFound => (.ok false, t)
    | .error e => (.error e, t)

end Volume

end TabletSweep
