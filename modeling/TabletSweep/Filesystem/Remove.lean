import TabletSweep.Filesystem.Lookup

/-!
# Removing files and directories

`removeFile` removes a file or a symbolic link, `removeBareDirectory` a directory with nothing in
it, and `removeSubtree` a directory with everything below it. None of them follows a symbolic link
at the end of its path, and `removeSubtree` removes such a link by itself.
-/

namespace TabletSweep.Tree

/-- Removes a file or a symbolic link. -/
def removeFile (t : Tree) (path : String) : Except FsError Tree := do
  match ← t.lastStep path with
  | .root | .stay | .up => .error .isADirectory
  | .name parent name =>
    match ← t.child parent name with
    | .directory => .error .isADirectory
    | .file | .link _ =>
      if endsWithSlash path then .error .notADirectory else return t.erase (parent ++ [name])

/-- Removes a directory with nothing in it. -/
def removeBareDirectory (t : Tree) (path : String) : Except FsError Tree := do
  match ← t.lastStep path with
  | .root => .error .busy
  | .stay => .error .invalid
  | .up => .error .notEmpty
  | .name parent name =>
    match ← t.child parent name with
    | .file | .link _ => .error .notADirectory
    | .directory =>
      if t.isBare (parent ++ [name]) then return t.erase (parent ++ [name])
      else .error .notEmpty

/-- Removes a directory with everything below it; of a symbolic link, the link alone. Gives the tree
that is left also when the directory itself could not be removed. -/
def removeSubtree (t : Tree) (path : String) : Except FsError Unit × Tree :=
  match t.locate path with
  | .error e => (.error e, t)
  | .ok place =>
    match t.at? place with
    | some .directory =>
      let cleared := t.clear place
      match cleared.removeBareDirectory path with
      | .ok left => (.ok (), left)
      | .error e => (.error e, cleared)
    | some (.link _) =>
      match t.removeFile path with
      | .ok left => (.ok (), left)
      | .error e => (.error e, t)
    | _ => (.error .notADirectory, t)

/-- Whether nothing is in the directory at the end of a path. -/
def isBareDirectory (t : Tree) (path : String) : Except FsError Bool := do
  let place ← t.resolve path
  if t.isDirectory place then return t.isBare place else .error .notADirectory

end TabletSweep.Tree
