import TabletSweep.Filesystem.Lookup

/-!
# Making files, directories and links

What these operations make, they make together with the directories on the way. They leave alone
what is there already.
-/

namespace TabletSweep.Tree

/-- Follows names from a place and makes a directory wherever a name stands for nothing. -/
def makeWay (t : Tree) (place : Place) : List String → Except FsError (Tree × Place)
  | [] => if t.isDirectory place then .ok (t, place) else .error .notADirectory
  | name :: names =>
    match t.walk maxLinks place [name] with
    | .ok next => makeWay t next names
    | .error .notFound =>
      let next := place ++ [name]
      if (t.at? next).isSome then .error .alreadyExists
      else makeWay (t.put next .directory) next names
    | .error e => .error e

/-- Makes a directory. -/
def makeDirectory (t : Tree) (path : String) : Except FsError Tree :=
  (t.makeWay [] (wayOf path)).map (·.1)

/-- Makes a file. Through a symbolic link at the end of the path, the file is made where the link
leads; a file that is there already stays. -/
def makeFile (t : Tree) (path : String) : Except FsError Tree := do
  let (t, _) ← t.makeWay [] (segments path).dropLast
  let place ← t.reach maxLinks [] (wayOf path)
  match t.at? place with
  | none => return t.put place .file
  | some .directory => .error .isADirectory
  | some _ => return t

/-- Makes a symbolic link where nothing stands. -/
def makeLink (t : Tree) (path target : String) : Except FsError Tree := do
  match (segments path).getLast? with
  | none => .error .alreadyExists
  | some last =>
    let (t, parent) ← t.makeWay [] (segments path).dropLast
    match t.child parent last with
    | .ok _ => .error .alreadyExists
    | .error .notFound => return t.put (parent ++ [last]) (.link target)
    | .error e => .error e

/-- Makes a directory if the path ends with a slash, and a file if not. -/
def touch (t : Tree) (path : String) : Except FsError Tree :=
  if endsWithSlash path then t.makeDirectory path else t.makeFile path

end TabletSweep.Tree
