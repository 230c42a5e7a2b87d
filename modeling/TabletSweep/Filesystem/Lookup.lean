import TabletSweep.Filesystem.Error
import TabletSweep.Filesystem.Tree
import TabletSweep.Text.Path

/-!
# Following a path through a tree

A path is followed name by name. What a name is looked up in has to be a directory, `.` stays, `..`
goes up and stays at the root, and a symbolic link is replaced by its target, which starts at the
root if it starts with a slash. At most `maxLinks` links are followed on one way. A path that ends
with a slash asks for a directory, as if it ended with `/.`.

The operations that change a directory need the last name of a path as it is: `lastStep` follows a
path up to it. `resolve` follows a path to its end, and `locate` as well, but for a symbolic link
that the last name stands for. An operation that makes something may also lead to a place where
nothing stands, which `reach` allows.
-/

namespace TabletSweep

/-- The number of symbolic links that are followed on one way. -/
def maxLinks : Nat := 40

/-- The number of bytes that a name may have. -/
def maxNameBytes : Nat := 255

/-- The number of bytes that a path may have. -/
def maxPathBytes : Nat := 4095

/-- The names on the way that a path describes. -/
def wayOf (path : String) : List String :=
  segments path ++ if endsWithSlash path then ["."] else []

/-- The last step of a path. -/
inductive LastStep
  /-- The path leads to the root and has no names. -/
  | root
  /-- The last name is `.`. -/
  | stay
  /-- The last name is `..`. -/
  | up
  /-- The last name is looked up in the directory at a place. -/
  | name (parent : Place) (name : String)
  deriving DecidableEq, Repr

namespace Tree

/-- Follows names from a place to where the last of them leads, which may be a place where nothing
stands. At a symbolic link it goes on with `follow`, which takes the place that the target starts
from and the names that are still to be followed. -/
def reachWith (t : Tree) (follow : Place → List String → Except FsError Place) :
    Place → List String → Except FsError Place
  | place, [] => .ok place
  | place, name :: names =>
    if !t.isDirectory place then .error .notADirectory
    else if name = "." then reachWith t follow place names
    else if name = ".." then reachWith t follow place.dropLast names
    else if name.utf8ByteSize > maxNameBytes then .error .nameTooLong
    else match t.at? (place ++ [name]) with
      | none => if names.isEmpty then .ok (place ++ [name]) else .error .notFound
      | some (.link target) =>
        follow (if startsWithSlash target then [] else place) (wayOf target ++ names)
      | some _ => reachWith t follow (place ++ [name]) names

/-- Follows names from a place, and at most so many symbolic links, to where the last name leads.
Nothing needs to stand there. -/
def reach (t : Tree) : Nat → Place → List String → Except FsError Place
  | 0 => t.reachWith fun _ _ => .error .tooManyLinks
  | links + 1 => t.reachWith (reach t links)

/-- Follows names from a place, and at most so many symbolic links, to something that stands
there. -/
def walk (t : Tree) (links : Nat) (place : Place) (names : List String) : Except FsError Place := do
  let place ← t.reach links place names
  if (t.at? place).isSome then return place else .error .notFound

/-- Refuses a path that no operation accepts. -/
def checkPath (path : String) : Except FsError Unit :=
  if path.toList.contains '\x00' then .error .nullCharacter
  else if path.utf8ByteSize > maxPathBytes then .error .nameTooLong
  else if path = "" then .error .notFound
  else .ok ()

/-- The place at the end of a path. -/
def resolve (t : Tree) (path : String) : Except FsError Place := do
  checkPath path
  t.walk maxLinks [] (wayOf path)

/-- Follows a path up to its last name, which stands in a directory. -/
def lastStep (t : Tree) (path : String) : Except FsError LastStep := do
  checkPath path
  match (segments path).getLast? with
  | none => return .root
  | some last =>
    let parent ← t.walk maxLinks [] (segments path).dropLast
    if !t.isDirectory parent then .error .notADirectory
    else if last = "." then return .stay
    else if last = ".." then return .up
    else return .name parent last

/-- What a name stands for in a directory. -/
def child (t : Tree) (parent : Place) (name : String) : Except FsError Node :=
  if name.utf8ByteSize > maxNameBytes then .error .nameTooLong
  else match t.at? (parent ++ [name]) with
    | none => .error .notFound
    | some node => .ok node

/-- The place that a path names. A symbolic link at its end is not followed, unless the path asks
for a directory. -/
def locate (t : Tree) (path : String) : Except FsError Place := do
  match ← t.lastStep path with
  | .name parent name =>
    if endsWithSlash path then t.resolve path
    else do
      let _ ← t.child parent name
      return parent ++ [name]
  | _ => t.resolve path

end Tree

end TabletSweep
