import TabletSweep.Key
import TabletSweep.Key.PathError
import TabletSweep.Text.Path

/-!
# Reading a path as a key

A path is absolute when it has a colon, and then its last segments are a key if the segment before
them is the name of the tables directory and at least one segment, the scheme, stands before that.
Any other path is relative to the tables directory: after one leading `../`, its segments are the
key. Segments `.` and `..` never belong to a key.

`Key.ofPath tablesDir shape path` reads either kind. Beyond the colon and the leading `../`, only
the segments decide, so slashes may be repeated or trail.
-/

namespace TabletSweep

/-- Whether a path is absolute: it carries a scheme, and so a colon. -/
def hasScheme (path : String) : Bool := path.toList.contains ':'

/-- A relative path without one leading `../`. -/
def withoutParentStep (path : String) : String :=
  match path.toList with
  | '.' :: '.' :: '/' :: rest => String.ofList rest
  | _ => path

/-- Whether a segment is `.` or `..`. -/
def isDots (segment : String) : Bool := segment = "." || segment = ".."

namespace Key

/-- Whether a component of the key is `.` or `..`. -/
def hasDots (k : Key) : Bool := k.components.any isDots

/-- The file at the end of a path given by its segments, last one first. -/
def fileAtEnd? (tablesDir : String) : List String → Option Key
  | file :: tablet :: table :: parent :: _ :: _ =>
    if parent = tablesDir then some ⟨table, tablet, some file⟩ else none
  | _ => none

/-- The tablet directory at the end of a path given by its segments, last one first. -/
def directoryAtEnd? (tablesDir : String) : List String → Option Key
  | tablet :: table :: parent :: _ :: _ =>
    if parent = tablesDir then some ⟨table, tablet, none⟩ else none
  | _ => none

/-- The key at the end of an absolute path. Where the path ends in a file and in a tablet directory
alike, because the table has the name of the tables directory, it is read as a file. -/
def ofAbsolute (tablesDir : String) (shape : Shape) (path : String) : Except PathError Key :=
  let backwards := (segments path).reverse
  let file? := if shape.allowsFile then fileAtEnd? tablesDir backwards else none
  let directory? := if shape.allowsDirectory then directoryAtEnd? tablesDir backwards else none
  match file?.or directory? with
  | none => .error (.notUnderTables path tablesDir)
  | some key => if key.hasDots then .error (.dotSegment path) else .ok key

/-- The key that a relative path spells out. -/
def ofRelative (shape : Shape) (path : String) : Except PathError Key :=
  let names := segments (withoutParentStep path)
  if names.any isDots then .error (.dotSegment path)
  else match names with
    | [] => .error .empty
    | [table, tablet, file] =>
      if shape.allowsFile then .ok ⟨table, tablet, some file⟩
      else .error (.wrongCount path 3 shape)
    | [table, tablet] =>
      if shape.allowsDirectory then .ok ⟨table, tablet, none⟩
      else .error (.wrongCount path 2 shape)
    | _ => .error (.wrongCount path names.length shape)

/-- The key of a path that may name what its shape says. -/
def ofPath (tablesDir : String) (shape : Shape) (path : String) : Except PathError Key :=
  if hasScheme path then ofAbsolute tablesDir shape path else ofRelative shape path

end Key

end TabletSweep
