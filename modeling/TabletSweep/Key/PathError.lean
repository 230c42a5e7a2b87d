import TabletSweep.Text.Quoted

/-!
# Shapes of paths, and why a path has no key

Who reads a path accepts a file, a tablet directory, or either: the path's `Shape`. A path that does
not decompose into a key of an accepted shape is refused with a `PathError`; the wording of each is
in `PathError.message`.
-/

namespace TabletSweep

/-- What a path may name. -/
inductive Shape
  /-- A file or a tablet directory. -/
  | any
  /-- A file. -/
  | file
  /-- A tablet directory. -/
  | directory
  deriving DecidableEq, Repr

namespace Shape

/-- Whether a path of this shape may name a file. -/
def allowsFile : Shape → Bool
  | any | file => true
  | directory => false

/-- Whether a path of this shape may name a tablet directory. -/
def allowsDirectory : Shape → Bool
  | any | directory => true
  | file => false

/-- The numbers of segments that a relative path of this shape may have, in words. -/
def counts : Shape → String
  | any => "2 or 3"
  | file => "3"
  | directory => "2"

end Shape

/-- Why a path has no key. -/
inductive PathError
  /-- The path has no segment. -/
  | empty
  /-- An absolute path does not end in a key below the tables directory. -/
  | notUnderTables (path tablesDir : String)
  /-- A relative path has a number of segments that its shape does not allow. -/
  | wrongCount (path : String) (found : Nat) (shape : Shape)
  /-- A segment that would belong to the key is `.` or `..`. -/
  | dotSegment (path : String)
  deriving DecidableEq, Repr

/-- The wording of a path error. -/
def PathError.message : PathError → String
  | empty => "empty path"
  | notUnderTables path tablesDir =>
    "path " ++ Text.quoted path ++ " is not under a `" ++ tablesDir ++ "` directory"
  | wrongCount path found shape =>
    "path " ++ Text.quoted path ++ " has " ++ toString found ++ " segment(s), expected " ++
      shape.counts
  | dotSegment path => "path " ++ Text.quoted path ++ " contains a relative segment"

end TabletSweep
