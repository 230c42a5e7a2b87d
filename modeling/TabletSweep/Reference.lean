import TabletSweep.Entry
import TabletSweep.Key.OfPath

/-!
# What an entry of the metadata refers to

`Reference.ofEntry` reads an entry as a reference: a file or a tablet directory that is alive, by
its key. A path that starts with a slash is relative to the table that owns the entry's tablet; a
file may also be written relative to the tables directory, with a leading `../`, and anything else
has to be absolute. What follows a `|` in a qualifier only tells two entries apart. Nothing is
skipped: an entry that cannot be read is an error.
-/

namespace TabletSweep

/-- A file or a tablet directory that the metadata keeps alive. -/
inductive Reference
  | file (key : Key)
  | directory (key : Key)
  deriving DecidableEq, Repr

/-- Why an entry has no reference. -/
inductive EntryError
  /-- The row has no table id. -/
  | noTable (row : String)
  /-- A file is neither absolute nor written relative to a known directory. -/
  | unreadableFile (qualifier : String)
  /-- A directory is neither absolute nor written relative to the owning table. -/
  | unreadableDirectory (value : String)
  /-- The entry is of a column that refers to nothing. -/
  | foreignColumn (row family qualifier : String)
  /-- The path that the entry names has no key. -/
  | path (error : PathError)
  deriving DecidableEq, Repr

/-- The wording of an entry error. -/
def EntryError.message : EntryError → String
  | noTable row => "bad metadata row " ++ Text.quoted row
  | unreadableFile qualifier => "bad file reference " ++ Text.quoted qualifier
  | unreadableDirectory value => "bad directory " ++ Text.quoted value
  | foreignColumn row family qualifier =>
    "unexpected column " ++ family ++ ":" ++ qualifier ++ " in row " ++ Text.quoted row
  | path error => error.message

/-- Whether a path starts with `../`. -/
def startsWithParentStep (path : String) : Bool := ['.', '.', '/'].isPrefixOf path.toList

namespace Entry

/-- The table that owns the tablet of the entry. -/
def owner (e : Entry) : Except EntryError String :=
  match Row.table? e.row with
  | some table => .ok table
  | none => .error (.noTable e.row)

/-- A path relative to the owning table, as a path relative to the tables directory. -/
def fromOwner (e : Entry) (path : String) : Except EntryError String :=
  e.owner.map fun table => "/" ++ table ++ path

/-- The path in a file qualifier: what stands before the first `|`. -/
def qualifierPath (e : Entry) : String :=
  String.ofList (e.qualifier.toList.takeWhile (· ≠ '|'))

/-- The path of the file that an entry of a file column names. -/
def filePath (e : Entry) : Except EntryError String :=
  let path := e.qualifierPath
  if startsWithSlash path then e.fromOwner path
  else if hasScheme path || startsWithParentStep path then .ok path
  else .error (.unreadableFile e.qualifier)

/-- The path of the directory that an entry of the directory column names. -/
def directoryPath (e : Entry) : Except EntryError String :=
  if hasScheme e.value then .ok e.value
  else if startsWithSlash e.value then e.fromOwner e.value
  else .error (.unreadableDirectory e.value)

end Entry

namespace Reference

/-- The key that a reference points to. -/
def key : Reference → Key
  | file key | directory key => key

/-- What an entry refers to. -/
def ofEntry (tablesDir : String) (e : Entry) : Except EntryError Reference :=
  if e.namesFile then do
    let path ← e.filePath
    ((Key.ofPath tablesDir .file path).map file).mapError .path
  else if e.namesDirectory then do
    let path ← e.directoryPath
    ((Key.ofPath tablesDir .directory path).map directory).mapError .path
  else .error (.foreignColumn e.row e.family e.qualifier)

end Reference

end TabletSweep
