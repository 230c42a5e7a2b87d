import TabletSweep.Row

/-!
# Entries of the metadata

The scan of the metadata yields entries of three columns that keep a target alive: the data files of
a tablet, the files that a running scan holds, and the directory of a tablet. The first two name
their file in the qualifier, the third has a fixed qualifier and names its directory in the value.
Entries are ordered by row, family, qualifier and value.
-/

namespace TabletSweep

/-- One entry of the metadata scan. -/
structure Entry where
  row : String
  family : String
  qualifier : String
  value : String
  deriving DecidableEq, Repr, Inhabited

namespace Entry

/-- The column family of data files. -/
def fileFamily : String := "file"

/-- The column family of files held by a scan. -/
def scanFamily : String := "scan"

/-- The column family of what a server keeps about a tablet. -/
def serverFamily : String := "srv"

/-- The qualifier of the tablet directory in the server family. -/
def directoryQualifier : String := "dir"

/-- The entry by which a tablet refers to a data file. -/
def ofFile (table : String) (endRow : Option String) (path : String) : Entry :=
  ⟨Row.ofTablet table endRow, fileFamily, path, "0,0"⟩

/-- The entry by which a tablet refers to a file that a scan holds. -/
def ofScan (table : String) (endRow : Option String) (path : String) : Entry :=
  ⟨Row.ofTablet table endRow, scanFamily, path, ""⟩

/-- The entry by which a tablet refers to its directory. -/
def ofDirectory (table : String) (endRow : Option String) (path : String) : Entry :=
  ⟨Row.ofTablet table endRow, serverFamily, directoryQualifier, path⟩

/-- Whether the entry names a file in its qualifier. -/
def namesFile (e : Entry) : Bool := e.family = fileFamily || e.family = scanFamily

/-- Whether the entry names a tablet directory in its value. -/
def namesDirectory (e : Entry) : Bool :=
  e.family = serverFamily && e.qualifier = directoryQualifier

instance : Ord Entry where
  compare a b :=
    (compare a.row b.row).then ((compare a.family b.family).then
      ((compare a.qualifier b.qualifier).then (compare a.value b.value)))

/-- Whether `a` stands before `b` in the order of entries, or is equal to it. -/
def before (a b : Entry) : Bool := (compare a b).isLE

end Entry

end TabletSweep
