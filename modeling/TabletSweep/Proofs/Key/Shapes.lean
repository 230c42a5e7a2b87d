import TabletSweep.Proofs.Key

/-!
# One path, read in several shapes

A path may be read as the path of a file, of a tablet directory, or of either, and a key that is
read in one of the first two ways is read in the third as well, with one exception: in an absolute
path the tables directory may stand twice, one in the other, before the last two segments
(`EndsNested`). Who asks for a directory then finds one in the inner tables directory, and who asks
for either finds a file in the outer one (`ofPath_any_iff`, `ofPath_any_of_nested`).
-/

namespace TabletSweep

/-- The tables directory stands twice, one in the other, before the last two segments of an absolute
path. -/
def EndsNested (tablesDir path : String) : Prop :=
  hasScheme path = true ∧ ∃ before table tablet, before ≠ [] ∧
    segments path = before ++ [tablesDir, tablesDir, table, tablet]

namespace Key

variable {tablesDir path : String} {shape : Shape} {key : Key}

/-! ## The shapes -/

/-- What a relative path spells out in one shape it also spells out where any shape will do. -/
theorem ofRelative_any (h : ofRelative shape path = .ok key) : ofRelative .any path = .ok key := by
  simp only [ofRelative] at h ⊢
  split at h
  · cases h
  rename_i plain
  rw [if_neg plain]
  split at h
  · cases h
  · split at h
    · exact h
    · cases h
  · split at h
    · exact h
    · cases h
  · cases h

theorem ofPath_any_of_file (h : ofPath tablesDir .file path = .ok key) :
    ofPath tablesDir .any path = .ok key := by
  unfold ofPath at h ⊢
  split at h
  · rename_i absolute
    obtain ⟨found, plain⟩ := ofAbsolute_eq_ok_iff.mp h
    rw [if_pos absolute]
    refine ofAbsolute_eq_ok_iff.mpr ⟨?_, plain⟩
    have file : fileAtEnd? tablesDir (segments path).reverse = some key := by
      simpa [Shape.allowsFile, Shape.allowsDirectory] using found
    simp [Shape.allowsFile, file]
  · rename_i relative
    rw [if_neg relative]
    exact ofRelative_any h

section Directory

variable (h : ofPath tablesDir .directory path = .ok key)
include h

/-- What is read as a directory of an absolute path stands at its end. -/
theorem directoryAtEnd?_of_ofPath (absolute : hasScheme path = true) :
    directoryAtEnd? tablesDir (segments path).reverse = some key ∧ key.hasDots = false := by
  rw [ofPath, if_pos absolute] at h
  obtain ⟨found, plain⟩ := ofAbsolute_eq_ok_iff.mp h
  exact ⟨by simpa [Shape.allowsFile, Shape.allowsDirectory] using found, plain⟩

/-- Where the tables directory stands twice, the last two segments are a directory in the inner one
and the last three a file in the outer one. -/
theorem fileAtEnd?_of_nested (nested : EndsNested tablesDir path) :
    fileAtEnd? tablesDir (segments path).reverse =
      some ⟨tablesDir, key.table, some key.tablet⟩ := by
  obtain ⟨absolute, before, table, tablet, some, hsegments⟩ := nested
  obtain ⟨atEnd, -⟩ := directoryAtEnd?_of_ofPath h absolute
  obtain ⟨before', -, -, hkey⟩ := directoryAtEnd?_eq_some_iff.mp atEnd
  have same : (before ++ [tablesDir]) ++ [tablesDir, table, tablet] =
      before' ++ [tablesDir, key.table, key.tablet] := by
    rw [← hkey, hsegments]
    simp
  obtain ⟨-, htail⟩ := List.append_inj' same rfl
  cases htail
  exact fileAtEnd?_eq_some_iff.mpr ⟨before, key.tablet, some, rfl, hsegments⟩

/-- A path that can also be read as the path of a file has the tables directory twice. -/
theorem nested_of_fileAtEnd? (absolute : hasScheme path = true) {file : Key}
    (found : fileAtEnd? tablesDir (segments path).reverse = some file) :
    EndsNested tablesDir path := by
  obtain ⟨atEnd, -⟩ := directoryAtEnd?_of_ofPath h absolute
  obtain ⟨before', -, -, hkey⟩ := directoryAtEnd?_eq_some_iff.mp atEnd
  obtain ⟨before, name, some, -, hfile⟩ := fileAtEnd?_eq_some_iff.mp found
  have same : before' ++ [tablesDir, key.table, key.tablet] =
      (before ++ [tablesDir]) ++ [file.table, file.tablet, name] := by
    rw [← hkey, hfile]
    simp
  obtain ⟨-, htail⟩ := List.append_inj' same rfl
  have htable : file.table = tablesDir := (List.cons.inj htail).1.symm
  rw [htable] at hfile
  exact ⟨absolute, before, file.tablet, name, some, hfile⟩

theorem ofPath_any_of_directory (once : ¬EndsNested tablesDir path) :
    ofPath tablesDir .any path = .ok key := by
  by_cases absolute : hasScheme path = true
  · obtain ⟨atEnd, plain⟩ := directoryAtEnd?_of_ofPath h absolute
    rw [ofPath, if_pos absolute]
    refine ofAbsolute_eq_ok_iff.mpr ⟨?_, plain⟩
    have none : fileAtEnd? tablesDir (segments path).reverse = none := by
      refine Option.eq_none_iff_forall_ne_some.mpr fun file found => ?_
      exact once (nested_of_fileAtEnd? h absolute found)
    simp [Shape.allowsFile, Shape.allowsDirectory, none, atEnd]
  · rw [ofPath, if_neg absolute] at h ⊢
    exact ofRelative_any h

/-- Where the tables directory stands twice, whoever takes either shape reads a file of the table
that is named like the tables directory. -/
theorem ofPath_any_of_nested (nested : EndsNested tablesDir path)
    (plain : isDots tablesDir = false) :
    ofPath tablesDir .any path = .ok ⟨tablesDir, key.table, some key.tablet⟩ := by
  have file := fileAtEnd?_of_nested h nested
  obtain ⟨-, dots⟩ := directoryAtEnd?_of_ofPath h nested.1
  rw [ofPath, if_pos nested.1]
  refine ofAbsolute_eq_ok_iff.mpr ⟨by simp [Shape.allowsFile, file], ?_⟩
  have names : isDots key.table = false ∧ isDots key.tablet = false := by
    constructor <;> exact (plain_of_ofPath h (by simp [components])).no_dots
  simp [hasDots, components, plain, names]

/-- What is read as a directory is never read as the same key where any shape will do if the tables
directory stands twice. -/
theorem ofPath_any_ne_of_nested (nested : EndsNested tablesDir path) :
    ofPath tablesDir .any path ≠ .ok key := by
  intro any
  rw [ofPath, if_pos nested.1] at any
  obtain ⟨found, -⟩ := ofAbsolute_eq_ok_iff.mp any
  simp only [Shape.allowsFile, if_true, fileAtEnd?_of_nested h nested, Option.some_or,
    Option.some.injEq] at found
  have directory := isDirectory_of_ofPath h
  rw [← found] at directory
  cases directory

end Directory

/-- A path has the same key where any shape will do as in the shape that it was read in, unless it
was read as a directory and the tables directory stands twice. -/
theorem ofPath_any_iff (h : ofPath tablesDir shape path = .ok key) :
    ofPath tablesDir .any path = .ok key ↔ ¬(shape = .directory ∧ EndsNested tablesDir path) := by
  cases shape with
  | any => simp [h]
  | file => simp [ofPath_any_of_file h]
  | directory =>
    constructor
    · rintro any ⟨-, nested⟩
      exact ofPath_any_ne_of_nested h nested any
    · intro once
      exact ofPath_any_of_directory h fun nested => once ⟨rfl, nested⟩

end Key

end TabletSweep
