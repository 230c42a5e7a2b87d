import TabletSweep.Proofs.Protection

/-!
# What the keys of paths look like

The end of an absolute path is a key when the tables directory stands before it
(`fileAtEnd?_eq_some_iff`, `directoryAtEnd?_eq_some_iff`). The components of a key that was read
from a path are plain names (`plain_of_ofPath`), so they can be put into a path again and are its
segments there. A key is of the shape that was asked for (`isDirectory_of_ofPath`), and the
components of one key start those of another only if the two are equal or the first is the directory
of the second (`eq_or_eq_directory_of_prefix`).
-/

namespace TabletSweep

/-- A name that is a segment of a path and not a step to the same or to the upper directory. -/
structure Plain (name : String) : Prop where
  ne_empty : name ≠ ""
  no_slash : '/' ∉ name.toList
  no_dots : isDots name = false

theorem Plain.segments_eq {name : String} (h : Plain name) : segments name = [name] :=
  segments_of_plain h.ne_empty h.no_slash

theorem Plain.ne_dots {name : String} (h : Plain name) : name ≠ "." ∧ name ≠ ".." := by
  simpa [isDots] using h.no_dots

theorem plain_of_mem_segments {path name : String} (h : name ∈ segments path)
    (dots : isDots name = false) : Plain name :=
  ⟨(of_mem_segments h).1, (of_mem_segments h).2, dots⟩

namespace Key

variable {tablesDir path : String} {shape : Shape} {key k k' : Key} {names : List String}

/-! ## The end of an absolute path -/

theorem fileAtEnd?_eq_some_iff :
    fileAtEnd? tablesDir names.reverse = some key ↔
      ∃ before file, before ≠ [] ∧ key.file = some file ∧
        names = before ++ [tablesDir, key.table, key.tablet, file] := by
  constructor
  · intro h
    unfold fileAtEnd? at h
    split at h
    · rename_i file tablet table parent last rest e
      split at h
      · rename_i same
        subst same
        cases h
        refine ⟨(last :: rest).reverse, file, by simp, rfl, ?_⟩
        rw [← List.reverse_inj, e]
        simp
      · cases h
    · cases h
  · rintro ⟨before, file, some, hfile, rfl⟩
    obtain ⟨first, last, rfl⟩ := (List.eq_nil_or_concat before).resolve_left some
    rcases key with ⟨table, tablet, _⟩
    cases hfile
    simp [fileAtEnd?]

theorem directoryAtEnd?_eq_some_iff :
    directoryAtEnd? tablesDir names.reverse = some key ↔
      ∃ before, before ≠ [] ∧ key.file = none ∧
        names = before ++ [tablesDir, key.table, key.tablet] := by
  constructor
  · intro h
    unfold directoryAtEnd? at h
    split at h
    · rename_i tablet table parent last rest e
      split at h
      · rename_i same
        subst same
        cases h
        refine ⟨(last :: rest).reverse, by simp, rfl, ?_⟩
        rw [← List.reverse_inj, e]
        simp
      · cases h
    · cases h
  · rintro ⟨before, some, hfile, rfl⟩
    obtain ⟨first, last, rfl⟩ := (List.eq_nil_or_concat before).resolve_left some
    rcases key with ⟨table, tablet, _⟩
    cases hfile
    simp [directoryAtEnd?]

/-- The key of an absolute path is the file at its end or else the directory there, as far as the
shape allows, unless it has dots. -/
theorem ofAbsolute_eq_ok_iff :
    ofAbsolute tablesDir shape path = .ok key ↔
      ((if shape.allowsFile then fileAtEnd? tablesDir (segments path).reverse else none).or
          (if shape.allowsDirectory then directoryAtEnd? tablesDir (segments path).reverse
            else none)) = some key ∧
        key.hasDots = false := by
  simp only [ofAbsolute]
  split
  · rename_i none
    rw [none]
    simp
  · rename_i found hfound
    rw [hfound]
    split
    · rename_i dots
      refine ⟨nofun, ?_⟩
      rintro ⟨⟨⟩, plain⟩
      rw [dots] at plain
      cases plain
    · rename_i plain
      rw [Bool.not_eq_true] at plain
      constructor
      · rintro ⟨⟩
        exact ⟨rfl, plain⟩
      · rintro ⟨⟨⟩, -⟩
        rfl

/-- The components of a file at the end of an absolute path are names of the path. -/
theorem of_fileAtEnd? (h : fileAtEnd? tablesDir names.reverse = some key) :
    key.components ⊆ names ∧ key.isDirectory = false := by
  obtain ⟨before, file, -, hfile, rfl⟩ := fileAtEnd?_eq_some_iff.mp h
  refine ⟨?_, by simp [isDirectory, hfile]⟩
  rw [components, hfile]
  exact List.Subset.trans (List.subset_cons_self ..) (List.subset_append_right ..)

/-- The components of a directory at the end of an absolute path are names of the path. -/
theorem of_directoryAtEnd? (h : directoryAtEnd? tablesDir names.reverse = some key) :
    key.components ⊆ names ∧ key.isDirectory = true := by
  obtain ⟨before, -, hfile, rfl⟩ := directoryAtEnd?_eq_some_iff.mp h
  refine ⟨?_, by simp [isDirectory, hfile]⟩
  rw [components, hfile]
  exact List.Subset.trans (List.subset_cons_self ..) (List.subset_append_right ..)

/-- The key of an absolute path is found at its end, as a file or as a directory, and has no
dots. -/
theorem of_ofAbsolute (h : ofAbsolute tablesDir shape path = .ok key) :
    (shape.allowsFile = true ∧ fileAtEnd? tablesDir (segments path).reverse = some key ∨
      shape.allowsDirectory = true ∧
        directoryAtEnd? tablesDir (segments path).reverse = some key) ∧
      key.hasDots = false := by
  obtain ⟨found, dots⟩ := ofAbsolute_eq_ok_iff.mp h
  refine ⟨?_, dots⟩
  rcases Option.or_eq_some_iff.mp found with hfile | ⟨-, hdirectory⟩
  · split at hfile
    · rename_i allowed
      exact .inl ⟨allowed, hfile⟩
    · cases hfile
  · split at hdirectory
    · rename_i allowed
      exact .inr ⟨allowed, hdirectory⟩
    · cases hdirectory

/-! ## Paths -/

/-- The key of a relative path is spelled out by its segments, none of which are dots. -/
theorem of_ofRelative (h : ofRelative shape path = .ok key) :
    key.components = segments (withoutParentStep path) ∧ key.hasDots = false ∧
      (key.isDirectory = false ∧ shape.allowsFile = true ∨
        key.isDirectory = true ∧ shape.allowsDirectory = true) := by
  simp only [ofRelative] at h
  split at h
  · cases h
  rename_i dots
  rw [Bool.not_eq_true] at dots
  split at h
  · cases h
  · rename_i table tablet file hnames
    split at h
    · rename_i allowed
      cases h
      rw [hnames] at dots ⊢
      exact ⟨rfl, dots, .inl ⟨rfl, allowed⟩⟩
    · cases h
  · rename_i table tablet hnames
    split at h
    · rename_i allowed
      cases h
      rw [hnames] at dots ⊢
      exact ⟨rfl, dots, .inr ⟨rfl, allowed⟩⟩
    · cases h
  · cases h

/-- The components of the key of a path are plain names. -/
theorem plain_of_ofPath (h : ofPath tablesDir shape path = .ok key) {name : String}
    (hname : name ∈ key.components) : Plain name := by
  have noDots : key.hasDots = false → isDots name = false := by
    intro dots
    exact Bool.eq_false_iff.mpr (List.any_eq_false.mp dots name hname)
  unfold ofPath at h
  split at h
  · obtain ⟨found, dots⟩ := of_ofAbsolute h
    have hmem : name ∈ segments path := by
      rcases found with ⟨-, hfile⟩ | ⟨-, hdirectory⟩
      · exact (of_fileAtEnd? hfile).1 hname
      · exact (of_directoryAtEnd? hdirectory).1 hname
    exact plain_of_mem_segments hmem (noDots dots)
  · obtain ⟨hcomponents, dots, -⟩ := of_ofRelative h
    rw [hcomponents] at hname
    have : isDots name = false := Bool.eq_false_iff.mpr
      (List.any_eq_false.mp dots name (hcomponents ▸ hname))
    exact plain_of_mem_segments hname this

/-- A path that may name only a directory has the key of one. -/
theorem isDirectory_of_ofPath (h : ofPath tablesDir .directory path = .ok key) :
    key.isDirectory = true := by
  unfold ofPath at h
  split at h
  · obtain ⟨⟨⟨⟩, -⟩ | ⟨-, hdirectory⟩, -⟩ := of_ofAbsolute h
    exact (of_directoryAtEnd? hdirectory).2
  · obtain ⟨-, -, ⟨-, ⟨⟩⟩ | ⟨hdirectory, -⟩⟩ := of_ofRelative h
    exact hdirectory

/-! ## Starts of keys -/

theorem eq_or_eq_directory_of_prefix (h : k.components <+: k'.components) :
    k = k' ∨ k = k'.directory := by
  rcases k with ⟨table, tablet, _ | file⟩ <;> rcases k' with ⟨table', tablet', _ | file'⟩ <;>
    simp_all [components, directory]

theorem directory_eq_of_prefix (h : k.components <+: k'.components) :
    k.directory = k'.directory := by
  rcases eq_or_eq_directory_of_prefix h with rfl | rfl <;> rfl

end Key

/-! ## References -/

/-- Of two steps that succeed in sequence each succeeds. -/
theorem exists_of_bind_eq_ok {α β ε : Type} {x : Except ε α} {next : α → Except ε β} {b : β}
    (h : x >>= next = .ok b) : ∃ a, x = .ok a ∧ next a = .ok b := by
  cases x with
  | error e => cases h
  | ok a => exact ⟨a, rfl, h⟩

/-- What succeeds with its error reworded succeeds without. -/
theorem exists_of_mapError_eq_ok {α β ε ε' : Type} {x : Except ε α} {f : α → β} {g : ε → ε'} {b : β}
    (h : (x.map f).mapError g = .ok b) : ∃ a, x = .ok a ∧ b = f a := by
  cases x with
  | error e => cases h
  | ok a =>
    cases h
    exact ⟨a, rfl, rfl⟩

namespace Reference

/-- A reference is to the file or to the directory that a path names. -/
theorem exists_ofPath_of_ofEntry {tablesDir : String} {e : Entry} {r : Reference}
    (h : ofEntry tablesDir e = .ok r) :
    (∃ path key, Key.ofPath tablesDir .file path = .ok key ∧ r = .file key) ∨
      ∃ path key, Key.ofPath tablesDir .directory path = .ok key ∧ r = .directory key := by
  unfold ofEntry at h
  split at h
  · obtain ⟨path, -, h⟩ := exists_of_bind_eq_ok h
    obtain ⟨key, hkey, rfl⟩ := exists_of_mapError_eq_ok h
    exact .inl ⟨path, key, hkey, rfl⟩
  split at h
  · obtain ⟨path, -, h⟩ := exists_of_bind_eq_ok h
    obtain ⟨key, hkey, rfl⟩ := exists_of_mapError_eq_ok h
    exact .inr ⟨path, key, hkey, rfl⟩
  · cases h

/-- The components of the key of a reference are plain names. -/
theorem plain_of_ofEntry {tablesDir : String} {e : Entry} {r : Reference}
    (h : ofEntry tablesDir e = .ok r) {name : String} (hname : name ∈ r.key.components) :
    Plain name := by
  obtain ⟨path, key, hkey, rfl⟩ | ⟨path, key, hkey, rfl⟩ := exists_ofPath_of_ofEntry h
  · exact Key.plain_of_ofPath hkey hname
  · exact Key.plain_of_ofPath hkey hname

/-- A reference protects its key and the directory of that. -/
theorem protects_of_ofEntry {tablesDir : String} {e : Entry} {r : Reference}
    (h : ofEntry tablesDir e = .ok r) {key : Key} (hkey : key = r.key ∨ key = r.key.directory) :
    r.Protects key := by
  obtain ⟨path, k, -, rfl⟩ | ⟨path, k, hpath, rfl⟩ := exists_ofPath_of_ofEntry h
  · exact hkey.imp_right fun hdirectory => ⟨k, rfl, hdirectory⟩
  · have same : k.directory = k := Key.directory_eq_self_iff.mpr (Key.isDirectory_of_ofPath hpath)
    exact .inl (hkey.elim id fun hdirectory => hdirectory.trans same)

end Reference

end TabletSweep
