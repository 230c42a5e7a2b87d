import TabletSweep.Proofs.Key

/-!
# The spellings of a key

A key can be written as a path in three ways: relative to the tables directory, relative to the
directory of a table with a leading `../`, and absolutely, behind the tables directory. `Written`
says so of the segments of the path alone, and a path `Spells` a key if moreover the key is of a
shape that is asked for and none of its components is `.` or `..`. A path is read as a key exactly
if it spells that key (`ofPath_eq_ok_iff_spells`), so a reader refuses nothing that is spelled
rightly and takes nothing else.

Segments do not tell how many slashes stand between them, and neither do keys
(`ofPath_more_slashes`, `ofPath_trailing_slashes`).
-/

namespace TabletSweep

variable {tablesDir path : String} {shape : Shape} {key : Key}

/-- A key of the shape. -/
def Shape.Admits : Shape → Key → Prop
  | any, _ => True
  | file, key => key.isDirectory = false
  | directory, key => key.isDirectory = true

/-- The segments of a path spell out the components of a key. -/
inductive Written (tablesDir : String) (shape : Shape) (path : String) (key : Key) : Prop
  /-- A relative path may start with `../`. -/
  | afterParentStep (rest : String) (relative : ':' ∉ path.toList) (step : path = "../" ++ rest)
      (names : segments rest = key.components)
  | relative (relative : ':' ∉ path.toList) (noStep : ∀ rest, path ≠ "../" ++ rest)
      (names : segments path = key.components)
  /-- In an absolute path something stands before the tables directory. Who asks for a file or a
  directory takes its last segments for a directory only if they cannot be a file, with one segment
  more. -/
  | absolute (before : List String) (scheme : ':' ∈ path.toList) (nonempty : before ≠ [])
      (names : segments path = before ++ tablesDir :: key.components)
      (noFile : shape = .any → key.isDirectory = true →
        before.length = 1 ∨ before.getLast? ≠ some tablesDir)

/-- A path is a spelling of a key of a shape. -/
structure Spells (tablesDir : String) (shape : Shape) (path : String) (key : Key) : Prop where
  admitted : shape.Admits key
  noDots : ∀ name ∈ key.components, name ≠ "." ∧ name ≠ ".."
  written : Written tablesDir shape path key

/-- What is written of plain components is spelled rightly. -/
theorem spells_of_plain (plain : ∀ name ∈ key.components, Plain name)
    (admitted : shape.Admits key) (written : Written tablesDir shape path key) :
    Spells tablesDir shape path key :=
  ⟨admitted, fun name mem => (plain name mem).ne_dots, written⟩

theorem Shape.admits_iff :
    shape.Admits key ↔ key.isDirectory = false ∧ shape.allowsFile = true ∨
      key.isDirectory = true ∧ shape.allowsDirectory = true := by
  cases shape <;> cases h : key.isDirectory <;> simp [Admits, allowsFile, allowsDirectory, h]

theorem hasScheme_eq_true_iff : hasScheme path = true ↔ ':' ∈ path.toList :=
  List.contains_iff_mem

theorem hasScheme_eq_false_iff : hasScheme path = false ↔ ':' ∉ path.toList := by
  rw [← hasScheme_eq_true_iff, Bool.not_eq_true]

theorem withoutParentStep_append (rest : String) : withoutParentStep ("../" ++ rest) = rest := by
  simp [withoutParentStep]

theorem withoutParentStep_of_ne (noStep : ∀ rest, path ≠ "../" ++ rest) :
    withoutParentStep path = path := by
  unfold withoutParentStep
  split
  · rename_i rest h
    refine absurd ?_ (noStep (String.ofList rest))
    rw [← String.toList_inj, h]
    simp
  · rfl

namespace Key

theorem hasDots_eq_false_iff :
    key.hasDots = false ↔ ∀ name ∈ key.components, name ≠ "." ∧ name ≠ ".." := by
  simp [hasDots, isDots]

/-! ## Relative paths -/

theorem ofRelative_eq_ok_iff :
    ofRelative shape path = .ok key ↔
      shape.Admits key ∧ key.hasDots = false ∧
        segments (withoutParentStep path) = key.components := by
  rw [Shape.admits_iff]
  constructor
  · intro h
    obtain ⟨names, dots, admitted⟩ := of_ofRelative h
    exact ⟨admitted, dots, names.symm⟩
  · rintro ⟨admitted, dots, names⟩
    obtain ⟨table, tablet, _ | file⟩ := key <;>
      simp_all [ofRelative, hasDots, components, isDirectory]

/-! ## Absolute paths -/

/-- Where an absolute path ends in a directory below the tables directory, it does not end in a file
there if the tables directory stands once, or right behind the first segment. -/
theorem fileAtEnd?_eq_none_iff {before : List String} {table tablet : String}
    (nonempty : before ≠ []) :
    fileAtEnd? tablesDir (before ++ [tablesDir, table, tablet]).reverse = none ↔
      before.length = 1 ∨ before.getLast? ≠ some tablesDir := by
  obtain ⟨init, last, rfl⟩ := (List.eq_nil_or_concat before).resolve_left nonempty
  rcases List.eq_nil_or_concat init with rfl | ⟨init, first, rfl⟩
  · simp [fileAtEnd?]
  · simp [fileAtEnd?]

/-- A key of a shape is found at the end of an absolute path exactly if it stands there behind the
tables directory, with something before that. -/
theorem atEnd_eq_some_iff {names : List String} :
    (if shape.allowsFile then fileAtEnd? tablesDir names.reverse else none).or
        (if shape.allowsDirectory then directoryAtEnd? tablesDir names.reverse else none) =
        some key ↔
      shape.Admits key ∧ ∃ before, before ≠ [] ∧ names = before ++ tablesDir :: key.components ∧
        (shape = .any → key.isDirectory = true →
          before.length = 1 ∨ before.getLast? ≠ some tablesDir) := by
  obtain ⟨table, tablet, _ | file⟩ := key
  · have directory : directoryAtEnd? tablesDir names.reverse = some ⟨table, tablet, none⟩ ↔
        ∃ before, before ≠ [] ∧ names = before ++ [tablesDir, table, tablet] := by
      simp [directoryAtEnd?_eq_some_iff]
    have noFile : fileAtEnd? tablesDir names.reverse ≠ some ⟨table, tablet, none⟩ := by
      simp [Ne, fileAtEnd?_eq_some_iff]
    cases shape with
    | file => simp [Shape.Admits, Shape.allowsFile, Shape.allowsDirectory, noFile, isDirectory]
    | directory =>
      simp [Shape.Admits, Shape.allowsFile, Shape.allowsDirectory, directory, components,
        isDirectory]
    | any =>
      simp only [Shape.Admits, Shape.allowsFile, Shape.allowsDirectory, if_true,
        Option.or_eq_some_iff, noFile, false_or, directory, true_and, components, isDirectory,
        Option.isNone_none, forall_const, Option.toList_none]
      constructor
      · rintro ⟨none, before, nonempty, rfl⟩
        exact ⟨before, nonempty, rfl, (fileAtEnd?_eq_none_iff nonempty).mp none⟩
      · rintro ⟨before, nonempty, rfl, once⟩
        exact ⟨(fileAtEnd?_eq_none_iff nonempty).mpr once, before, nonempty, rfl⟩
  · have found : fileAtEnd? tablesDir names.reverse = some ⟨table, tablet, some file⟩ ↔
        ∃ before, before ≠ [] ∧ names = before ++ [tablesDir, table, tablet, file] := by
      simp [fileAtEnd?_eq_some_iff]
    have noDirectory :
        directoryAtEnd? tablesDir names.reverse ≠ some ⟨table, tablet, some file⟩ := by
      simp [Ne, directoryAtEnd?_eq_some_iff]
    cases shape <;>
      simp [Shape.Admits, Shape.allowsFile, Shape.allowsDirectory, found, noDirectory, components,
        isDirectory]

/-- A path is read as a key of a shape exactly if it is a spelling of that key. -/
theorem ofPath_eq_ok_iff_spells :
    ofPath tablesDir shape path = .ok key ↔ Spells tablesDir shape path key := by
  unfold ofPath
  split
  · rename_i scheme
    rw [hasScheme_eq_true_iff] at scheme
    rw [ofAbsolute_eq_ok_iff, atEnd_eq_some_iff, hasDots_eq_false_iff]
    constructor
    · rintro ⟨⟨admitted, before, nonempty, names, noFile⟩, noDots⟩
      exact ⟨admitted, noDots, .absolute before scheme nonempty names noFile⟩
    · rintro ⟨admitted, noDots, written⟩
      cases written with
      | absolute before _ nonempty names noFile =>
        exact ⟨⟨admitted, before, nonempty, names, noFile⟩, noDots⟩
      | afterParentStep _ relative | relative relative => exact absurd scheme relative
  · rename_i relative
    rw [hasScheme_eq_true_iff] at relative
    rw [ofRelative_eq_ok_iff, hasDots_eq_false_iff]
    constructor
    · rintro ⟨admitted, noDots, names⟩
      refine ⟨admitted, noDots, ?_⟩
      by_cases step : ∃ rest, path = "../" ++ rest
      · obtain ⟨rest, rfl⟩ := step
        rw [withoutParentStep_append] at names
        exact .afterParentStep rest relative rfl names
      · have noStep := not_exists.mp step
        rw [withoutParentStep_of_ne noStep] at names
        exact .relative relative noStep names
    · rintro ⟨admitted, noDots, written⟩
      refine ⟨admitted, noDots, ?_⟩
      cases written with
      | afterParentStep rest _ step names => rw [step, withoutParentStep_append, names]
      | relative _ noStep names => rw [withoutParentStep_of_ne noStep, names]
      | absolute _ scheme => exact absurd scheme relative

end Key

/-! ## Slashes -/

/-- So many slashes. -/
def slashes (n : Nat) : String := String.ofList (List.replicate n '/')

theorem slashes_zero : slashes 0 = "" := rfl

theorem slashes_succ (n : Nat) : slashes (n + 1) = "/" ++ slashes n := by
  rw [← String.toList_inj]
  simp [slashes, List.replicate_succ]

theorem segments_slash_append (path : String) : segments ("/" ++ path) = segments path := by
  simpa using segments_append_slash "" path

theorem segments_slashes_append (n : Nat) (path : String) :
    segments (slashes n ++ path) = segments path := by
  induction n with
  | zero => simp [slashes_zero]
  | succ n ih => rw [slashes_succ, String.append_assoc, segments_slash_append, ih]

theorem hasScheme_append (p q : String) : hasScheme (p ++ q) = (hasScheme p || hasScheme q) := by
  simp [hasScheme]

theorem hasScheme_slashes (n : Nat) : hasScheme (slashes n) = false := by
  simp [hasScheme, slashes]

/-- A slash makes no leading `../` but behind `..`. -/
theorem segments_withoutParentStep_append {before : String} (after : String)
    (noStep : before ≠ "..") :
    segments (withoutParentStep (before ++ "/" ++ after)) =
      segments (withoutParentStep before) ++ segments after := by
  by_cases step : ∃ rest, before = "../" ++ rest
  · obtain ⟨rest, rfl⟩ := step
    rw [String.append_assoc, String.append_assoc, withoutParentStep_append,
      withoutParentStep_append, ← String.append_assoc, segments_append_slash]
  · rw [withoutParentStep_of_ne (not_exists.mp step), withoutParentStep_of_ne,
      segments_append_slash]
    intro rest h
    have chars : before.toList ++ '/' :: after.toList = '.' :: '.' :: '/' :: rest.toList := by
      simpa using congrArg String.toList h
    -- The step would have to end before the slash, at it, or after it.
    rcases hbefore : before.toList with _ | ⟨a, _ | ⟨b, _ | ⟨c, more⟩⟩⟩ <;>
      rw [hbefore] at chars
    · simp at chars
    · simp at chars
    · obtain ⟨rfl, rfl, -⟩ := by simpa using chars
      exact noStep (String.toList_inj.mp hbefore)
    · obtain ⟨rfl, rfl, rfl, -⟩ := by simpa using chars
      refine step ⟨String.ofList more, String.toList_inj.mp ?_⟩
      rw [hbefore]
      simp

namespace Key

/-- Beyond the scheme, only segments tell what key a path is read as. -/
theorem ofPath_congr {p q : String} (scheme : hasScheme p = hasScheme q)
    (names : segments p = segments q)
    (relative : segments (withoutParentStep p) = segments (withoutParentStep q)) :
    ofPath tablesDir shape p = .ok key ↔ ofPath tablesDir shape q = .ok key := by
  unfold ofPath
  rw [scheme]
  split
  · rw [ofAbsolute_eq_ok_iff, ofAbsolute_eq_ok_iff, names]
  · rw [ofRelative_eq_ok_iff, ofRelative_eq_ok_iff, relative]

/-- More slashes where there is one do not change the key. -/
theorem ofPath_more_slashes (before after : String) (n : Nat) :
    ofPath tablesDir shape (before ++ "/" ++ slashes n ++ after) = .ok key ↔
      ofPath tablesDir shape (before ++ "/" ++ after) = .ok key := by
  have scheme : hasScheme (before ++ "/" ++ slashes n ++ after) =
      hasScheme (before ++ "/" ++ after) := by
    simp only [hasScheme_append, hasScheme_slashes, Bool.or_false]
  have whole : before ++ "/" ++ slashes n ++ after = before ++ "/" ++ (slashes n ++ after) :=
    String.append_assoc ..
  refine ofPath_congr scheme ?_ ?_
  · rw [whole, segments_append_slash, segments_append_slash, segments_slashes_append]
  · rw [whole]
    by_cases step : before = ".."
    · subst step
      change segments (withoutParentStep ("../" ++ (slashes n ++ after))) =
        segments (withoutParentStep ("../" ++ after))
      rw [withoutParentStep_append, withoutParentStep_append, segments_slashes_append]
    · rw [segments_withoutParentStep_append _ step, segments_withoutParentStep_append _ step,
        segments_slashes_append]

/-- The step to the upper directory is no path of a key, with slashes behind it or without. -/
theorem ofPath_upper_ne (n : Nat) : ofPath tablesDir shape (".." ++ slashes n) ≠ .ok key := by
  have relative : hasScheme (".." ++ slashes n) = false := by
    rw [hasScheme_append, hasScheme_slashes]
    rfl
  rw [ofPath, if_neg (by rw [relative]; decide), Ne, ofRelative_eq_ok_iff]
  rintro ⟨-, -, names⟩
  cases n with
  | zero =>
    have one : segments (withoutParentStep (".." ++ slashes 0)) = [".."] := by decide
    rw [one] at names
    simp [components] at names
  | succ n =>
    have step : ".." ++ slashes (n + 1) = "../" ++ slashes n := by
      rw [slashes_succ, ← String.append_assoc]
      rfl
    have none : segments (slashes n) = [] := by
      simpa using segments_slashes_append n ""
    rw [step, withoutParentStep_append, none] at names
    cases names

/-- Slashes behind a path do not change the key. -/
theorem ofPath_trailing_slashes (path : String) (n : Nat) :
    ofPath tablesDir shape (path ++ slashes n) = .ok key ↔
      ofPath tablesDir shape path = .ok key := by
  by_cases upper : path = ".."
  · subst upper
    exact iff_of_false (ofPath_upper_ne n) (ofPath_upper_ne 0)
  cases n with
  | zero => rw [slashes_zero, String.append_empty]
  | succ n =>
    have none : segments (slashes n) = [] := by
      simpa using segments_slashes_append n ""
    have whole : path ++ slashes (n + 1) = path ++ "/" ++ slashes n := by
      rw [slashes_succ, String.append_assoc]
    refine ofPath_congr ?_ ?_ ?_
    · rw [hasScheme_append, hasScheme_slashes, Bool.or_false]
    · rw [whole, segments_append_slash, none, List.append_nil]
    · rw [whole, segments_withoutParentStep_append _ upper, none, List.append_nil]

/-- A path is read as a key of a shape exactly if it is a spelling of that key. Where there is a
slash there may be any number of them, and any number behind the path: it is read as the same key,
or as none. -/
theorem accepts_spellings (tablesDir : String) (shape : Shape) :
    (∀ path key, ofPath tablesDir shape path = .ok key ↔ Spells tablesDir shape path key) ∧
      (∀ before after n key,
        ofPath tablesDir shape (before ++ "/" ++ slashes n ++ after) = .ok key ↔
          ofPath tablesDir shape (before ++ "/" ++ after) = .ok key) ∧
      ∀ path n key, ofPath tablesDir shape (path ++ slashes n) = .ok key ↔
        ofPath tablesDir shape path = .ok key :=
  ⟨fun _ _ => ofPath_eq_ok_iff_spells, fun before after n _ => ofPath_more_slashes before after n,
    fun path n _ => ofPath_trailing_slashes path n⟩

end Key

end TabletSweep
