import TabletSweep.Proofs.Key.Text
import TabletSweep.Proofs.Pass.LiveData

/-!
# The paths that a volume deletes at

Names that are put behind a path by joining could replace the path, if they started with a slash,
or could end up as other components than they were meant to be. The components of a key that was
read from a path are plain names, so neither happens: the path of its target is the path of the
tables directory, a slash and the text of the key (`keyPath_eq`), and its components are those of
the tables directory and then those of the key (`parts_keyPath`). The same holds of the directory of
a table that a pass removes (`tablePath_eq`, `parts_tablePath`).

Components are meant here as they are written (`parts`). On a volume without symbolic links they
also say where the target stands (`endOf_keyPath`).
-/

namespace TabletSweep

variable {left right path name : String}

/-- The components of a path as it is written. Steps to the same directory do not count but at the
start of a relative path, and a path that starts with a slash has the slash for a component. -/
def parts (path : String) : List String :=
  let names := (segments path).filter (· ≠ ".")
  if startsWithSlash path then "/" :: names
  else if (segments path).head? = some "." then "." :: names
  else names

theorem filter_plain {names : List String} (plain : ∀ name ∈ names, Plain name) :
    names.filter (· ≠ ".") = names :=
  List.filter_eq_self.mpr fun name mem => by simpa using (plain name mem).ne_dots.1

theorem startsWithSlash_append (some : left ≠ "") :
    startsWithSlash (left ++ right) = startsWithSlash left := by
  have nonempty : left.toList ≠ [] := by simpa using some
  unfold startsWithSlash
  rw [String.toList_append, List.head?_append_of_ne_nil _ nonempty]

/-- A slash behind a path that has segments only adds components. -/
theorem parts_append_slash (some : segments left ≠ []) (right : String) :
    parts (left ++ "/" ++ right) = parts left ++ (segments right).filter (· ≠ ".") := by
  have nonempty : left ≠ "" := by
    rintro rfl
    exact some rfl
  have rooted : startsWithSlash (left ++ "/" ++ right) = startsWithSlash left := by
    rw [String.append_assoc, startsWithSlash_append nonempty]
  have first : (segments left ++ segments right).head? = (segments left).head? :=
    List.head?_append_of_ne_nil _ some
  unfold parts
  rw [segments_append_slash, rooted, first, List.filter_append]
  split
  · rfl
  · split <;> rfl

namespace Volume

variable (v : Volume) {key k k' : Key} {table : String}

/-- The path of the directory that holds the directories of the tables. -/
def tablesPath : String := joinPaths v.root v.tablesDir

section TablesDir

variable (slashless : '/' ∉ v.tablesDir.toList)
include slashless

/-- The tables directory is put behind the root, and does not replace it. -/
theorem tablesPath_eq :
    v.tablesPath =
      v.root ++ (if v.root = "" ∨ endsWithSlash v.root = true then "" else "/") ++ v.tablesDir := by
  unfold tablesPath joinPaths
  rw [startsWithSlash_of_slashless slashless]
  by_cases ready : v.root = "" ∨ endsWithSlash v.root = true
  · simp [ready]
  · simp [ready]

variable (nonempty : v.tablesDir ≠ "")
include nonempty

theorem needsSlash_tablesPath : NeedsSlash v.tablesPath := by
  rw [v.tablesPath_eq slashless]
  exact (needsSlash_of_slashless nonempty slashless).append

theorem segments_tablesPath : segments v.tablesPath = segments v.root ++ [v.tablesDir] := by
  unfold tablesPath
  rw [segments_joinPaths (startsWithSlash_of_slashless slashless),
    segments_of_plain nonempty slashless]

/-- What is put behind the tables directory adds its own components. -/
theorem parts_behind_tablesPath (path : String) :
    parts (v.tablesPath ++ "/" ++ path) =
      parts v.tablesPath ++ (segments path).filter (· ≠ ".") := by
  apply parts_append_slash
  rw [v.segments_tablesPath slashless nonempty]
  simp

/-- The path of the directory of a table is that of the tables directory, a slash and the table. -/
theorem tablePath_eq (plain : Plain table) : v.tablePath table = v.tablesPath ++ "/" ++ table :=
  (v.needsSlash_tablesPath slashless nonempty).joinPaths_eq plain

theorem parts_tablePath (plain : Plain table) :
    parts (v.tablePath table) = parts v.tablesPath ++ [table] := by
  rw [v.tablePath_eq slashless nonempty plain, v.parts_behind_tablesPath slashless nonempty,
    plain.segments_eq, filter_plain (by simpa using plain)]

/-- The path of a target is that of the tables directory, a slash and the text of the key. -/
theorem keyPath_eq (plain : key.IsPlain) : v.keyPath key = v.tablesPath ++ "/" ++ key.text := by
  have table : Plain key.table := plain _ (by simp [Key.components])
  have tablet : Plain key.tablet := plain _ (by simp [Key.components])
  have directory : v.keyPath key.directory = v.tablesPath ++ "/" ++ key.directory.text := by
    show joinPaths (v.tablePath key.table) key.tablet =
      v.tablesPath ++ "/" ++ (key.table ++ "/" ++ key.tablet)
    rw [v.tablePath_eq slashless nonempty table, table.needsSlash.append.joinPaths_eq tablet]
    simp only [String.append_assoc]
  rw [Key.text_eq]
  cases hfile : key.file with
  | none =>
    have same : key.directory = key := by
      rw [Key.directory_eq_self_iff, Key.isDirectory, hfile]
      rfl
    rw [← same]
    exact directory
  | some file =>
    have named : Plain file := plain _ (by simp [Key.components, hfile])
    have behind : v.keyPath key = joinPaths (v.keyPath key.directory) file := by
      simp [keyPath, Key.components, Key.directory, hfile]
    have needs : NeedsSlash key.directory.text := tablet.needsSlash.append
    rw [behind, directory, needs.append.joinPaths_eq named]
    show _ = v.tablesPath ++ "/" ++ (key.directory.text ++ "/" ++ file)
    simp only [String.append_assoc]

theorem parts_keyPath (plain : key.IsPlain) :
    parts (v.keyPath key) = parts v.tablesPath ++ key.components := by
  rw [v.keyPath_eq slashless nonempty plain, v.parts_behind_tablesPath slashless nonempty,
    Key.segments_text plain, filter_plain plain]

section Two

variable (plain : k.IsPlain) (plain' : k'.IsPlain)
include plain plain'

theorem parts_keyPath_inj : parts (v.keyPath k) = parts (v.keyPath k') ↔ k = k' := by
  rw [v.parts_keyPath slashless nonempty plain, v.parts_keyPath slashless nonempty plain',
    List.append_right_inj]
  exact Key.components_injective.eq_iff

theorem keyPath_inj : v.keyPath k = v.keyPath k' ↔ k = k' := by
  refine ⟨fun same => ?_, congrArg _⟩
  exact (v.parts_keyPath_inj slashless nonempty plain plain').mp (congrArg parts same)

/-- A target lies below another only if it is a file in that directory. -/
theorem parts_keyPath_prefix_iff :
    parts (v.keyPath k) <+: parts (v.keyPath k') ∧ parts (v.keyPath k) ≠ parts (v.keyPath k') ↔
      k.isDirectory = true ∧ k'.isDirectory = false ∧ k'.directory = k := by
  rw [Ne, v.parts_keyPath_inj slashless nonempty plain plain',
    v.parts_keyPath slashless nonempty plain, v.parts_keyPath slashless nonempty plain',
    List.prefix_append_right_inj]
  constructor
  · rintro ⟨start, other⟩
    have directory : k = k'.directory := (Key.eq_or_eq_directory_of_prefix start).resolve_left other
    refine ⟨directory ▸ Key.isDirectory_directory k', ?_, directory.symm⟩
    rw [← Bool.not_eq_true, ← Key.directory_eq_self_iff]
    intro self
    exact other (directory.trans self)
  · rintro ⟨directory, file, rfl⟩
    refine ⟨?_, fun same => ?_⟩
    · exact ⟨k'.file.toList, rfl⟩
    · rw [← same, directory] at file
      cases file

end Two

end TablesDir

/-! ## What a pass deletes -/

section Calls

open Pass Simulation

variable {σ : Type} (settings : Settings) (env : Environment σ) (budget : Nat) (world : σ)

/-- The candidates that a pass hands out for deletion have keys that were read from their texts. -/
theorem ofPath_of_handedOut {batch : List Candidate} {answer : Except ServiceError DeleteReport}
    (call : .delete batch answer ∈ (run settings env budget world).calls) {c : Candidate}
    (mem : c ∈ batch) : Key.ofPath settings.tablesDir .any c.literal = .ok c.key := by
  obtain ⟨before, after, split⟩ := List.append_of_mem call
  obtain ⟨snapshot, -, cleared⟩ :=
    cleared_of_delete (justified_calls_run settings env budget world) split
  exact cleared.read c mem

/-- The tables whose directories a pass asks to remove have plain names. -/
theorem plain_of_removeTableDir {answer : Except ServiceError Bool}
    (call : .removeTableDir table answer ∈ (run settings env budget world).calls) :
    Plain table := by
  have each := justified_calls_run settings env budget world
  obtain ⟨before, after, split⟩ := List.append_of_mem call
  obtain ⟨snapshot, -, vacated⟩ := vacated_of_removeTableDir each split
  exact plain_of_handedOut each vacated.handedOut

/-- The tables directory is put behind the root of a volume with at most one slash. The path of the
target of a key that was read from any path is that of the tables directory, a slash and the text of
the key, and has their components. It tells the key, and is above that of another key only if it is
that of its directory. Whatever the environment answers, a pass deletes only such targets, and
removes only directories right below the tables directory. -/
theorem deletes_below_tablesPath (v : Volume) (slashless : '/' ∉ v.tablesDir.toList)
    (nonempty : v.tablesDir ≠ "") :
    v.tablesPath =
        v.root ++ (if v.root = "" ∨ endsWithSlash v.root = true then "" else "/") ++ v.tablesDir ∧
      (∀ tablesDir shape path k, Key.ofPath tablesDir shape path = .ok k →
        v.keyPath k = v.tablesPath ++ "/" ++ k.text ∧
        parts (v.keyPath k) = parts v.tablesPath ++ k.components ∧
        ∀ tablesDir' shape' path' k', Key.ofPath tablesDir' shape' path' = .ok k' →
          (v.keyPath k = v.keyPath k' ↔ k = k') ∧
          (parts (v.keyPath k) = parts (v.keyPath k') ↔ k = k') ∧
          (parts (v.keyPath k) <+: parts (v.keyPath k') ∧
              parts (v.keyPath k) ≠ parts (v.keyPath k') ↔
            k.isDirectory = true ∧ k'.isDirectory = false ∧ k'.directory = k)) ∧
      ∀ (σ : Type) (settings : Settings) (env : Environment σ) (budget : Nat) (world : σ),
        (∀ batch answer, .delete batch answer ∈ (run settings env budget world).calls →
          ∀ c ∈ batch, Key.ofPath settings.tablesDir .any c.literal = .ok c.key) ∧
        ∀ table answer, .removeTableDir table answer ∈ (run settings env budget world).calls →
          (table ≠ "" ∧ '/' ∉ table.toList ∧ table ≠ "." ∧ table ≠ "..") ∧
            v.tablePath table = v.tablesPath ++ "/" ++ table ∧
            parts (v.tablePath table) = parts v.tablesPath ++ [table] := by
  refine ⟨v.tablesPath_eq slashless, ?_, fun σ settings env budget world => ⟨?_, ?_⟩⟩
  · intro tablesDir shape path k read
    have plain := Key.isPlain_of_ofPath read
    refine ⟨v.keyPath_eq slashless nonempty plain, v.parts_keyPath slashless nonempty plain, ?_⟩
    intro tablesDir' shape' path' k' read'
    have plain' := Key.isPlain_of_ofPath read'
    exact ⟨v.keyPath_inj slashless nonempty plain plain',
      v.parts_keyPath_inj slashless nonempty plain plain',
      v.parts_keyPath_prefix_iff slashless nonempty plain plain'⟩
  · intro batch answer call c mem
    exact ofPath_of_handedOut settings env budget world call mem
  · intro table answer call
    have plain := plain_of_removeTableDir settings env budget world call
    exact ⟨⟨plain.ne_empty, plain.no_slash, plain.ne_dots⟩,
      v.tablePath_eq slashless nonempty plain, v.parts_tablePath slashless nonempty plain⟩

/-- Two spellings lead to a directory and to a file in it, and the directory of a dropped table
stands right below the tables directory. -/
theorem disk_paths_below_tables :
    let v : Volume := ⟨"/vol", "tables"⟩
    v.keyPath ⟨"4", "t-0", none⟩ = "/vol/tables/4/t-0" ∧
      parts (v.keyPath ⟨"4", "t-0", some "A.rf"⟩) = ["/", "vol", "tables", "4", "t-0", "A.rf"] ∧
      parts (v.keyPath ⟨"4", "t-0", none⟩) <+: parts (v.keyPath ⟨"4", "t-0", some "A.rf"⟩) ∧
      parts (v.tablePath "9") = ["/", "vol", "tables", "9"] := by
  intro v
  have directory : Key.ofPath "tables" .any "../4//t-0/" = .ok ⟨"4", "t-0", none⟩ := by
    decide +kernel
  have file : Key.ofPath "accumulo" .file "hdfs://nn/accumulo/4/t-0/A.rf" =
      .ok ⟨"4", "t-0", some "A.rf"⟩ := by
    decide +kernel
  obtain ⟨-, keys, pass⟩ := deletes_below_tablesPath v (by decide) (by decide)
  obtain ⟨text, -, others⟩ := keys _ _ _ _ directory
  obtain ⟨-, components, -⟩ := keys _ _ _ _ file
  obtain ⟨-, -, above⟩ := others _ _ _ _ file
  have removed : .removeTableDir "9" (.ok true) ∈ (run {} environment 6 diskWorld).calls := by
    decide +kernel
  obtain ⟨-, -, table⟩ := (pass World {} environment 6 diskWorld).2 _ _ removed
  have tables : parts v.tablesPath = ["/", "vol", "tables"] := by
    decide +kernel
  rw [tables] at components table
  exact ⟨text.trans (by decide +kernel), components, (above.mpr ⟨rfl, rfl, rfl⟩).1, table⟩

end Calls

end Volume

end TabletSweep
