import Mathlib.Control.Monad.Basic
import TabletSweep.LiveKeys
import TabletSweep.Proofs.Key.Shapes
import TabletSweep.Proofs.Key.Spellings

/-!
# What the paths in entries refer to

An entry names its target relative to the directory of the table that owns it, relative to the
tables directory, or absolutely, and a file also with a suffix that tells entries apart. `Names`
lists these texts; all of them refer to the same target, and a file that one of them refers to is
found in use under every other spelling, and so is its directory (`every_spelling_protects`).

A path that starts with a slash is written relative to the owning table. It is put behind the id of
that table and read again, and if it has a colon it is then read as an absolute path: the reference
is to a target that may be of any table (`rooted_reference_stays_unless_scheme`,
`rooted_reference_leaves_owner`).
-/

namespace TabletSweep

variable {tablesDir owner : String} {e : Entry} {r : Reference} {key : Key}

/-! ## Reading an entry -/

theorem startsWithSlash_iff {path : String} :
    startsWithSlash path = true ↔ ∃ rest, path = "/" ++ rest := by
  rw [startsWithSlash, decide_eq_true_iff, List.head?_eq_some_iff]
  constructor
  · rintro ⟨rest, h⟩
    refine ⟨String.ofList rest, String.toList_inj.mp ?_⟩
    rw [h]
    simp
  · rintro ⟨rest, rfl⟩
    exact ⟨rest.toList, by simp⟩

/-- A path that starts with a slash has its own segments behind those of a table. -/
theorem segments_behind {path : String} (rooted : startsWithSlash path = true) (table : String) :
    segments ("/" ++ table ++ path) = segments table ++ segments path := by
  obtain ⟨rest, rfl⟩ := startsWithSlash_iff.mp rooted
  rw [← String.append_assoc, segments_append_slash, segments_slash_append, segments_slash_append]

theorem hasScheme_behind (table path : String) :
    hasScheme ("/" ++ table ++ path) = (hasScheme table || hasScheme path) := by
  rw [hasScheme_append, hasScheme_append]
  rfl

theorem behind_ne_parentStep (table path rest : String) : "/" ++ table ++ path ≠ "../" ++ rest := by
  intro step
  have chars := congrArg String.toList step
  simp at chars

namespace Entry

theorem namesFile_of_namesDirectory (directory : e.namesDirectory = true) :
    e.namesFile = false := by
  obtain ⟨family, -⟩ : e.family = serverFamily ∧ _ := by
    simpa [namesDirectory] using directory
  simp [namesFile, family, serverFamily, fileFamily, scanFamily]

theorem fromOwner_eq (owned : Row.table? e.row = some owner) (path : String) :
    e.fromOwner path = .ok ("/" ++ owner ++ path) := by
  simp only [fromOwner, Entry.owner, owned]
  rfl

theorem filePath_of_rooted (owned : Row.table? e.row = some owner)
    (rooted : startsWithSlash e.qualifierPath = true) :
    e.filePath = .ok ("/" ++ owner ++ e.qualifierPath) := by
  rw [filePath, if_pos rooted, fromOwner_eq owned]

theorem directoryPath_of_rooted (owned : Row.table? e.row = some owner)
    (rooted : startsWithSlash e.value = true) (relative : hasScheme e.value = false) :
    e.directoryPath = .ok ("/" ++ owner ++ e.value) := by
  rw [directoryPath, if_neg (by simp [relative]), if_pos rooted, fromOwner_eq owned]

end Entry

/-- Two steps in sequence succeed if each does, however the second is reworded. -/
theorem bind_map_eq_ok_iff {α β γ ε ε' : Type} {x : Except ε α} {f : α → Except ε' β} {g : β → γ}
    {w : ε' → ε} {c : γ} :
    (x >>= fun a => ((f a).map g).mapError w) = .ok c ↔
      ∃ a b, x = .ok a ∧ f a = .ok b ∧ c = g b := by
  constructor
  · intro h
    obtain ⟨a, ha, h⟩ := exists_of_bind_eq_ok h
    obtain ⟨b, hb, rfl⟩ := exists_of_mapError_eq_ok h
    exact ⟨a, b, ha, hb, rfl⟩
  · rintro ⟨a, b, rfl, hb, rfl⟩
    change ((f a).map g).mapError w = _
    rw [hb]
    rfl

namespace Reference

theorem ofEntry_eq_ok_iff_of_namesFile (column : e.namesFile = true) :
    ofEntry tablesDir e = .ok r ↔ ∃ path key, e.filePath = .ok path ∧
      Key.ofPath tablesDir .file path = .ok key ∧ r = .file key := by
  rw [ofEntry, if_pos column, bind_map_eq_ok_iff]

theorem ofEntry_eq_ok_iff_of_namesDirectory (column : e.namesDirectory = true) :
    ofEntry tablesDir e = .ok r ↔ ∃ path key, e.directoryPath = .ok path ∧
      Key.ofPath tablesDir .directory path = .ok key ∧ r = .directory key := by
  rw [ofEntry, if_neg (by simp [Entry.namesFile_of_namesDirectory column]), if_pos column,
    bind_map_eq_ok_iff]

end Reference

/-! ## The texts that name a target -/

/-- The texts by which an entry of a tablet of `owner` may name the target of a key. -/
inductive Names (tablesDir owner : String) (key : Key) (text : String) : Prop
  /-- Relative to the directory of the owning table, which is that of the key. -/
  | own (same : owner = key.table) (relative : ':' ∉ text.toList)
      (rooted : startsWithSlash text = true) (names : owner :: segments text = key.components)
  /-- Relative to the tables directory. Only files are named so. -/
  | shared (rest : String) (file : key.isDirectory = false) (relative : ':' ∉ text.toList)
      (step : text = "../" ++ rest) (names : segments rest = key.components)
  /-- Absolutely, with something before the tables directory. -/
  | absolute (before : List String) (scheme : ':' ∈ text.toList) (nonempty : before ≠ [])
      (names : segments text = before ++ tablesDir :: key.components)

/-- A text with a suffix, if there is one, that tells it apart from others. -/
def Entry.suffixed (text : String) : Option String → String
  | none => text
  | some suffix => text ++ "|" ++ suffix

theorem Entry.qualifierPath_of_suffixed {text : String} {suffix : Option String}
    (qualifier : e.qualifier = Entry.suffixed text suffix) (bare : '|' ∉ text.toList) :
    e.qualifierPath = text := by
  have kept : ∀ c ∈ text.toList, decide (c ≠ '|') = true := by
    intro c hc
    refine decide_eq_true ?_
    rintro rfl
    exact bare hc
  obtain ⟨rest, hrest, cut⟩ : ∃ rest, e.qualifier.toList = text.toList ++ rest ∧
      rest.takeWhile (· ≠ '|') = [] := by
    rw [qualifier]
    cases suffix with
    | none => exact ⟨[], by simp [Entry.suffixed], rfl⟩
    | some suffix => exact ⟨'|' :: suffix.toList, by simp [Entry.suffixed], by simp⟩
  rw [Entry.qualifierPath, ← String.toList_inj, String.toList_ofList, hrest,
    List.takeWhile_append_of_pos kept, cut, List.append_nil]

section Named

variable {shape : Shape} {text : String} (admitted : shape.Admits key)
  (named : ∀ name ∈ key.components, Plain name ∧ hasScheme name = false)
include admitted named

theorem spells_of_written (written : Written tablesDir shape text key) :
    Spells tablesDir shape text key :=
  spells_of_plain (fun name mem => (named name mem).1) admitted written

/-- A text that names a target relative to its table spells it behind the id of the table. -/
theorem spells_behind (relative : ':' ∉ text.toList) (rooted : startsWithSlash text = true)
    (names : key.table :: segments text = key.components) :
    Spells tablesDir shape ("/" ++ key.table ++ text) key := by
  obtain ⟨plain, tame⟩ := named key.table (by simp [Key.components])
  refine spells_of_written admitted named (.relative ?_ (behind_ne_parentStep _ _) ?_)
  · rw [← hasScheme_eq_false_iff, hasScheme_behind, tame, hasScheme_eq_false_iff.mpr relative]
    rfl
  · rw [segments_behind rooted, plain.segments_eq, ← names]
    rfl

/-- A text that names a target absolutely spells it, and would do so behind the id of any table. -/
theorem spells_absolute (only : shape ≠ .any) {before : List String} (scheme : ':' ∈ text.toList)
    (nonempty : before ≠ []) (names : segments text = before ++ tablesDir :: key.components) :
    Spells tablesDir shape text key ∧
      (startsWithSlash text = true →
        ∀ table, Spells tablesDir shape ("/" ++ table ++ text) key) := by
  refine ⟨spells_of_written admitted named (.absolute before scheme nonempty names ?_),
    fun rooted table => spells_of_written admitted named
      (.absolute (segments table ++ before) ?_ (by simp [nonempty]) ?_ ?_)⟩
  · exact fun any => absurd any only
  · rw [← hasScheme_eq_true_iff, hasScheme_behind, hasScheme_eq_true_iff.mpr scheme, Bool.or_true]
  · rw [segments_behind rooted, names, List.append_assoc]
  · exact fun any => absurd any only

end Named

section Column

variable {text : String} (named : ∀ name ∈ key.components, Plain name ∧ hasScheme name = false)
  (owned : Row.table? e.row = some owner) (names : Names tablesDir owner key text)
include named owned names

/-- An entry of a file column refers to the file that its qualifier names. -/
theorem Names.file (column : e.namesFile = true) (qualifier : e.qualifierPath = text)
    (file : Shape.file.Admits key) : Reference.ofEntry tablesDir e = .ok (.file key) := by
  have spelled : ∃ path, e.filePath = .ok path ∧ Spells tablesDir .file path key := by
    cases names with
    | own same relative rooted names =>
      subst same
      exact ⟨_, qualifier ▸ Entry.filePath_of_rooted owned (qualifier ▸ rooted),
        spells_behind file named relative rooted names⟩
    | shared rest _ relative step names =>
      subst step
      refine ⟨_, ?_, spells_of_written file named (.afterParentStep rest relative rfl names)⟩
      rw [Entry.filePath, qualifier, if_neg (by simp [startsWithSlash]),
        if_pos (by simp [startsWithParentStep])]
    | absolute before scheme nonempty names =>
      obtain ⟨spells, behind⟩ := spells_absolute file named (by decide) scheme nonempty names
      by_cases rooted : startsWithSlash text = true
      · exact ⟨_, qualifier ▸ Entry.filePath_of_rooted owned (qualifier ▸ rooted),
          behind rooted owner⟩
      · refine ⟨text, ?_, spells⟩
        rw [Entry.filePath, qualifier, if_neg rooted,
          if_pos (by simp [hasScheme_eq_true_iff.mpr scheme])]
  obtain ⟨path, hpath, spells⟩ := spelled
  exact (Reference.ofEntry_eq_ok_iff_of_namesFile column).mpr
    ⟨path, key, hpath, Key.ofPath_eq_ok_iff_spells.mpr spells, rfl⟩

/-- An entry of the directory column refers to the directory that its value names. -/
theorem Names.directory (column : e.namesDirectory = true) (value : e.value = text)
    (directory : Shape.directory.Admits key) :
    Reference.ofEntry tablesDir e = .ok (.directory key) := by
  have spelled : ∃ path, e.directoryPath = .ok path ∧ Spells tablesDir .directory path key := by
    subst value
    cases names with
    | own same relative rooted names =>
      subst same
      exact ⟨_, Entry.directoryPath_of_rooted owned rooted (hasScheme_eq_false_iff.mpr relative),
        spells_behind directory named relative rooted names⟩
    | shared _ file => cases directory.symm.trans file
    | absolute before scheme nonempty names =>
      refine ⟨_, ?_, (spells_absolute directory named (by decide) scheme nonempty names).1⟩
      rw [Entry.directoryPath, if_pos (hasScheme_eq_true_iff.mpr scheme)]
  obtain ⟨path, hpath, spells⟩ := spelled
  exact (Reference.ofEntry_eq_ok_iff_of_namesDirectory column).mpr
    ⟨path, key, hpath, Key.ofPath_eq_ok_iff_spells.mpr spells, rfl⟩

end Column

/-- What a reference protects is in use once the reference is among the live keys. -/
theorem LiveKeys.mem_split_insert {live : LiveKeys} {page : List Candidate} {c : Candidate}
    (protects : r.Protects c.key) (hc : c ∈ page) :
    c ∈ ((live.insert r).split page).2 ∧ c ∉ ((live.insert r).split page).1 := by
  have kept : (live.insert r).keeps c.key = true := keeps_insert.mpr (.inr protects)
  simp [split, List.partition_eq_filter_filter, hc, kept]

/-- All texts that name a file or a tablet directory refer to it, whichever table owns the entry and
whatever suffix the text has. Once one of the references to a file is among the live keys, every
spelling of the file is found in use, and every spelling of its directory but an absolute one with
the tables directory twice. -/
theorem every_spelling_protects (tablesDir table tablet file : String)
    (named : ∀ name ∈ [table, tablet, file], Plain name ∧ hasScheme name = false) :
    (∀ family ∈ [Entry.fileFamily, Entry.scanFamily], ∀ owner endRow text suffix value,
        owner ≠ "" → (∀ c ∈ owner.toList, Row.isMark c = false) → '|' ∉ text.toList →
          Names tablesDir owner ⟨table, tablet, some file⟩ text →
            Reference.ofEntry tablesDir
                ⟨Row.ofTablet owner endRow, family, Entry.suffixed text suffix, value⟩ =
              .ok (.file ⟨table, tablet, some file⟩)) ∧
      (∀ owner endRow text, owner ≠ "" → (∀ c ∈ owner.toList, Row.isMark c = false) →
        Names tablesDir owner ⟨table, tablet, none⟩ text →
          Reference.ofEntry tablesDir (.ofDirectory owner endRow text) =
            .ok (.directory ⟨table, tablet, none⟩)) ∧
      ∀ live literal, (Spells tablesDir .file literal ⟨table, tablet, some file⟩ ∨
          Spells tablesDir .directory literal ⟨table, tablet, none⟩ ∧
            ¬EndsNested tablesDir literal) →
        ∃ c, Candidate.ofLiteral tablesDir literal = .ok c ∧ ∀ page, c ∈ page →
          c ∈ ((LiveKeys.insert live (.file ⟨table, tablet, some file⟩)).split page).2 ∧
            c ∉ ((LiveKeys.insert live (.file ⟨table, tablet, some file⟩)).split page).1 := by
  refine ⟨?_, ?_, ?_⟩
  · intro family hfamily owner endRow text suffix value some unmarked bare names
    refine names.file named (Row.table?_ofTablet some unmarked endRow) ?_
      (Entry.qualifierPath_of_suffixed rfl bare) rfl
    simp only [List.mem_cons, List.not_mem_nil, or_false] at hfamily
    rcases hfamily with rfl | rfl <;> rfl
  · intro owner endRow text some unmarked names
    have named' : ∀ name ∈ [table, tablet], Plain name ∧ hasScheme name = false := by
      intro name hname
      exact named name (List.mem_append_left [file] hname)
    exact names.directory named' (Row.table?_ofTablet some unmarked endRow) rfl rfl rfl
  · rintro live literal (spells | ⟨spells, once⟩)
    · have read := Key.ofPath_any_of_file (Key.ofPath_eq_ok_iff_spells.mpr spells)
      refine ⟨⟨literal, _⟩, by rw [Candidate.ofLiteral, read]; rfl, fun page hc => ?_⟩
      exact LiveKeys.mem_split_insert (.inl rfl) hc
    · have read := Key.ofPath_any_of_directory (Key.ofPath_eq_ok_iff_spells.mpr spells) once
      refine ⟨⟨literal, _⟩, by rw [Candidate.ofLiteral, read]; rfl, fun page hc => ?_⟩
      exact LiveKeys.mem_split_insert (.inr ⟨_, rfl, rfl⟩) hc

/-- A file of table 4 as the table itself, a table that shares it and a table on another volume
refer to it, its directory, and a spelling of each of the two that is found in use. -/
theorem spellings_of_a_file_protect :
    Reference.ofEntry "tables" (.ofFile "4" none (Entry.suffixed "//t-0///F.rf" (some "17"))) =
        .ok (.file ⟨"4", "t-0", some "F.rf"⟩) ∧
      Reference.ofEntry "tables" (.ofScan "9" (some "m;<") (Entry.suffixed "..//4/t-0/F.rf" none)) =
        .ok (.file ⟨"4", "t-0", some "F.rf"⟩) ∧
      Reference.ofEntry "tables"
          (.ofFile "9" none (Entry.suffixed "hdfs://nn:8020//tables/4/t-0/F.rf/" none)) =
        .ok (.file ⟨"4", "t-0", some "F.rf"⟩) ∧
      Reference.ofEntry "tables" (.ofDirectory "4" none "/t-0/") =
        .ok (.directory ⟨"4", "t-0", none⟩) ∧
      ∀ literal ∈ ["file:/a/tables//4/t-0/F.rf", "..//4/t-0"], ∃ c,
        Candidate.ofLiteral "tables" literal = .ok c ∧
          c ∈ ((LiveKeys.empty.insert (.file ⟨"4", "t-0", some "F.rf"⟩)).split [c]).2 := by
  have named : ∀ name ∈ ["4", "t-0", "F.rf"], Plain name ∧ hasScheme name = false := by
    simp only [List.forall_mem_cons, List.not_mem_nil, false_imp_iff, implies_true, and_true]
    refine ⟨⟨⟨?_, ?_, ?_⟩, ?_⟩, ⟨⟨?_, ?_, ?_⟩, ?_⟩, ⟨⟨?_, ?_, ?_⟩, ?_⟩⟩ <;> decide
  have four : ∀ c ∈ "4".toList, Row.isMark c = false := by simp [Row.isMark]
  have nine : ∀ c ∈ "9".toList, Row.isMark c = false := by simp [Row.isMark]
  obtain ⟨files, directories, inUse⟩ := every_spelling_protects "tables" "4" "t-0" "F.rf" named
  refine ⟨?_, ?_, ?_, ?_, ?_⟩
  · exact files _ (by decide) "4" none "//t-0///F.rf" (some "17") _ (by decide) four
      (by decide) (.own rfl (by decide) (by decide) (by decide +kernel))
  · exact files _ (by decide) "9" (some "m;<") "..//4/t-0/F.rf" none _ (by decide) nine
      (by decide) (.shared "/4/t-0/F.rf" rfl (by decide) (by decide) (by decide +kernel))
  · exact files _ (by decide) "9" none "hdfs://nn:8020//tables/4/t-0/F.rf/" none _ (by decide) nine
      (by decide +kernel)
      (.absolute ["hdfs:", "nn:8020"] (by decide) (by decide) (by decide +kernel))
  · exact directories "4" none "/t-0/" (by decide) four
      (.own rfl (by decide) (by decide) (by decide +kernel))
  · intro literal hliteral
    have spelled : Spells "tables" .file literal ⟨"4", "t-0", some "F.rf"⟩ ∨
        Spells "tables" .directory literal ⟨"4", "t-0", none⟩ ∧ ¬EndsNested "tables" literal := by
      simp only [List.mem_cons, List.not_mem_nil, or_false] at hliteral
      rcases hliteral with rfl | rfl
      · exact .inl ⟨rfl, by decide,
          .absolute ["file:", "a"] (by decide) (by decide) (by decide +kernel) nofun⟩
      · refine .inr ⟨⟨rfl, by decide, .afterParentStep "/4/t-0" (by decide) (by decide)
          (by decide +kernel)⟩, fun nested => ?_⟩
        exact absurd nested.1 (by decide)
    obtain ⟨c, read, kept⟩ := inUse .empty literal spelled
    exact ⟨c, read, (kept [c] (List.mem_singleton_self c)).1⟩

/-! ## Paths behind the owning table -/

section Behind

variable {path : String} {shape : Shape} (plain : Plain owner)
  (rooted : startsWithSlash path = true)
  (read : Key.ofPath tablesDir shape ("/" ++ owner ++ path) = .ok key)
include plain rooted read

/-- A rooted path without a colon spells out what the components of a key are below its table. -/
theorem components_behind (tame : hasScheme owner = false) (relative : hasScheme path = false) :
    key.components = owner :: segments path := by
  obtain ⟨-, -, written⟩ := Key.ofPath_eq_ok_iff_spells.mp read
  have noScheme : ':' ∉ ("/" ++ owner ++ path).toList := by
    rw [← hasScheme_eq_false_iff, hasScheme_behind, tame, relative]
    rfl
  cases written with
  | afterParentStep rest _ step => exact absurd step (behind_ne_parentStep _ _ rest)
  | relative _ _ names =>
    rw [← names, segments_behind rooted, plain.segments_eq]
    rfl
  | absolute _ scheme => exact absurd scheme noScheme

/-- A rooted path with a colon is read as an absolute path behind the owner, and the key that it is
read as stands at the end of the path itself. -/
theorem components_at_end (scheme : hasScheme path = true) :
    ∃ before, segments path = before ++ tablesDir :: key.components := by
  obtain ⟨-, -, written⟩ := Key.ofPath_eq_ok_iff_spells.mp read
  have absolute : ':' ∈ ("/" ++ owner ++ path).toList := by
    rw [← hasScheme_eq_true_iff, hasScheme_behind, scheme, Bool.or_true]
  cases written with
  | afterParentStep _ relative | relative relative => exact absurd absolute relative
  | absolute before _ nonempty names =>
    rw [segments_behind rooted, plain.segments_eq] at names
    obtain ⟨first, before, rfl⟩ := List.exists_cons_of_ne_nil nonempty
    exact ⟨before, (List.cons.inj names).2⟩

end Behind

/-- A reference that is written relative to the owning table is to a target of that table, with the
segments of the path as the further components of its key, exactly if the path has no colon. If it
has one, which only the path of a file may, then the reference is to the key that stands behind the
tables directory at the end of the path, whatever its table. -/
theorem rooted_reference_stays_unless_scheme (tablesDir : String) (e : Entry) (owner : String)
    (owned : Row.table? e.row = some owner) (plain : Plain owner)
    (tame : hasScheme owner = false) (r : Reference)
    (read : Reference.ofEntry tablesDir e = .ok r) :
    (e.namesFile = true → startsWithSlash e.qualifierPath = true →
        (r.key.components = owner :: segments e.qualifierPath ↔
          hasScheme e.qualifierPath = false) ∧
        (hasScheme e.qualifierPath = true →
          ∃ before, segments e.qualifierPath = before ++ tablesDir :: r.key.components)) ∧
      (e.namesDirectory = true → startsWithSlash e.value = true → hasScheme e.value = false →
        r.key.components = owner :: segments e.value) := by
  constructor
  · intro column rooted
    obtain ⟨path, key, hpath, hkey, rfl⟩ :=
      (Reference.ofEntry_eq_ok_iff_of_namesFile column).mp read
    rw [Entry.filePath_of_rooted owned rooted] at hpath
    obtain rfl := Except.ok.inj hpath
    have at_end := components_at_end plain rooted hkey
    refine ⟨⟨fun same => ?_, components_behind plain rooted hkey tame⟩, at_end⟩
    rw [← Bool.not_eq_true]
    intro scheme
    -- The key would have to be longer than itself.
    obtain ⟨before, names⟩ := at_end scheme
    change key.components = _ at same
    rw [names] at same
    have length := congrArg List.length same
    simp only [List.length_cons, List.length_append] at length
    omega
  · intro column rooted relative
    obtain ⟨path, key, hpath, hkey, rfl⟩ :=
      (Reference.ofEntry_eq_ok_iff_of_namesDirectory column).mp read
    rw [Entry.directoryPath_of_rooted owned rooted relative] at hpath
    obtain rfl := Except.ok.inj hpath
    exact components_behind plain rooted hkey tame relative

/-- A file that table 5 names relative to itself, below a directory with a colon in its name. -/
def strayEntry : Entry := .ofFile "5" none "/x:y/tables/4/t-0/F.rf"

theorem ofEntry_strayEntry :
    Reference.ofEntry "tables" strayEntry = .ok (.file ⟨"4", "t-0", some "F.rf"⟩) := by
  decide +kernel

/-- The file is written relative to table 5, and the reference is to a file of table 4. -/
theorem rooted_reference_leaves_owner :
    Row.table? strayEntry.row = some "5" ∧ strayEntry.namesFile = true ∧
      startsWithSlash strayEntry.qualifierPath = true ∧
      Reference.ofEntry "tables" strayEntry = .ok (.file ⟨"4", "t-0", some "F.rf"⟩) :=
  ⟨by decide +kernel, by decide +kernel, by decide +kernel, ofEntry_strayEntry⟩

/-- A file that table 5 names relative to itself. -/
def rootedEntry : Entry := .ofScan "5" (some "m;n") "/t-0//F.rf|17"

/-- The one reference is to a file of the owning table, the other to what stands at the end of its
path. -/
theorem rooted_references_stay_or_stray :
    Reference.ofEntry "tables" rootedEntry = .ok (.file ⟨"5", "t-0", some "F.rf"⟩) ∧
      ["5", "t-0", "F.rf"] = "5" :: segments rootedEntry.qualifierPath ∧
      Reference.ofEntry "tables" strayEntry = .ok (.file ⟨"4", "t-0", some "F.rf"⟩) ∧
      ∃ before, segments strayEntry.qualifierPath = before ++ ["tables", "4", "t-0", "F.rf"] := by
  have plain : Plain "5" := ⟨by decide, by decide, by decide⟩
  have stays : Reference.ofEntry "tables" rootedEntry =
      .ok (.file ⟨"5", "t-0", some "F.rf"⟩) := by
    decide +kernel
  obtain ⟨file, -⟩ := rooted_reference_stays_unless_scheme "tables" rootedEntry "5"
    (by decide +kernel) plain (by decide) _ stays
  obtain ⟨strayFile, -⟩ := rooted_reference_stays_unless_scheme "tables" strayEntry "5"
    (by decide +kernel) plain (by decide) _ ofEntry_strayEntry
  refine ⟨stays, (file (by decide) (by decide +kernel)).1.mpr (by decide +kernel),
    ofEntry_strayEntry, (strayFile (by decide) (by decide +kernel)).2 (by decide +kernel)⟩

end TabletSweep
