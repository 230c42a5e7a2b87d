import TabletSweep.Proofs.Key.Spellings

/-!
# Reading the text of a key

The text of a key is its components with slashes between them. Since the components of a key that
was read from a path are plain names, they are the segments of its text (`segments_text`). So the
text tells the key (`text_inj`), and spells it out wherever the reader takes segments for a key:
behind the tables directory and a scheme, and, unless a component has a colon, behind a slash or
`../` and by itself (`written_absolute_text`, `written_slash_text`, `written_step_text`,
`written_text`).
-/

namespace TabletSweep

variable {tablesDir path : String} {shape : Shape} {k k' : Key}

namespace Key

/-- The components of a key are names that can stand in a path. -/
def IsPlain (k : Key) : Prop := ∀ name ∈ k.components, Plain name

theorem isPlain_of_ofPath (h : ofPath tablesDir shape path = .ok k) : k.IsPlain :=
  fun _ => plain_of_ofPath h

theorem components_injective : Function.Injective components := by
  rintro ⟨table, tablet, file⟩ ⟨table', tablet', file'⟩ h
  cases file <;> cases file' <;> simp_all [components]

/-! ## What the text tells -/

/-- The text of a key with its file, if any, behind its directory. -/
theorem text_eq (k : Key) :
    k.text = k.file.elim k.directory.text fun file => k.directory.text ++ "/" ++ file := by
  rcases k with ⟨table, tablet, _ | file⟩ <;> rfl

/-- The components of a key are the segments of its text. -/
theorem segments_text (plain : k.IsPlain) : segments k.text = k.components := by
  have directory : segments k.directory.text = [k.table, k.tablet] := by
    have table : Plain k.table := plain _ (by simp [components])
    have tablet : Plain k.tablet := plain _ (by simp [components])
    show segments (k.table ++ "/" ++ k.tablet) = _
    rw [segments_append_slash, table.segments_eq, tablet.segments_eq]
    rfl
  rw [text_eq, components]
  cases hfile : k.file with
  | none => exact directory
  | some file =>
    have named : Plain file := plain _ (by simp [components, hfile])
    show segments (k.directory.text ++ "/" ++ file) = _
    rw [segments_append_slash, directory, named.segments_eq]
    rfl

theorem text_inj (plain : k.IsPlain) (plain' : k'.IsPlain) : k.text = k'.text ↔ k = k' := by
  refine ⟨fun same => ?_, congrArg text⟩
  apply components_injective
  rw [← segments_text plain, ← segments_text plain', same]

/-- The text of a key has a colon only if a component has. -/
theorem colon_mem_text : ':' ∈ k.text.toList ↔ ∃ name ∈ k.components, ':' ∈ name.toList := by
  rcases k with ⟨table, tablet, _ | file⟩ <;> simp [text, components]

/-- The text of a key does not start with a step to the upper directory. -/
theorem text_ne_step (plain : k.IsPlain) (rest : String) : k.text ≠ "../" ++ rest := by
  intro h
  have names := segments_text plain
  have step : segments ("../" ++ rest) = ".." :: segments rest := segments_append_slash ".." rest
  rw [h, step, components] at names
  have table : Plain k.table := plain _ (by simp [components])
  exact table.ne_dots.2 (List.cons.inj names).1.symm

/-! ## Paths made of the text -/

section Written

variable (plain : k.IsPlain)
include plain

/-- Behind a scheme and the tables directory the text of a key spells out that key, even if the
table has the name of the tables directory too. -/
theorem written_absolute_text (tables : segments tablesDir = [tablesDir]) :
    Written tablesDir shape ("x:/" ++ tablesDir ++ "/" ++ k.text) k := by
  have names : segments ("x:" ++ "/" ++ tablesDir ++ "/" ++ k.text) =
      ["x:"] ++ tablesDir :: k.components := by
    rw [segments_append_slash, segments_append_slash, tables, segments_text plain]
    rfl
  exact .absolute ["x:"] (by simp) (by simp) names fun _ _ => .inl rfl

variable (relative : ∀ name ∈ k.components, ':' ∉ name.toList)
include relative

theorem written_slash_text : Written tablesDir shape ("/" ++ k.text) k := by
  have colonless : ':' ∉ ("/" ++ k.text).toList := by
    simpa [colon_mem_text] using relative
  refine .relative colonless (fun rest h => ?_) ?_
  · have heads := congrArg (·.toList.head?) h
    simp at heads
  · rw [segments_slash_append, segments_text plain]

theorem written_step_text : Written tablesDir shape ("../" ++ k.text) k := by
  have colonless : ':' ∉ ("../" ++ k.text).toList := by
    simpa [colon_mem_text] using relative
  exact .afterParentStep k.text colonless rfl (segments_text plain)

theorem written_text : Written tablesDir shape k.text k := by
  have colonless : ':' ∉ k.text.toList := by
    simpa [colon_mem_text] using relative
  exact .relative colonless (text_ne_step plain) (segments_text plain)

end Written

/-- What is read as a key has plain components, and its text is read as that key again: behind a
scheme and the tables directory, and, if no component has a colon, behind a slash, behind `../` and
by itself. Keys that were read are equal if their texts are. -/
theorem text_reads_back (nonempty : tablesDir ≠ "") (slashless : '/' ∉ tablesDir.toList)
    (read : ofPath tablesDir shape path = .ok k) :
    (∀ name ∈ k.components, name ≠ "" ∧ '/' ∉ name.toList ∧ name ≠ "." ∧ name ≠ "..") ∧
      ofPath tablesDir .any ("x:/" ++ tablesDir ++ "/" ++ k.text) = .ok k ∧
      ((∀ name ∈ k.components, ':' ∉ name.toList) →
        ofPath tablesDir .any ("/" ++ k.text) = .ok k ∧
          ofPath tablesDir .any ("../" ++ k.text) = .ok k ∧
          ofPath tablesDir .any k.text = .ok k) ∧
      ∀ tablesDir' shape' path' k', ofPath tablesDir' shape' path' = .ok k' →
        k.text = k'.text → k = k' := by
  have plain := isPlain_of_ofPath read
  have tables := segments_of_plain nonempty slashless
  have reads {path : String} (written : Written tablesDir .any path k) :
      ofPath tablesDir .any path = .ok k :=
    ofPath_eq_ok_iff_spells.mpr (spells_of_plain plain trivial written)
  refine ⟨fun name mem => ?_, ?_, fun relative => ⟨?_, ?_, ?_⟩, ?_⟩
  · have named := plain name mem
    exact ⟨named.ne_empty, named.no_slash, named.ne_dots⟩
  · exact reads (written_absolute_text plain tables)
  · exact reads (written_slash_text plain relative)
  · exact reads (written_step_text plain relative)
  · exact reads (written_text plain relative)
  · intro tablesDir' shape' path' k' read' same
    exact (text_inj plain (isPlain_of_ofPath read')).mp same

/-- A directory of a table that has the name of the tables directory is read back from its text. -/
theorem text_of_namesake_reads_back :
    ofPath "tables" .any "hdfs://nn/tables//tables/t-0/" = .ok ⟨"tables", "t-0", none⟩ ∧
      ofPath "tables" .any "x:/tables/tables/t-0" = .ok ⟨"tables", "t-0", none⟩ ∧
      ofPath "tables" .any "../tables/t-0" = .ok ⟨"tables", "t-0", none⟩ ∧
      ∀ shape path k, ofPath "tables" shape path = .ok k → k.text = "tables/t-0" →
        k.isDirectory = true := by
  have read : ofPath "tables" .any "hdfs://nn/tables//tables/t-0/" =
      .ok ⟨"tables", "t-0", none⟩ := by
    rfl
  obtain ⟨-, absolute, relative, told⟩ := text_reads_back (by decide) (by decide) read
  refine ⟨read, absolute, (relative (by decide)).2.1, fun shape path k read' same => ?_⟩
  rw [← told _ _ _ _ read' same.symm]
  rfl

end Key

end TabletSweep
