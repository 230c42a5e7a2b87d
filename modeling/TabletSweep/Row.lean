/-!
# Rows of tablets

A tablet is addressed in the metadata by a row: the id of its table, then `;` and the tablet's end
row, or `<` for the last tablet of the table, which has no end row. The table id ends at the first
of the two marks, so an end row may be any text.

Main statements: a row names a table exactly when it is a non-empty id without marks followed by a
mark (`table?_eq_some_iff`), so a table is read back from any row it was put into
(`table?_ofTablet`).
-/

namespace TabletSweep.Row

/-- Whether the character ends the table id of a row. -/
def isMark (c : Char) : Bool := c = ';' || c = '<'

/-- The row of the tablet of a table that has the given end row, or of its last tablet. -/
def ofTablet (table : String) : Option String → String
  | some endRow => table ++ ";" ++ endRow
  | none => table ++ "<"

/-- The table that a row belongs to: the text before the first mark, which must be there and must
not come first. -/
def table? (row : String) : Option String :=
  let table := row.toList.takeWhile (!isMark ·)
  let rest := row.toList.dropWhile (!isMark ·)
  if table = [] ∨ rest = [] then none else some (String.ofList table)

theorem table?_eq_some_iff {row table : String} :
    table? row = some table ↔
      table ≠ "" ∧ (∀ c ∈ table.toList, isMark c = false) ∧
        ∃ mark rest, isMark mark = true ∧ row.toList = table.toList ++ mark :: rest := by
  constructor
  · intro h
    simp only [table?] at h
    split at h
    · cases h
    rename_i hparts
    obtain ⟨hne, hrest⟩ := not_or.mp hparts
    obtain rfl := Option.some.inj h
    obtain ⟨m, rest, hr⟩ := List.exists_cons_of_ne_nil hrest
    refine ⟨by simpa using hne, fun c hc => ?_, m, rest, ?_, ?_⟩
    · rw [String.toList_ofList] at hc
      simpa using List.all_eq_true.mp List.all_takeWhile c hc
    · have := List.head?_dropWhile_not (!isMark ·) row.toList
      rw [hr] at this
      simpa using this
    · rw [String.toList_ofList, ← hr, List.takeWhile_append_dropWhile]
  · rintro ⟨hne, hfree, m, rest, hm, hrow⟩
    have htake : row.toList.takeWhile (!isMark ·) = table.toList := by
      rw [hrow, List.takeWhile_append_of_pos (by simpa using hfree)]
      simp [hm]
    have hdrop : row.toList.dropWhile (!isMark ·) = m :: rest := by
      rw [hrow, List.dropWhile_append_of_pos (by simpa using hfree)]
      simp [hm]
    simp [table?, htake, hdrop, hne]

/-- A table id without the marks is read back from every row it is put into. -/
theorem table?_ofTablet {table : String} (hne : table ≠ "")
    (hfree : ∀ c ∈ table.toList, isMark c = false) (endRow : Option String) :
    table? (ofTablet table endRow) = some table := by
  refine table?_eq_some_iff.mpr ⟨hne, hfree, ?_⟩
  cases endRow with
  | none => exact ⟨'<', [], rfl, by simp [ofTablet]⟩
  | some e => exact ⟨';', e.toList, rfl, by simp [ofTablet]⟩

end TabletSweep.Row
