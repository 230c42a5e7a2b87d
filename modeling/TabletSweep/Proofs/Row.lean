import Mathlib.Data.List.TakeWhile
import Mathlib.Logic.Basic
import Mathlib.Logic.ExistsUnique
import Mathlib.Logic.Function.Basic
import TabletSweep.Proofs.Contiguous
import TabletSweep.Reference

/-!
# Rows as names of tablets

A row is the id of a table and then a tail: `;` and an end row, or `<` (`ofTablet_eq`). An id
without marks is cut off at the first mark, so a row tells its tablet (`ofTablet_inj`), and the rows
with a table id are those of tablets with an end row and those that start with the row of a last
tablet (`row_tells_its_tablet`).

The two marks are neighbours among the characters, and therefore a text between two rows of a table
is a row of that table (`exists_ofTablet_of_between`, `table?_of_between`). So the rows of a table stand together in
every sorted list, in the order of the end rows and with that of the last tablet at the end
(`rows_keep_tablet_order`).
-/

namespace TabletSweep

namespace Row

variable {table table' row : String} {tablet tablet' : Option String}

/-- A text without the marks that end the table id of a row. -/
def Unmarked (table : String) : Prop := ';' ∉ table.toList ∧ '<' ∉ table.toList

/-- What stands behind the table id in the row of a tablet. -/
def tail : Option String → String
  | some endRow => ";" ++ endRow
  | none => "<"

theorem isMark_iff {c : Char} : isMark c = true ↔ c = ';' ∨ c = '<' := by simp [isMark]

theorem unmarked_iff : Unmarked table ↔ ∀ c ∈ table.toList, isMark c = false := by
  constructor
  · rintro ⟨separator, marker⟩ c hc
    rw [← Bool.not_eq_true, isMark_iff]
    rintro (rfl | rfl)
    · exact separator hc
    · exact marker hc
  · intro free
    constructor
    · intro separator
      cases free _ separator
    · intro marker
      cases free _ marker

theorem ofTablet_eq (table : String) (tablet : Option String) :
    ofTablet table tablet = table ++ tail tablet := by
  cases tablet with
  | none => rfl
  | some endRow => exact String.append_assoc ..

theorem toList_tail_some (endRow : String) : (tail (some endRow)).toList = ';' :: endRow.toList := by
  simp [tail]

theorem toList_tail_none : (tail none).toList = ['<'] := rfl

theorem toList_tail (tablet : Option String) :
    ∃ mark rest, isMark mark = true ∧ (tail tablet).toList = mark :: rest := by
  cases tablet with
  | none => exact ⟨'<', [], rfl, toList_tail_none⟩
  | some endRow => exact ⟨';', endRow.toList, rfl, toList_tail_some endRow⟩

theorem tail_injective : Function.Injective tail := by
  rintro (_ | endRow) (_ | endRow') same
  all_goals have chars := congrArg String.toList same
  · rfl
  · rw [toList_tail_none, toList_tail_some] at chars
    cases chars
  · rw [toList_tail_none, toList_tail_some] at chars
    cases chars
  · rw [toList_tail_some, toList_tail_some] at chars
    rw [String.toList_inj.mp (List.cons.inj chars).2]

/-! ## Reading back -/

/-- An unmarked id is what stands before the first mark of a row. -/
theorem takeWhile_ofTablet (unmarked : Unmarked table) (tablet : Option String) :
    (ofTablet table tablet).toList.takeWhile (!isMark ·) = table.toList := by
  obtain ⟨mark, rest, hmark, htail⟩ := toList_tail tablet
  rw [ofTablet_eq, String.toList_append, htail,
    List.takeWhile_append_of_pos (by simpa using unmarked_iff.mp unmarked)]
  simp [hmark]

/-- A row tells its table and its end row, or that it has none. -/
theorem ofTablet_inj (unmarked : Unmarked table) (unmarked' : Unmarked table') :
    ofTablet table tablet = ofTablet table' tablet' ↔ table = table' ∧ tablet = tablet' := by
  refine ⟨fun same => ?_, fun ⟨same, same'⟩ => same ▸ same' ▸ rfl⟩
  have ids := takeWhile_ofTablet unmarked tablet
  rw [same, takeWhile_ofTablet unmarked'] at ids
  obtain rfl := String.toList_inj.mp ids
  rw [ofTablet_eq, ofTablet_eq] at same
  refine ⟨rfl, tail_injective ?_⟩
  simpa [← String.toList_inj] using same

theorem toList_ofTablet_some (table endRow : String) :
    (ofTablet table (some endRow)).toList = table.toList ++ ';' :: endRow.toList := by
  rw [ofTablet_eq, String.toList_append, toList_tail_some]

theorem toList_ofTablet_none (table : String) :
    (ofTablet table none).toList = table.toList ++ ['<'] := by
  rw [ofTablet_eq, String.toList_append, toList_tail_none]

/-- A row goes on with an end row if `;` stands behind the id. -/
theorem existsUnique_endRow_iff :
    (∃! endRow, row = ofTablet table (some endRow)) ↔
      ∃ rest, row.toList = table.toList ++ ';' :: rest := by
  constructor
  · rintro ⟨endRow, rfl, -⟩
    exact ⟨endRow.toList, toList_ofTablet_some table endRow⟩
  · rintro ⟨rest, split⟩
    have same : row = ofTablet table (some (String.ofList rest)) := by
      rw [← String.toList_inj, split, toList_ofTablet_some, String.toList_ofList]
    refine ⟨String.ofList rest, same, fun endRow same' => ?_⟩
    rw [same', ofTablet_eq, ofTablet_eq, ← String.toList_inj, String.toList_append,
      String.toList_append, List.append_right_inj, String.toList_inj] at same
    exact Option.some.inj (tail_injective same)

/-- A row starts with that of a last tablet if `<` stands behind the id. -/
theorem ofTablet_none_prefix_iff :
    (ofTablet table none).toList <+: row.toList ↔
      ∃ rest, row.toList = table.toList ++ '<' :: rest := by
  simp [toList_ofTablet_none, List.IsPrefix, eq_comm]

/-- What stands behind the id is either an end row or the marker of the last tablet. -/
theorem exists_mark_iff_xor :
    (∃ mark rest, isMark mark = true ∧ row.toList = table.toList ++ mark :: rest) ↔
      Xor (∃! endRow, row = ofTablet table (some endRow))
        ((ofTablet table none).toList <+: row.toList) := by
  rw [existsUnique_endRow_iff, ofTablet_none_prefix_iff]
  have apart : ∀ rest rest', row.toList = table.toList ++ ';' :: rest →
      row.toList ≠ table.toList ++ '<' :: rest' := by
    intro rest rest' split split'
    have marks := List.append_cancel_left (split.symm.trans split')
    cases marks
  constructor
  · rintro ⟨mark, rest, hmark, split⟩
    rcases isMark_iff.mp hmark with rfl | rfl
    · exact .inl ⟨⟨rest, split⟩, fun ⟨rest', split'⟩ => apart rest rest' split split'⟩
    · exact .inr ⟨⟨rest, split⟩, fun ⟨rest', split'⟩ => apart rest' rest split' split⟩
  · rintro (⟨⟨rest, split⟩, -⟩ | ⟨⟨rest, split⟩, -⟩)
    · exact ⟨';', rest, rfl, split⟩
    · exact ⟨'<', rest, rfl, split⟩

/-- A row has no table id if it has no mark or starts with one. -/
theorem table?_eq_none_iff :
    table? row = none ↔ (';' ∉ row.toList ∧ '<' ∉ row.toList) ∨
      row.toList.head? = some ';' ∨ row.toList.head? = some '<' := by
  have unmarked : row.toList.dropWhile (!isMark ·) = [] ↔ ';' ∉ row.toList ∧ '<' ∉ row.toList := by
    rw [List.dropWhile_eq_nil_iff, ← Unmarked, unmarked_iff]
    simp only [Bool.not_eq_true']
  have first : row.toList.takeWhile (!isMark ·) = [] ∧ row.toList ≠ [] ↔
      row.toList.head? = some ';' ∨ row.toList.head? = some '<' := by
    cases row.toList with
    | nil => simp
    | cons c cs => simp [List.takeWhile_cons, isMark_iff]
  rw [← unmarked, ← first]
  have refused : table? row = none ↔ row.toList.takeWhile (!isMark ·) = [] ∨
      row.toList.dropWhile (!isMark ·) = [] := by
    simp only [table?, ite_eq_left_iff, reduceCtorEq, imp_false, not_not]
  rw [refused]
  constructor
  · rintro (none | none)
    · by_cases empty : row.toList = []
      · exact .inl (by rw [empty, List.dropWhile_nil])
      · exact .inr ⟨none, empty⟩
    · exact .inl none
  · rintro (none | ⟨none, -⟩)
    · exact .inr none
    · exact .inl none

/-- The row of a tablet tells its table and its end row. A row with a table id is that of a tablet
with one end row or starts with the row of the last tablet, but never both, and the only error is of
a row that has no mark or starts with one. -/
theorem row_tells_its_tablet :
    (∀ table tablet, table ≠ "" → Unmarked table →
        table? (ofTablet table tablet) = some table) ∧
      (∀ table tablet table' tablet', table ≠ "" → Unmarked table → table' ≠ "" →
        Unmarked table' → (ofTablet table tablet = ofTablet table' tablet' ↔
          table = table' ∧ tablet = tablet')) ∧
      (∀ row table, table? row = some table ↔ table ≠ "" ∧ Unmarked table ∧
        Xor (∃! endRow, row = ofTablet table (some endRow))
          ((ofTablet table none).toList <+: row.toList)) ∧
      ∀ e : Entry, (∀ table, e.owner = .ok table ↔ table? e.row = some table) ∧
        ∀ error, e.owner = .error error ↔ error = .noTable e.row ∧
          ((';' ∉ e.row.toList ∧ '<' ∉ e.row.toList) ∨
            e.row.toList.head? = some ';' ∨ e.row.toList.head? = some '<') := by
  refine ⟨fun table tablet some unmarked => table?_ofTablet some (unmarked_iff.mp unmarked) tablet,
    fun table tablet table' tablet' _ unmarked _ unmarked' => ofTablet_inj unmarked unmarked',
    fun row table => ?_, fun e => ⟨fun table => ?_, fun error => ?_⟩⟩
  · rw [table?_eq_some_iff, unmarked_iff, exists_mark_iff_xor]
  · cases read : table? e.row <;> simp [Entry.owner, read]
  · rw [← table?_eq_none_iff]
    cases read : table? e.row <;> simp [Entry.owner, read, eq_comm]

/-- An end row with marks of its own is read back behind the first mark, and told apart from that of
the last tablet. A text that goes on behind the row of a last tablet still tells the table. -/
theorem marked_end_row_reads_back :
    table? (ofTablet "7" (some "a;b<c")) = some "7" ∧
      ofTablet "7" (some "<") ≠ ofTablet "7" none ∧ table? "7<a;b" = some "7" := by
  obtain ⟨reads, inj, told, -⟩ := row_tells_its_tablet
  have unmarked : Unmarked "7" := ⟨by decide, by decide⟩
  refine ⟨reads "7" _ (by decide) unmarked, fun same => ?_, (told "7<a;b" "7").mpr ?_⟩
  · cases ((inj "7" _ "7" _ (by decide) unmarked (by decide) unmarked).mp same).2
  · refine ⟨by decide, unmarked, exists_mark_iff_xor.mp ?_⟩
    exact ⟨'<', ['a', ';', 'b'], rfl, by decide⟩

/-! ## The order of rows -/

theorem compare_eq_lt_iff {a b : String} : compare a b = .lt ↔ a < b := compareOfLessAndEq_eq_lt

theorem isLE_compare_iff {a b : String} : (compare a b).isLE = true ↔ a ≤ b := by
  rw [Ordering.isLE_iff_ne_gt, Std.OrientedCmp.gt_iff_lt, compare_eq_lt_iff, String.not_lt]

theorem append_lt_append {start a b : String} (h : a < b) : start ++ a < start ++ b := by
  rw [String.lt_iff, String.toList_append, String.toList_append]
  exact List.append_left_lt (String.lt_iff.mp h)

/-- A start that two texts share does not count in their order. -/
theorem compare_append (start a b : String) : compare (start ++ a) (start ++ b) = compare a b := by
  cases order : compare a b with
  | lt => exact compare_eq_lt_iff.mpr (append_lt_append (compare_eq_lt_iff.mp order))
  | eq =>
    obtain rfl := Std.LawfulEqOrd.eq_of_compare order
    exact Std.ReflOrd.compare_self
  | gt =>
    rw [Std.OrientedCmp.gt_iff_lt, compare_eq_lt_iff] at order ⊢
    exact append_lt_append order

theorem append_le_append_iff {start a b : String} : start ++ a ≤ start ++ b ↔ a ≤ b := by
  rw [← isLE_compare_iff, compare_append, isLE_compare_iff]

/-- What stands between two lists with the same start has that start. -/
theorem exists_append_of_between {start low high cs : List Char} (above : ¬cs < start ++ low)
    (below : ¬start ++ high < cs) : ∃ rest, cs = start ++ rest := by
  induction start generalizing cs with
  | nil => exact ⟨cs, rfl⟩
  | cons c start ih =>
    cases cs with
    | nil => exact absurd (List.nil_lt_cons c (start ++ low)) above
    | cons d cs =>
      rw [List.cons_append, List.cons_lt_cons_iff, not_or] at above below
      obtain rfl : c = d := Char.le_antisymm (Char.not_lt.mp above.1) (Char.not_lt.mp below.1)
      obtain ⟨rest, rfl⟩ := ih (fun h => above.2 ⟨rfl, h⟩) fun h => below.2 ⟨rfl, h⟩
      exact ⟨rest, rfl⟩

/-- No character stands between the two marks. -/
theorem isMark_of_between {low high c : Char} (hlow : isMark low = true)
    (hhigh : isMark high = true) (above : ¬c < low) (below : ¬high < c) : isMark c = true := by
  rw [isMark_iff, ← Char.toNat_inj, ← Char.toNat_inj] at *
  rw [Char.lt_def, UInt32.lt_iff_toNat_lt] at above below
  change low.toNat = 59 ∨ low.toNat = 60 at hlow
  change high.toNat = 59 ∨ high.toNat = 60 at hhigh
  change ¬c.toNat < low.toNat at above
  change ¬high.toNat < c.toNat at below
  change c.toNat = 59 ∨ c.toNat = 60
  omega

/-- The tails are the texts from the one mark to the other. -/
theorem exists_tail_iff {x : String} : (∃ tablet, x = tail tablet) ↔ ";" ≤ x ∧ x ≤ "<" := by
  rw [← String.not_lt, ← String.not_lt, String.lt_iff, String.lt_iff]
  change _ ↔ ¬x.toList < [';'] ∧ ¬['<'] < x.toList
  constructor
  · rintro ⟨_ | endRow, rfl⟩
    · rw [toList_tail_none]
      decide
    · rw [toList_tail_some, List.cons_lt_cons_iff, List.cons_lt_cons_iff]
      simp
  · rintro ⟨above, below⟩
    cases hx : x.toList with
    | nil =>
      rw [hx] at above
      exact absurd (List.nil_lt_cons ';' []) above
    | cons c cs =>
      rw [hx, List.cons_lt_cons_iff, not_or] at above below
      rcases isMark_iff.mp (isMark_of_between rfl rfl above.1 below.1) with rfl | rfl
      · refine ⟨some (String.ofList cs), ?_⟩
        rw [← String.toList_inj, hx, toList_tail_some, String.toList_ofList]
      · refine ⟨none, ?_⟩
        have ends : cs = [] := by
          cases cs with
          | nil => rfl
          | cons d cs => exact absurd ⟨rfl, List.nil_lt_cons d cs⟩ below.2
        rw [← String.toList_inj, hx, toList_tail_none, ends]

/-- A text between two rows of a table is a row of that table. -/
theorem exists_ofTablet_of_between (above : ofTablet table tablet ≤ row)
    (below : row ≤ ofTablet table tablet') : ∃ tablet, row = ofTablet table tablet := by
  rw [ofTablet_eq] at above below
  obtain ⟨rest, split⟩ : ∃ rest, row.toList = table.toList ++ rest := by
    apply exists_append_of_between
    · rwa [← String.toList_append, ← String.lt_iff, String.not_lt]
    · rwa [← String.toList_append, ← String.lt_iff, String.not_lt]
  obtain rfl : row = table ++ String.ofList rest := by
    rw [← String.toList_inj, split, String.toList_append, String.toList_ofList]
  rw [append_le_append_iff] at above below
  obtain ⟨low, -⟩ := exists_tail_iff.mp ⟨tablet, rfl⟩
  obtain ⟨-, high⟩ := exists_tail_iff.mp ⟨tablet', rfl⟩
  obtain ⟨between, htail⟩ :=
    exists_tail_iff.mpr ⟨String.le_trans low above, String.le_trans below high⟩
  exact ⟨between, by rw [ofTablet_eq, htail]⟩

/-- The rows of a table are ordered by their end rows. -/
theorem compare_ofTablet_some (table endRow endRow' : String) :
    compare (ofTablet table (some endRow)) (ofTablet table (some endRow')) =
      compare endRow endRow' := by
  rw [ofTablet_eq, ofTablet_eq, compare_append]
  exact compare_append ..

/-- The row of the last tablet of a table comes after all others. -/
theorem compare_ofTablet_none (table endRow : String) :
    compare (ofTablet table none) (ofTablet table (some endRow)) = .gt := by
  rw [ofTablet_eq, ofTablet_eq, compare_append, Std.OrientedCmp.gt_iff_lt, compare_eq_lt_iff,
    String.lt_iff, toList_tail_some, toList_tail_none]
  exact List.Lex.rel (by decide)

/-- A text between two rows that tell the same table tells it as well. -/
theorem table?_of_between {low high : String} (hlow : table? low = some table)
    (hhigh : table? high = some table) (above : low ≤ row) (below : row ≤ high) :
    table? row = some table := by
  obtain ⟨some, unmarked, mark, rest, hmark, splitLow⟩ := table?_eq_some_iff.mp hlow
  obtain ⟨-, -, mark', rest', hmark', splitHigh⟩ := table?_eq_some_iff.mp hhigh
  rw [← String.not_lt, String.lt_iff, splitLow] at above
  rw [← String.not_lt, String.lt_iff, splitHigh] at below
  obtain ⟨cs, split⟩ := exists_append_of_between above below
  rw [split] at above below
  have above := mt List.append_left_lt above
  have below := mt List.append_left_lt below
  refine table?_eq_some_iff.mpr ⟨some, unmarked, ?_⟩
  cases cs with
  | nil => exact absurd (List.nil_lt_cons mark rest) above
  | cons c cs =>
    rw [List.cons_lt_cons_iff, not_or] at above below
    exact ⟨c, cs, isMark_of_between hmark hmark' above.1 below.1, split⟩

end Row

/-! ## Sorted entries -/

namespace Entry

instance : Std.TransOrd Entry :=
  inferInstanceAs (Std.TransCmp (compareLex (compareOn row) (compareLex (compareOn family)
    (compareLex (compareOn qualifier) (compareOn value)))))

theorem pairwise_mergeSort (es : List Entry) :
    (es.mergeSort before).Pairwise fun e e' => e.before e' = true := by
  refine List.pairwise_mergeSort (fun _ _ _ => Std.TransCmp.isLE_trans) (fun a b => ?_) es
  exact Bool.or_eq_true_iff.mpr (isLE_total a b)

theorem row_le_of_before {e e' : Entry} (h : e.before e' = true) : e.row ≤ e'.row := by
  rw [← Row.isLE_compare_iff]
  exact (Ordering.isLE_then_iff_and.mp h).1

end Entry

namespace Row

theorem contiguous_tablets_sort (es : List Entry) (table : String) :
    Contiguous (fun e => ∃ tablet, e.row = ofTablet table tablet) (es.mergeSort Entry.before) := by
  refine contiguous_of_pairwise (Entry.pairwise_mergeSort es) fun a b c before after => ?_
  rintro ⟨low, hlow⟩ ⟨high, hhigh⟩
  exact exists_ofTablet_of_between (hlow ▸ Entry.row_le_of_before before)
    (hhigh ▸ Entry.row_le_of_before after)

theorem contiguous_table_sort (es : List Entry) (table : String) :
    Contiguous (fun e => table? e.row = some table) (es.mergeSort Entry.before) :=
  contiguous_of_pairwise (Entry.pairwise_mergeSort es) fun _ _ _ before after low high =>
    table?_of_between low high (Entry.row_le_of_before before) (Entry.row_le_of_before after)

/-- In sorted entries nothing of a tablet with an end row stands behind the last tablet. -/
theorem pairwise_last_sort (es : List Entry) (table : String) :
    (es.mergeSort Entry.before).Pairwise fun e e' =>
      e.row = ofTablet table none → ∀ endRow, e'.row ≠ ofTablet table (some endRow) := by
  refine (Entry.pairwise_mergeSort es).imp fun {e e'} before last endRow inner => ?_
  have ordered := isLE_compare_iff.mpr (Entry.row_le_of_before before)
  rw [last, inner, compare_ofTablet_none] at ordered
  cases ordered

/-- The rows of a table are ordered by their end rows, that of the last tablet comes after them, and
no row of another table stands between two of them. So sorted entries have those of each table
together, with those of the last tablet at the end. -/
theorem rows_keep_tablet_order :
    (∀ table endRow endRow',
        compare (ofTablet table (some endRow)) (ofTablet table (some endRow')) =
          compare endRow endRow') ∧
      (∀ table endRow, compare (ofTablet table none) (ofTablet table (some endRow)) = .gt) ∧
      (∀ table table' low tablet high, Unmarked table → Unmarked table' →
        (compare (ofTablet table low) (ofTablet table' tablet)).isLE = true →
        (compare (ofTablet table' tablet) (ofTablet table high)).isLE = true → table' = table) ∧
      ∀ (es : List Entry) table,
        Contiguous (fun e => ∃ tablet, e.row = ofTablet table tablet)
            (es.mergeSort Entry.before) ∧
          Contiguous (fun e => table? e.row = some table) (es.mergeSort Entry.before) ∧
          (es.mergeSort Entry.before).Pairwise fun e e' =>
            e.row = ofTablet table none → ∀ endRow, e'.row ≠ ofTablet table (some endRow) := by
  refine ⟨compare_ofTablet_some, compare_ofTablet_none, ?_, fun es table =>
    ⟨contiguous_tablets_sort es table, contiguous_table_sort es table,
      pairwise_last_sort es table⟩⟩
  intro table table' low tablet high unmarked unmarked' above below
  obtain ⟨own, same⟩ := exists_ofTablet_of_between (isLE_compare_iff.mp above)
    (isLE_compare_iff.mp below)
  exact ((ofTablet_inj unmarked' unmarked).mp same).1

/-- Tables with ids that start alike keep their rows apart: the rows of `44` and `4-` stand before
those of `4`, and what stands between two rows of `4` is of `4`. -/
theorem like_ids_stay_apart :
    (compare (ofTablet "4-" none) (ofTablet "44" none)).isLE = true ∧
      (compare (ofTablet "44" none) (ofTablet "4" (some ""))).isLE = true ∧
      ∃ table, Unmarked table ∧
        (compare (ofTablet "4" (some "a")) (ofTablet table (some "m"))).isLE = true ∧
        (compare (ofTablet table (some "m")) (ofTablet "4" none)).isLE = true ∧ table = "4" := by
  have unmarked : Unmarked "4" := ⟨by decide, by decide⟩
  have above : (compare (ofTablet "4" (some "a")) (ofTablet "4" (some "m"))).isLE = true := by
    decide
  have below : (compare (ofTablet "4" (some "m")) (ofTablet "4" none)).isLE = true := by decide
  obtain ⟨-, -, apart, -⟩ := rows_keep_tablet_order
  exact ⟨by decide, by decide, "4", unmarked, above, below,
    apart "4" "4" _ _ _ unmarked unmarked above below⟩

end Row

end TabletSweep
