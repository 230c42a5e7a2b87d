import TabletSweep.Key
import TabletSweep.Proofs.Contiguous

/-!
# The order of keys

Keys are compared by table, then by tablet, then by file, where no file comes first. That is a total
order. The table and the tablet directory of a key never go down along it (`table_mono`,
`directory_mono`), so in sorted keys a table's keys stand together, and so do those of a tablet
directory, which comes before the files in it (`order_keeps_directories_together`). The text of keys
has no such order: its slashes are compared with the characters of the names.
-/

namespace TabletSweep.Key

variable {a b c : Key} {keys : List Key}

instance : Std.TransOrd Key :=
  inferInstanceAs (Std.TransCmp (compareLex (compareOn table)
    (compareLex (compareOn tablet) (compareOn file))))

instance : Std.LawfulEqOrd Key where
  eq_of_compare {a b} same := by
    obtain ⟨table, rest⟩ := Ordering.then_eq_eq.mp same
    obtain ⟨tablet, file⟩ := Ordering.then_eq_eq.mp rest
    cases a
    cases b
    cases Std.LawfulEqOrd.eq_of_compare table
    cases Std.LawfulEqOrd.eq_of_compare tablet
    cases Std.LawfulEqOrd.eq_of_compare file
    rfl

theorem before_trans (hab : a.before b = true) (hbc : b.before c = true) : a.before c = true :=
  Std.TransCmp.isLE_trans hab hbc

theorem before_antisymm (hab : a.before b = true) (hba : b.before a = true) : a = b :=
  Std.LawfulEqOrd.eq_of_compare (Std.OrientedCmp.isLE_antisymm hab hba)

theorem before_total (a b : Key) : a.before b = true ∨ b.before a = true := isLE_total a b

/-- The tables of two keys are in the order of the keys. -/
theorem table_mono (h : a.before b = true) : (compare a.table b.table).isLE = true :=
  (Ordering.isLE_then_iff_and.mp h).1

/-- The directories of two keys are in the order of the keys. -/
theorem directory_mono (h : a.before b = true) : a.directory.before b.directory = true := by
  obtain ⟨table, rest⟩ := Ordering.isLE_then_iff_and.mp h
  refine Ordering.isLE_then_iff_and.mpr ⟨table, rest.imp_right fun rest => ?_⟩
  obtain ⟨tablet, -⟩ := Ordering.isLE_then_iff_and.mp rest
  exact Ordering.isLE_then_iff_and.mpr ⟨tablet, .inr rfl⟩

/-- A directory that two keys have in common does not count in their order. -/
theorem compare_inside (table tablet : String) (file file' : Option String) :
    compare (Key.mk table tablet file) ⟨table, tablet, file'⟩ = compare file file' := by
  change (compare table table).then ((compare tablet tablet).then (compare file file')) = _
  rw [Std.ReflOrd.compare_self, Std.ReflOrd.compare_self]
  rfl

/-- A file does not come before its directory, whatever its name. -/
theorem not_before_directory (table tablet file : String) :
    before ⟨table, tablet, some file⟩ ⟨table, tablet, none⟩ = false := by
  rw [before, compare_inside]
  rfl

section Sorted

variable (sorted : keys.Pairwise fun a b => a.before b = true)
include sorted

theorem contiguous_table (table : String) : Contiguous (fun k => k.table = table) keys :=
  contiguous_of_monotone sorted (fun _ _ => table_mono) table

theorem contiguous_directory (table tablet : String) :
    Contiguous (fun k => k.table = table ∧ k.tablet = tablet) keys := by
  have together := contiguous_of_monotone sorted (fun _ _ => directory_mono) ⟨table, tablet, none⟩
  simpa only [directory, mk.injEq, and_true] using together

/-- A directory stands in front of the files in it, however often either is listed. -/
theorem directory_first {table tablet file : String} {i j : Nat} (hi : i < keys.length)
    (hj : j < keys.length) (directory : keys[i] = ⟨table, tablet, none⟩)
    (inside : keys[j] = ⟨table, tablet, some file⟩) : i < j := by
  refine Nat.lt_of_not_le fun le => ?_
  obtain lt | rfl := Nat.lt_or_eq_of_le le
  · have ordered := List.pairwise_iff_getElem.mp sorted j i hj hi lt
    rw [directory, inside, not_before_directory] at ordered
    cases ordered
  · rw [directory] at inside
    cases inside

end Sorted

/-- Keys are in a total order, in which only a key itself is equal to it. Sorted keys have those of
each tablet directory together, those of each table together, and a tablet directory in front of the
files in it. -/
theorem order_keeps_directories_together :
    (∀ a b : Key, compare a b = .eq ↔ a = b) ∧
      (∀ a b : Key, a.before b = true ∨ b.before a = true) ∧
      (∀ a b : Key, a.before b = true → b.before a = true → a = b) ∧
      (∀ a b c : Key, a.before b = true → b.before c = true → a.before c = true) ∧
      ∀ keys : List Key, (keys.Pairwise fun a b => a.before b = true) →
        (∀ table tablet, Contiguous (fun k => k.table = table ∧ k.tablet = tablet) keys) ∧
          (∀ table, Contiguous (fun k => k.table = table) keys) ∧
          ∀ table tablet file i j (hi : i < keys.length) (hj : j < keys.length),
            keys[i] = ⟨table, tablet, none⟩ → keys[j] = ⟨table, tablet, some file⟩ → i < j := by
  refine ⟨fun _ _ => Std.LawfulEqOrd.compare_eq_iff_eq, before_total, fun _ _ => before_antisymm,
    fun _ _ _ => before_trans, fun keys sorted => ?_⟩
  exact ⟨contiguous_directory sorted, contiguous_table sorted,
    fun _ _ _ _ _ => directory_first sorted⟩

/-- A directory, its files, a directory and a table whose names go on from there. Their texts would
stand in another order, because `-` comes before the slash. -/
theorem like_named_keys_stay_together :
    let keys : List Key := [⟨"4", "t-0", none⟩, ⟨"4", "t-0", some ""⟩, ⟨"4", "t-0", some "F.rf"⟩,
      ⟨"4", "t-0-1", none⟩, ⟨"4-", "t-0", some "F.rf"⟩]
    (keys.Pairwise fun a b => a.before b = true) ∧
      ¬(keys.map text).Pairwise (fun x y => (compare x y).isLE = true) ∧
      Contiguous (fun k => k.table = "4" ∧ k.tablet = "t-0") keys ∧
      Contiguous (fun k => k.table = "4") keys ∧
      keys[0]? = some ⟨"4", "t-0", none⟩ ∧ keys[1]? = some ⟨"4", "t-0", some ""⟩ ∧ 0 < 1 := by
  intro keys
  have sorted : keys.Pairwise fun a b => a.before b = true := by decide +kernel
  obtain ⟨-, -, -, -, together⟩ := order_keeps_directories_together
  obtain ⟨directories, tables, first⟩ := together keys sorted
  refine ⟨sorted, by decide +kernel, directories "4" "t-0", tables "4", rfl, rfl, ?_⟩
  exact first "4" "t-0" "" 0 1 (by decide) (by decide) rfl rfl

end TabletSweep.Key
