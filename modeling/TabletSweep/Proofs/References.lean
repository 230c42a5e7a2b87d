import Mathlib.Data.List.Basic
import TabletSweep.Proofs.Protection

/-!
# What the references of a scan say about a key

The key of a reference may be of either shape, whatever the reference is to. A key is kept by the
references that have it and, if it is of a directory, by those to a file whose key lies in it
(`keeps_iff`). So a reference to a directory says nothing about the files in it
(`keeps_file_iff`), and one to a file also keeps the directory. A page is cut in what is kept and
what is not, both in the order of the page (`references_keep_keys_and_directories`).
-/

namespace TabletSweep.LiveKeys

variable {rs : List Reference} {key : Key}

/-- A key is kept by the references that have it and by those to a file in it. -/
theorem keeps_iff :
    (ofList rs).keeps key = true ↔
      (∃ r ∈ rs, r.key = key) ∨ ∃ k, .file k ∈ rs ∧ k.directory = key := by
  rw [keeps_ofList]
  constructor
  · rintro ⟨r, hr, same | ⟨k, rfl, same⟩⟩
    · exact .inl ⟨r, hr, same.symm⟩
    · exact .inr ⟨k, hr, same.symm⟩
  · rintro (⟨r, hr, same⟩ | ⟨k, hk, same⟩)
    · exact ⟨r, hr, .inl same.symm⟩
    · exact ⟨.file k, hk, .inr ⟨k, rfl, same.symm⟩⟩

/-- Only the references that have its key keep a file: it is the directory of no key. -/
theorem keeps_file_iff {table tablet file : String} :
    (ofList rs).keeps ⟨table, tablet, some file⟩ = true ↔
      ∃ r ∈ rs, r.key = ⟨table, tablet, some file⟩ := by
  rw [keeps_iff, or_iff_left]
  rintro ⟨k, -, same⟩
  cases congrArg Key.file same

theorem split_eq (live : LiveKeys) (page : List Candidate) :
    live.split page = (page.filter (!live.keeps ·.key), page.filter (live.keeps ·.key)) := by
  rw [split, List.partition_eq_filter_filter]
  simp only [Function.comp_def, Bool.not_not]

/-- Nothing of a page is lost or doubled when it is cut in two. -/
theorem split_perm (live : LiveKeys) (page : List Candidate) :
    ((live.split page).1 ++ (live.split page).2).Perm page := by
  rw [split_eq]
  exact List.perm_append_comm.trans (List.filter_append_perm (live.keeps ·.key) page)

/-- A file is kept by the references with its key, a directory also by those to a file with a key in
it, and a table is reached by the references with a key in it. The candidates of a page that are
kept and those that are not make up the page, each in its order. -/
theorem references_keep_keys_and_directories (rs : List Reference) :
    (∀ table tablet file, (ofList rs).keeps ⟨table, tablet, some file⟩ = true ↔
        ∃ r ∈ rs, r.key = ⟨table, tablet, some file⟩) ∧
      (∀ table tablet, (ofList rs).keeps ⟨table, tablet, none⟩ = true ↔
        (∃ r ∈ rs, r.key = ⟨table, tablet, none⟩) ∨
          ∃ k, .file k ∈ rs ∧ k.directory = ⟨table, tablet, none⟩) ∧
      (∀ table, (ofList rs).reaches table = true ↔ ∃ r ∈ rs, r.key.table = table) ∧
      ∀ page, ((ofList rs).split page).1.Sublist page ∧ ((ofList rs).split page).2.Sublist page ∧
        (((ofList rs).split page).1 ++ ((ofList rs).split page).2).Perm page ∧
        ((ofList rs).split page).2 = page.filter fun c => (ofList rs).keeps c.key := by
  refine ⟨fun _ _ _ => keeps_file_iff, fun _ _ => keeps_iff, fun table => ?_, fun page => ?_⟩
  · rw [reaches_ofList]
    simp only [eq_comm]
  · refine ⟨?_, ?_, split_perm .., ?_⟩
    all_goals rw [split_eq]
    · exact List.filter_sublist
    · exact List.filter_sublist

end TabletSweep.LiveKeys
