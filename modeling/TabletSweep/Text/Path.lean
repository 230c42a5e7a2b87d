import TabletSweep.Text.Pieces

/-!
# Paths as texts

The segments of a path are its non-empty pieces between slashes. They are what the path means,
however many slashes it is written with: a slash between two paths concatenates their segments
(`segments_append_slash`), and a segment is not empty and holds no slash (`of_mem_segments`).

`joinPaths` puts one path behind another (`segments_joinPaths`).
-/

namespace TabletSweep

/-- The non-empty pieces of a path between slashes. -/
def segments (path : String) : List String :=
  ((Text.pieces '/' path.toList).filter (· ≠ [])).map String.ofList

/-- Whether a path starts with a slash. -/
def startsWithSlash (path : String) : Bool := path.toList.head? = some '/'

/-- Whether a path ends with a slash. -/
def endsWithSlash (path : String) : Bool := path.toList.getLast? = some '/'

/-- A path behind another. A path that starts with a slash stands for itself; otherwise one slash is
put between the two unless the first is empty or ends with one. -/
def joinPaths (left right : String) : String :=
  if startsWithSlash right then right
  else if left = "" || endsWithSlash left then left ++ right
  else left ++ "/" ++ right

/-- Two paths with a slash between them have the segments of the one and then those of the other. -/
theorem segments_append_slash (p q : String) :
    segments (p ++ "/" ++ q) = segments p ++ segments q := by
  have : (p ++ "/" ++ q).toList = p.toList ++ '/' :: q.toList := by simp
  simp [segments, this, Text.pieces_append_cons]

/-- A non-empty text without a slash is its own only segment. -/
theorem segments_of_plain {s : String} (hs : s ≠ "") (h : '/' ∉ s.toList) : segments s = [s] := by
  simp [segments, Text.pieces_eq_singleton h, hs]

/-- A segment is not empty and holds no slash. -/
theorem of_mem_segments {path s : String} (h : s ∈ segments path) : s ≠ "" ∧ '/' ∉ s.toList := by
  simp only [segments, List.mem_map, List.mem_filter] at h
  obtain ⟨p, ⟨hp, hne⟩, rfl⟩ := h
  refine ⟨?_, by simpa using Text.not_mem_of_mem_pieces hp⟩
  simpa using hne

@[simp] theorem segments_empty : segments "" = [] := rfl

/-- A path behind another continues it, unless it starts with a slash. -/
theorem segments_joinPaths {left right : String} (h : startsWithSlash right = false) :
    segments (joinPaths left right) = segments left ++ segments right := by
  simp only [joinPaths, h, Bool.false_eq_true, if_false, Bool.or_eq_true, decide_eq_true_eq]
  split
  · rename_i hleft
    rcases hleft with rfl | hleft
    · simp
    · simp only [endsWithSlash, decide_eq_true_eq] at hleft
      obtain ⟨init, hinit⟩ := List.getLast?_eq_some_iff.mp hleft
      have hl : left = String.ofList init ++ "/" ++ "" := by
        rw [← String.toList_inj, hinit]
        simp
      have hr : left ++ right = String.ofList init ++ "/" ++ right := by
        rw [hl]
        simp
      rw [hr, segments_append_slash, hl, segments_append_slash]
      simp
  · exact segments_append_slash left right

end TabletSweep
