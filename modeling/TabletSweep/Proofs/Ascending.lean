import TabletSweep.NameSet

/-!
# Cutting ascending lists of names

A page is the start of an ascending list, and the last of its names tells what is on it: a name of
the list is on the page or comes after it, as the name does not or does follow that last one
(`mem_take_of_le_getLast`, `mem_drop_iff`).
-/

namespace TabletSweep

variable {xs ys : List String} {n : Nat} {x last : String}

/-- An ascending list is determined by its members. -/
theorem eq_of_ascending (hx : xs.Pairwise (· < ·)) (hy : ys.Pairwise (· < ·))
    (h : ∀ x, x ∈ xs ↔ x ∈ ys) : xs = ys := by
  have same : (⟨xs, hx⟩ : NameSet) = ⟨ys, hy⟩ := NameSet.ext h
  exact congrArg NameSet.toList same

theorem le_getLast_of_ascending (ascending : xs.Pairwise (· < ·)) (hlast : xs.getLast? = some last)
    (hx : x ∈ xs) : x ≤ last := by
  obtain ⟨init, rfl⟩ := List.getLast?_eq_some_iff.mp hlast
  rcases List.mem_append.mp hx with hx | hx
  · exact Std.le_of_lt ((List.pairwise_append.mp ascending).2.2 x hx last (by simp))
  · obtain rfl := List.mem_singleton.mp hx
    exact String.le_refl x

section Take

variable (ascending : xs.Pairwise (· < ·)) (hlast : (xs.take n).getLast? = some last)
include ascending hlast

/-- What is left of an ascending list after a start follows the last name of that. -/
theorem mem_drop_iff : x ∈ xs.drop n ↔ x ∈ xs ∧ last < x := by
  have whole := List.take_append_drop n xs
  rw [← whole] at ascending
  obtain ⟨hstart, -, hfollow⟩ := List.pairwise_append.mp ascending
  constructor
  · intro hx
    exact ⟨List.mem_of_mem_drop hx, hfollow last (List.mem_of_getLast? hlast) x hx⟩
  · rintro ⟨hx, hlt⟩
    rw [← whole] at hx
    refine (List.mem_append.mp hx).resolve_left fun hstart_mem => ?_
    exact absurd hlt (String.not_lt.mpr (le_getLast_of_ascending hstart hlast hstart_mem))

/-- The start of an ascending list holds all that the list has up to where the start ends. -/
theorem mem_take_of_le_getLast (hx : x ∈ xs) (hle : x ≤ last) : x ∈ xs.take n := by
  have whole := hx
  rw [← List.take_append_drop n xs] at whole
  refine (List.mem_append.mp whole).resolve_right fun hdrop => ?_
  exact absurd hle (String.not_le.mpr ((mem_drop_iff ascending hlast).mp hdrop).2)

end Take

theorem empty_lt_of_ne (hx : x ≠ "") : "" < x := by
  apply String.not_le.mp
  intro hle
  have empty_le : "" ≤ x := by
    apply String.not_lt.mp
    rw [String.lt_iff]
    exact List.not_lt_nil x.toList
  exact hx (String.le_antisymm hle empty_le)

theorem empty_lt_of_lt (h : last < x) : "" < x := by
  refine empty_lt_of_ne ?_
  rintro rfl
  rw [String.lt_iff] at h
  exact List.not_lt_nil _ h

/-- What occurs once in the lists of a list is in one of them. -/
theorem countP_mem_eq_one {xss : List (List String)} (nodup : xss.flatten.Nodup)
    (hx : x ∈ xss.flatten) : xss.countP (x ∈ ·) = 1 := by
  induction xss with
  | nil => simp at hx
  | cons xs xss ih =>
    rw [List.flatten_cons] at nodup hx
    obtain ⟨-, hnodup, hdisjoint⟩ := List.nodup_append.mp nodup
    by_cases here : x ∈ xs
    · have nowhere : xss.countP (x ∈ ·) = 0 := by
        apply List.countP_eq_zero.mpr
        intro ys hys hmem
        have hmem' : x ∈ ys := by simpa using hmem
        exact hdisjoint x here x (List.mem_flatten_of_mem hys hmem') rfl
      rw [List.countP_cons_of_pos (by simpa using here), nowhere]
    · rw [List.countP_cons_of_neg (by simpa using here)]
      exact ih hnodup ((List.mem_append.mp hx).resolve_left here)

end TabletSweep
