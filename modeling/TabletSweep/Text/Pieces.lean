/-!
# Cutting a text at a separator

`pieces sep cs` cuts a text at every occurrence of `sep`: it keeps the empty pieces, so there is
always at least one, and nothing but the separators is lost.

Main statements: cutting distributes over a separator (`pieces_append_cons`), a text without the
separator is one piece (`pieces_eq_singleton`), and no piece holds the separator
(`not_mem_of_mem_pieces`).
-/

namespace TabletSweep.Text

/-- The pieces of `cs` between the occurrences of `sep`, empty ones included. -/
def pieces (sep : Char) : List Char → List (List Char)
  | [] => [[]]
  | c :: cs =>
    if c = sep then [] :: pieces sep cs
    else match pieces sep cs with
      | [] => [[c]]
      | p :: ps => (c :: p) :: ps

theorem pieces_ne_nil (sep : Char) (cs : List Char) : pieces sep cs ≠ [] := by
  cases cs with
  | nil => simp [pieces]
  | cons c cs =>
    simp only [pieces]
    split
    · simp
    · split <;> simp

/-- A separator cuts the text in two, whatever stands on its sides. -/
theorem pieces_append_cons (sep : Char) (as bs : List Char) :
    pieces sep (as ++ sep :: bs) = pieces sep as ++ pieces sep bs := by
  induction as with
  | nil => simp [pieces]
  | cons a as ih =>
    by_cases h : a = sep
    · simp [pieces, h, ih]
    · simp only [List.cons_append, pieces, h, if_false, ih]
      rcases hp : pieces sep as with _ | ⟨p, ps⟩
      · exact absurd hp (pieces_ne_nil sep as)
      · simp

/-- A text without the separator is one piece. -/
theorem pieces_eq_singleton {sep : Char} {cs : List Char} (h : sep ∉ cs) :
    pieces sep cs = [cs] := by
  induction cs with
  | nil => rfl
  | cons c cs ih =>
    simp only [List.mem_cons, not_or] at h
    simp [pieces, Ne.symm h.1, ih h.2]

theorem not_mem_of_mem_pieces {sep : Char} {cs p : List Char} (h : p ∈ pieces sep cs) :
    sep ∉ p := by
  induction cs generalizing p with
  | nil => simp_all [pieces]
  | cons c cs ih =>
    by_cases hc : c = sep
    · simp only [pieces, hc, if_true, List.mem_cons] at h
      rcases h with rfl | h
      · simp
      · exact ih h
    · simp only [pieces, hc, if_false] at h
      rcases hp : pieces sep cs with _ | ⟨q, qs⟩
      · exact absurd hp (pieces_ne_nil sep cs)
      · rw [hp] at h ih
        rcases List.mem_cons.mp h with rfl | h
        · have := ih (List.mem_cons_self ..)
          simp [Ne.symm hc, this]
        · exact ih (List.mem_cons_of_mem _ h)

end TabletSweep.Text
