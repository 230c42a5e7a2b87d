/-!
# What stands together in a list

A list has the members with some property together if it can be cut in three so that exactly those
of the middle part have it. In a sorted list this is so for every property that holds of all that
stands between two members that have it (`contiguous_of_pairwise`), and so for having one image
under a monotone function (`contiguous_of_monotone`). A comparison that can be turned round is
total, so that lists can be sorted by it (`isLE_total`).
-/

namespace TabletSweep

variable {α : Type} {p : α → Prop} {R : α → α → Prop} {xs : List α}

/-- The members with a property stand together in the list. -/
def Contiguous (p : α → Prop) (xs : List α) : Prop :=
  ∃ before block after, xs = before ++ block ++ after ∧
    (∀ x ∈ block, p x) ∧ ∀ x ∈ before ++ after, ¬p x

/-- In a sorted list what has a property stands together if all that is between has it, too. -/
theorem contiguous_of_pairwise (sorted : xs.Pairwise R)
    (convex : ∀ a b c, R a b → R b c → p a → p c → p b) : Contiguous p xs := by
  induction xs with
  | nil => exact ⟨[], [], [], rfl, nofun, nofun⟩
  | cons x xs ih =>
    obtain ⟨first, rest⟩ := List.pairwise_cons.mp sorted
    obtain ⟨before, block, after, rfl, inside, outside⟩ := ih rest
    by_cases hx : p x
    · cases block with
      | nil =>
        refine ⟨[], [x], before ++ after, by simp, by simpa using hx, ?_⟩
        simpa using outside
      | cons y block =>
        -- What stands between the new head and the block would have the property as well.
        have none : before = [] := by
          refine List.eq_nil_iff_forall_not_mem.mpr fun z hz => ?_
          have low : R x z := first z (by simp [hz])
          have high : R z y := by
            rw [List.append_assoc] at rest
            exact (List.pairwise_append.mp rest).2.2 z hz y (by simp)
          exact outside z (by simp [hz]) (convex x z y low high hx (inside y (by simp)))
        subst none
        exact ⟨[], x :: y :: block, after, rfl, List.forall_mem_cons.mpr ⟨hx, inside⟩, outside⟩
    · exact ⟨x :: before, block, after, rfl, inside, List.forall_mem_cons.mpr ⟨hx, outside⟩⟩

/-- Of any two things one does not come behind the other. -/
theorem isLE_total [Ord α] [Std.OrientedOrd α] (a b : α) :
    (compare a b).isLE = true ∨ (compare b a).isLE = true := by
  have swapped : compare b a = (compare a b).swap := Std.OrientedCmp.eq_swap
  rw [swapped]
  cases compare a b
  · exact .inl rfl
  · exact .inl rfl
  · exact .inr rfl

/-- In a sorted list what has one image stands together if the images never go down. -/
theorem contiguous_of_monotone {β : Type} [Ord β] [Std.OrientedOrd β] [Std.LawfulEqOrd β]
    {f : α → β} (sorted : xs.Pairwise R)
    (monotone : ∀ a b, R a b → (compare (f a) (f b)).isLE = true) (y : β) :
    Contiguous (fun a => f a = y) xs := by
  refine contiguous_of_pairwise sorted fun a b c before after low high => ?_
  have above := monotone a b before
  have below := monotone b c after
  rw [low] at above
  rw [high] at below
  exact Std.LawfulEqOrd.eq_of_compare (Std.OrientedCmp.isLE_antisymm below above)

end TabletSweep
