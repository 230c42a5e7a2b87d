import Mathlib.Data.List.Perm.Subperm
import Mathlib.Logic.Function.Iterate
import TabletSweep.Proofs.Volume.Removal

/-!
# Deleting the same batch again

A pass that fails, or that finds a candidate reported as failed, hands out the same candidates
again. On a volume that does no harm, whatever the tree is like: symbolic links may be on the way to
a target, candidates may lie in each other and name what is of the other kind. The second deletion
of a batch leaves the tree as it is and reports no more than the first, and every further one
reports what the second does (`later_deletions_agree`). The second may report less, because the
first may have removed what was in the way of a candidate.
-/

namespace TabletSweep.Volume

/-- Deleting a batch again changes nothing and reports no more than before, and deleting it any
number of times more answers the same. -/
theorem later_deletions_agree (v : Volume) (t : Tree) (batch : List Candidate)
    (plain : ∀ c ∈ batch, c.key.IsPlain) :
    let first := v.deleteBatch t batch
    let second := v.deleteBatch first.2 batch
    second.2 = first.2 ∧ second.1.failed.Subperm first.1.failed ∧
      ∀ n, v.deleteBatch ((fun left => (v.deleteBatch left batch).2)^[n + 1] t) batch = second := by
  intro first second
  obtain ⟨unchanged, fewer⟩ :=
    removeEach_again plain (.refl (v.removeEach t batch).2)
  have same : second.2 = first.2 := unchanged
  refine ⟨same, ?_, fun n => ?_⟩
  · have reported := failed_deleteBatch_perm v t batch
    have reported' := failed_deleteBatch_perm v first.2 batch
    exact (reported'.subperm.trans fewer.subperm).trans reported.symm.subperm
  · have stays : ∀ n, (fun left => (v.deleteBatch left batch).2)^[n + 1] t = first.2 := by
      intro n
      induction n with
      | zero => rfl
      | succ n ih =>
        rw [Function.iterate_succ_apply', ih]
        exact same
    rw [stays n]

section Linked

/-- A tree in which the directory of a table is a symbolic link, and a directory stands where a file
of the table is to be. -/
def linkedTree : Tree := ⟨[
  (["vol"], .directory), (["vol", "tables"], .directory),
  (["vol", "tables", "4"], .link "/old"), (["old"], .directory), (["old", "t-0"], .directory),
  (["old", "t-0", "A.rf"], .directory), (["old", "t-0", "B.rf"], .file),
  (["old", "t-1"], .file)]⟩

/-- A file in a directory, that directory, and a directory that is a file on disk. -/
def linkedBatch : List Candidate := [
  ⟨"/4/t-0/A.rf", ⟨"4", "t-0", some "A.rf"⟩⟩, ⟨"/4/t-0", ⟨"4", "t-0", none⟩⟩,
  ⟨"/4/t-1", ⟨"4", "t-1", none⟩⟩]

/-- Two candidates fail at first. The directory in the way of the one is gone for the second
deletion, and the other fails as often as it is tried. -/
theorem linked_batch_settles :
    let v : Volume := ⟨"/vol", "tables"⟩
    let first := v.deleteBatch linkedTree linkedBatch
    Candidate.ofPage "tables" ["/4/t-0/A.rf", "/4/t-0", "/4/t-1"] = .ok linkedBatch ∧
      first.1.failed = ["/4/t-0/A.rf", "/4/t-1"] ∧ first.2.at? ["old", "t-0"] = none ∧
      (v.deleteBatch first.2 linkedBatch).2 = first.2 ∧
      ∀ n, (v.deleteBatch ((fun left => (v.deleteBatch left linkedBatch).2)^[n + 1] linkedTree)
        linkedBatch).1.failed = ["/4/t-1"] := by
  intro v
  have read : Candidate.ofPage "tables" ["/4/t-0/A.rf", "/4/t-0", "/4/t-1"] = .ok linkedBatch := by
    decide +kernel
  have failed : (v.removeEach linkedTree linkedBatch).1 = ["/4/t-0/A.rf", "/4/t-1"] := by
    decide +kernel
  have gone : (v.removeEach linkedTree linkedBatch).2.at? ["old", "t-0"] = none := by
    decide +kernel
  have failed' : (v.removeEach (v.removeEach linkedTree linkedBatch).2 linkedBatch).1 =
      ["/4/t-1"] := by
    decide +kernel
  obtain ⟨same, -, later⟩ := later_deletions_agree v linkedTree linkedBatch (isPlain_of_ofPage read)
  refine ⟨read, failed_deleteBatch_eq (.of_eq failed) (by decide), ?_, same, fun n => ?_⟩
  · rw [deleteBatch_tree]
    exact gone
  · rw [later n]
    refine failed_deleteBatch_eq ?_ (by decide)
    rw [deleteBatch_tree]
    exact .of_eq failed'

end Linked

end TabletSweep.Volume
