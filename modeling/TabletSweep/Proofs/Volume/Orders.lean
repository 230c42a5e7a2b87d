import TabletSweep.Proofs.Volume.Targets

/-!
# The order in which a deletion goes through a batch

The workers of a deletion take the candidates of a batch in no fixed order, and judge each by what
its removal comes to when its turn is. What is left of the tree is the same in every order
(`deletion_takes_targets`), but what is reported is not: a file whose name is too long, or in whose
place a directory stands, is refused before the removal of its tablet directory and not found after
it (`order_decides_report`).

There is no other way in which the order shows. What an order leaves undone is said by `undone` in
terms of the tree as it is before: the candidates that it refuses, but for those that an earlier one
clears (`deletion_reports_undone`). This is for a deletion that leaves the way to its own tables
directory (`Detached`): without that way all that comes later is not found.
-/

namespace TabletSweep.Volume

open TabletSweep.Tree

variable {v : Volume} {t : Tree} {key : Key} {c d : Candidate} {batch order cs : List Candidate}

/-- Whether a target cannot be removed. -/
def refuses (v : Volume) (t : Tree) (key : Key) : Bool := !(v.removeKey t key).1

/-- Whether the removal of a target takes what stands in the place of another or would stand there,
so that nothing is found there any more. The path of the other has to be one that can be looked
up. -/
def clears (v : Volume) (t : Tree) (key other : Key) : Bool :=
  v.takes t key (v.keyPlace other) && checkPath (v.keyPath other) = .ok ()

/-- Whether one of the removals of a batch clears a target. -/
def clearsAny (v : Volume) (t : Tree) (batch : List Candidate) (key : Key) : Bool :=
  batch.any fun d => v.clears t d.key key

/-- The candidates that a deletion does not remove when it goes through them in this order, told
from the tree as it was before: those that it refuses, but for those that an earlier candidate
clears. -/
def undone (v : Volume) (t : Tree) : List Candidate → List Candidate
  | [] => []
  | c :: cs =>
    let later := (undone v t cs).filter fun d => !v.clears t c.key d.key
    if v.refuses t c.key then c :: later else later

/-- A candidate is left undone if it is refused and no earlier one clears it. -/
theorem mem_undone_iff :
    c ∈ v.undone t order ↔ ∃ before after, order = before ++ c :: after ∧
      v.refuses t c.key = true ∧ ∀ d ∈ before, v.clears t d.key c.key = false := by
  induction order with
  | nil => simp [undone]
  | cons e cs ih =>
    have later : c ∈ (v.undone t cs).filter (fun d => !v.clears t e.key d.key) ↔
        ∃ before after, e :: cs = (e :: before) ++ c :: after ∧
          v.refuses t c.key = true ∧ ∀ d ∈ e :: before, v.clears t d.key c.key = false := by
      rw [List.mem_filter, ih]
      simp only [List.cons_append, List.cons.injEq, true_and, List.forall_mem_cons,
        Bool.not_eq_true']
      constructor
      · rintro ⟨⟨before, after, split, refused, others⟩, first⟩
        exact ⟨before, after, split, refused, first, others⟩
      · rintro ⟨before, after, split, refused, first, others⟩
        exact ⟨⟨before, after, split, refused, others⟩, first⟩
    have here : c ∈ v.undone t (e :: cs) ↔ v.refuses t e.key = true ∧ c = e ∨
        c ∈ (v.undone t cs).filter (fun d => !v.clears t e.key d.key) := by
      rw [undone]
      split
      · rename_i refused
        rw [List.mem_cons, refused, eq_self, true_and]
      · rename_i refused
        rw [eq_false refused, false_and, false_or]
    rw [here, later]
    constructor
    · rintro (⟨refused, rfl⟩ | ⟨before, after, split, rest⟩)
      · exact ⟨[], cs, rfl, refused, nofun⟩
      · exact ⟨e :: before, after, split, rest⟩
    · rintro ⟨before, after, split, refused, earlier⟩
      cases before with
      | nil =>
        obtain ⟨rfl, -⟩ := List.cons.inj split
        exact .inl ⟨refused, rfl⟩
      | cons first before =>
        obtain ⟨rfl, -⟩ := List.cons.inj split
        exact .inr ⟨before, after, split, refused, earlier⟩

section Linkless

variable (linkless : t.Linkless) (plain : ∀ c ∈ batch, c.key.IsPlain) (detached : v.Detached batch)
include linkless plain detached

/-- After the removals of a batch a target is refused if it was refused and none of them cleared
it. -/
theorem refuses_without (plain' : key.IsPlain) :
    v.refuses (t.without (v.takesAny t batch)) key =
      (v.refuses t key && !v.clearsAny t batch key) := by
  have within := within_without t (v.takesAny t batch)
  have located := locate_without linkless plain detached plain'
  cases cleared : v.clearsAny t batch key with
  | true =>
    obtain ⟨d, hd, clear⟩ := List.any_eq_true.mp cleared
    obtain ⟨taken, accepted⟩ := Bool.and_eq_true_iff.mp clear
    rw [if_pos ⟨takesAny_iff.mpr ⟨d, hd, taken⟩, of_decide_eq_true accepted⟩] at located
    rw [refuses, removeKey_of_notFound v plain' located]
    simp
  | false =>
    rw [if_neg] at located
    · rw [refuses, refuses, removeKey_answer_congr plain' within located]
      simp
    · rintro ⟨taken, accepted⟩
      obtain ⟨d, hd, taken⟩ := takesAny_iff.mp taken
      have clear : v.clears t d.key key = true := by simp [clears, taken, accepted]
      exact List.any_eq_false.mp cleared d hd clear

end Linkless

/-- What the removals of a batch report in the order in which they come. -/
theorem removeEach_failed (linkless : t.Linkless) (plain : ∀ c ∈ order, c.key.IsPlain)
    (detached : v.Detached order) :
    (v.removeEach t order).1 = (v.undone t order).map (·.literal) := by
  suffices h : ∀ before after, before ++ after = order →
      (v.removeEach (t.without (v.takesAny t before)) after).1 =
        ((v.undone t after).filter fun c => !v.clearsAny t before c.key).map (·.literal) by
    have start := h [] order rfl
    rw [show v.takesAny t [] = fun _ => false from rfl, without_nothing] at start
    simpa [clearsAny] using start
  intro before after
  induction after generalizing before with
  | nil => exact fun _ => rfl
  | cons c after ih =>
    intro whole
    have first : c.key.IsPlain := plain c (by simp [← whole])
    have plain' : ∀ d ∈ before, d.key.IsPlain := fun d hd => plain d (by simp [← whole, hd])
    have detached' : v.Detached before := detached.subset (by simp [← whole])
    -- What an earlier candidate clears is dropped from what the later ones leave undone.
    have dropped : ((v.undone t after).filter fun d => !v.clears t c.key d.key).filter
          (fun d => !v.clearsAny t before d.key) =
        (v.undone t after).filter fun d => !v.clearsAny t (before ++ [c]) d.key := by
      rw [List.filter_filter]
      congr 1
      funext d
      simp [clearsAny]
    have refused := refuses_without linkless plain' detached' first
    rw [removeEach_cons_failed, removeKey_without linkless plain' detached' first
      (detached.subset (by simp [← whole])), ih (before ++ [c]) (by simpa using whole), undone,
      ← dropped]
    cases gone : (v.removeKey (t.without (v.takesAny t before)) c.key).1 with
    | true =>
      rw [refuses, gone] at refused
      cases own : v.refuses t c.key with
      | false => rfl
      | true =>
        have cleared : v.clearsAny t before c.key = true := by
          simpa [own] using refused
        rw [if_pos rfl, if_pos rfl, List.filter_cons_of_neg (by simp [cleared])]
    | false =>
      rw [refuses, gone] at refused
      obtain ⟨own, kept⟩ := Bool.and_eq_true_iff.mp refused.symm
      rw [if_neg Bool.false_ne_true, own, if_pos rfl, List.filter_cons, if_pos kept, List.map_cons]

/-! ## Candidates that are cleared -/

/-- A target that is refused and cleared is a file, and what clears it is the removal of its tablet
directory. Either a directory stands in its place, or its name is too long. -/
theorem of_clears {other : Key} (linkless : t.Linkless) (plain : key.IsPlain)
    (plain' : other.IsPlain) (refused : v.refuses t other = true)
    (clear : v.clears t key other = true) :
    key = other.directory ∧ t.at? (v.keyPlace key) = some .directory ∧
      ∃ name, other.file = some name ∧
        (name.utf8ByteSize > maxNameBytes ∨ t.at? (v.keyPlace other) = some .directory) := by
  obtain ⟨taken, accepted⟩ := Bool.and_eq_true_iff.mp clear
  have accepted' := of_decide_eq_true accepted
  obtain ⟨place, located, kind⟩ := takes_iff.mp taken
  obtain rfl := locate_keyPath linkless plain located
  have refused' := (removeKey_refused_iff v plain' t).mp (by simpa [refuses] using refused)
  have other' : key ≠ other := by
    rintro rfl
    rcases refused' with ⟨e, lost, -⟩ | ⟨place, located', node⟩
    · cases located.symm.trans lost
    · cases located.symm.trans located'
      rcases kind with ⟨directory, stands, -⟩ | ⟨file, stands, -⟩
      · rw [if_pos directory] at node
        cases stands.symm.trans node
      · rw [if_neg (by simp [file])] at node
        cases stands.symm.trans node
  have holder : key = other.directory := (Key.eq_or_eq_directory_of_prefix
    (v.keyPlace_prefix_iff.mp (of_takes taken located).1)).resolve_left other'
  obtain ⟨name, named⟩ : ∃ name, other.file = some name := by
    refine Option.ne_none_iff_exists'.mp fun none => other' (holder.trans ?_)
    exact Key.directory_eq_self_iff.mpr (by simp [Key.isDirectory, none])
  have file : other.isDirectory = false := by simp [Key.isDirectory, named]
  have stands : t.at? (v.keyPlace key) = some .directory := by
    rcases kind with ⟨-, stands, -⟩ | ⟨notDirectory, -, -⟩
    · exact stands
    · simp [holder] at notDirectory
  refine ⟨holder, stands, name, named, ?_⟩
  have last : (segments (v.keyPath other)).getLast? = some name := by
    rw [v.segments_keyPath plain']
    simp [Key.components, named]
  have way : t.walk maxLinks [] (segments (v.keyPath other)).dropLast = .ok (v.keyPlace key) := by
    rw [v.segments_keyPath_dropLast plain' file, ← holder]
    exact walk_of_locate (v.endsPlain_keyPath plain) linkless located
  have child := locate_of_walk (v.endsPlain_keyPath plain') accepted' way
    (by rw [isDirectory, stands, decide_eq_true_eq]) last
  rcases refused' with ⟨e, lost, found⟩ | ⟨place, located', node⟩
  · left
    by_contra short
    rw [child, Tree.child, if_neg short] at lost
    split at lost
    · cases lost
      exact found rfl
    · cases lost
  · right
    rwa [locate_keyPath linkless plain' located', if_neg (by simp [file])] at node

/-- The candidates that nothing in a batch clears are left undone if they are refused. -/
theorem filter_undone (within : cs ⊆ batch) :
    (v.undone t cs).filter (fun c => !v.clearsAny t batch c.key) =
      cs.filter fun c => v.refuses t c.key && !v.clearsAny t batch c.key := by
  induction cs with
  | nil => rfl
  | cons c cs ih =>
    obtain ⟨first, others⟩ := List.cons_subset.mp within
    have later : ((v.undone t cs).filter fun d => !v.clears t c.key d.key).filter
          (fun d => !v.clearsAny t batch d.key) =
        (v.undone t cs).filter fun d => !v.clearsAny t batch d.key := by
      rw [List.filter_filter]
      congr 1
      funext d
      cases kept : v.clearsAny t batch d.key with
      | true => simp
      | false => simp [Bool.eq_false_iff.mpr (List.any_eq_false.mp kept c first)]
    rw [undone, List.filter_cons, ← ih others, ← later]
    cases v.refuses t c.key with
    | true => rw [if_pos rfl, List.filter_cons, Bool.true_and]
    | false => rfl

/-- Among candidates of which none is both refused and cleared all that are refused are left
undone. -/
theorem undone_eq_filter
    (apart : ∀ c ∈ cs, ∀ d ∈ cs, v.refuses t c.key = true → v.clears t d.key c.key = false) :
    v.undone t cs = cs.filter fun c => v.refuses t c.key := by
  have uncleared : ∀ c ∈ cs, v.refuses t c.key = true → v.clearsAny t cs c.key = false := by
    intro c hc refused
    rw [clearsAny, List.any_eq_false]
    intro d hd
    rw [apart c hc d hd refused]
    exact Bool.false_ne_true
  have all : (v.undone t cs).filter (fun c => !v.clearsAny t cs c.key) = v.undone t cs := by
    refine List.filter_eq_self.mpr fun c hc => ?_
    obtain ⟨before, after, split, refused, -⟩ := mem_undone_iff.mp hc
    rw [uncleared c (by simp [split]) refused, Bool.not_false]
  rw [← all, filter_undone (List.Subset.refl cs)]
  refine List.filter_congr fun c hc => ?_
  cases refused : v.refuses t c.key with
  | true => rw [uncleared c hc refused, Bool.not_false, Bool.and_self]
  | false => rfl

/-- In every order a deletion reports the candidates that are left undone in that order: those that
are refused in the tree as it is before, but for those that an earlier one clears. So the order
shows only in candidates that are refused and cleared by some other candidate. These are files whose
tablet directory is a candidate and a directory on disk, with a name that is too long or a directory
in their place. All others are reported alike in every order, and without any such the reports are
the same. -/
theorem deletion_reports_undone (v : Volume) (linkless : t.Linkless)
    (plain : ∀ c ∈ batch, c.key.IsPlain) (detached : v.Detached batch) (perm : order.Perm batch) :
    let failed := (v.deleteBatch t order).1.failed
    failed.Pairwise (· ≤ ·) ∧ failed.Perm ((v.undone t order).map (·.literal)) ∧
      (∀ c, c ∈ v.undone t order ↔ ∃ before after, order = before ++ c :: after ∧
        v.refuses t c.key = true ∧ ∀ d ∈ before, v.clears t d.key c.key = false) ∧
      (∀ c ∈ batch, ∀ d ∈ batch, v.refuses t c.key = true → v.clears t d.key c.key = true →
        d.key = c.key.directory ∧ t.at? (v.keyPlace d.key) = some .directory ∧
          ∃ name, c.key.file = some name ∧
            (name.utf8ByteSize > maxNameBytes ∨ t.at? (v.keyPlace c.key) = some .directory)) ∧
      ((v.undone t order).filter fun c => !v.clearsAny t batch c.key).Perm
        (batch.filter fun c => v.refuses t c.key && !v.clearsAny t batch c.key) ∧
      ((∀ c ∈ batch, ∀ d ∈ batch, v.refuses t c.key = true → v.clears t d.key c.key = false) →
        failed = (v.deleteBatch t batch).1.failed) := by
  intro failed
  have reported : ∀ {order : List Candidate}, order.Perm batch →
      (v.deleteBatch t order).1.failed.Perm ((v.undone t order).map (·.literal)) := by
    intro order perm
    rw [← removeEach_failed linkless (fun c hc => plain c (perm.mem_iff.mp hc))
      (detached.subset perm.subset)]
    exact failed_deleteBatch_perm v t order
  refine ⟨sorted_failed_deleteBatch v t order, reported perm, fun c => mem_undone_iff, ?_, ?_, ?_⟩
  · intro c hc d hd refused clear
    exact of_clears linkless (plain d hd) (plain c hc) refused clear
  · rw [filter_undone perm.subset]
    exact perm.filter _
  · intro apart
    have apart' : ∀ c ∈ order, ∀ d ∈ order, v.refuses t c.key = true →
        v.clears t d.key c.key = false :=
      fun c hc d hd => apart c (perm.mem_iff.mp hc) d (perm.mem_iff.mp hd)
    have same : ((v.undone t order).map (·.literal)).Perm ((v.undone t batch).map (·.literal)) := by
      rw [undone_eq_filter apart', undone_eq_filter apart]
      exact (perm.filter _).map _
    refine ((reported perm).trans (same.trans (reported (.refl batch)).symm)).eq_of_pairwise
      (fun _ _ _ _ => String.le_antisymm) ?_ ?_
    · exact sorted_failed_deleteBatch v t order
    · exact sorted_failed_deleteBatch v t batch

section Crossed

/-- A tree in which a directory stands where a file of a tablet is to be, and a file where another
tablet directory is to be. -/
def crossedTree : Tree := ⟨[
  (["vol"], .directory), (["vol", "tables"], .directory), (["vol", "tables", "4"], .directory),
  (["vol", "tables", "4", "t-0"], .directory), (["vol", "tables", "4", "t-0", "F.rf"], .directory),
  (["vol", "tables", "4", "t-0", "F.rf", "x"], .file), (["vol", "tables", "4", "t-1"], .file)]⟩

/-- The file, its tablet directory and the other tablet directory. -/
def crossedBatch : List Candidate := [
  ⟨"/4/t-0/F.rf", ⟨"4", "t-0", some "F.rf"⟩⟩, ⟨"/4/t-0", ⟨"4", "t-0", none⟩⟩,
  ⟨"/4/t-1", ⟨"4", "t-1", none⟩⟩]

/-- The other tablet directory is reported in either order; the last candidate first, the file is
not. -/
theorem crossed_batch_reported :
    let v : Volume := ⟨"/vol", "tables"⟩
    v.Detached crossedBatch ∧
      (v.deleteBatch crossedTree crossedBatch).1.failed = ["/4/t-0/F.rf", "/4/t-1"] ∧
      (v.deleteBatch crossedTree crossedBatch.reverse).1.failed = ["/4/t-1"] := by
  intro v
  have plain : ∀ c ∈ crossedBatch, c.key.IsPlain := by
    have read : Candidate.ofPage "tables" (crossedBatch.map (·.literal)) = .ok crossedBatch := by
      decide +kernel
    exact isPlain_of_ofPage read
  have linkless : crossedTree.Linkless := linkless_of_entries (by decide +kernel)
  have detached : v.Detached crossedBatch := detached_of_noUp (by decide +kernel) _
  have undone : (v.undone crossedTree crossedBatch).map (·.literal) = ["/4/t-0/F.rf", "/4/t-1"] ∧
      (v.undone crossedTree crossedBatch.reverse).map (·.literal) = ["/4/t-1"] := by
    decide +kernel
  obtain ⟨sorted, forward, -⟩ := deletion_reports_undone v linkless plain detached
    (.refl crossedBatch)
  obtain ⟨-, backward, -⟩ := deletion_reports_undone v linkless plain detached
    (List.reverse_perm crossedBatch)
  rw [undone.1] at forward
  rw [undone.2] at backward
  refine ⟨detached, ?_, List.perm_singleton.mp backward⟩
  exact forward.eq_of_pairwise (fun _ _ _ _ => String.le_antisymm) sorted (by decide)

/-- The order decides whether the file is reported. Where the path of the volume leads by a tablet
directory of its own, it also decides whether the other tablet directory is, which lies apart. -/
theorem order_decides_report :
    let v : Volume := ⟨"/vol", "tables"⟩
    let inward : Volume := ⟨"/vol/tables/4/t-0/../../..", "tables"⟩
    let batch : List Candidate := [
      ⟨"/4/t-0/F.rf", ⟨"4", "t-0", some "F.rf"⟩⟩, ⟨"/4/t-0", ⟨"4", "t-0", none⟩⟩]
    let apart : List Candidate := [⟨"/4/t-1", ⟨"4", "t-1", none⟩⟩, ⟨"/4/t-0", ⟨"4", "t-0", none⟩⟩]
    Candidate.ofPage "tables" ["/4/t-0/F.rf", "/4/t-0"] = .ok batch ∧
      Candidate.ofPage "tables" ["/4/t-1", "/4/t-0"] = .ok apart ∧ crossedTree.Linkless ∧
      batch.reverse.Perm batch ∧ apart.reverse.Perm apart ∧
      (v.deleteBatch crossedTree batch).1.failed = ["/4/t-0/F.rf"] ∧
      (v.deleteBatch crossedTree batch.reverse).1.failed = [] ∧
      (inward.deleteBatch crossedTree apart).1.failed = ["/4/t-1"] ∧
      (inward.deleteBatch crossedTree apart.reverse).1.failed = [] := by
  intro v inward batch apart
  have failed : (v.removeEach crossedTree batch).1 = ["/4/t-0/F.rf"] ∧
      (v.removeEach crossedTree batch.reverse).1 = [] := by
    decide +kernel
  have failed' : (inward.removeEach crossedTree apart).1 = ["/4/t-1"] ∧
      (inward.removeEach crossedTree apart.reverse).1 = [] := by
    decide +kernel
  refine ⟨by decide +kernel, by decide +kernel, linkless_of_entries (by decide +kernel),
    List.reverse_perm _, List.reverse_perm _, ?_, ?_, ?_, ?_⟩
  · exact failed_deleteBatch_eq (.of_eq failed.1) (by decide)
  · exact failed_deleteBatch_eq (.of_eq failed.2) .nil
  · exact failed_deleteBatch_eq (.of_eq failed'.1) (by decide)
  · exact failed_deleteBatch_eq (.of_eq failed'.2) .nil

end Crossed

end TabletSweep.Volume
