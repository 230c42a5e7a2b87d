import Mathlib.Algebra.GroupWithZero.Nat
import TabletSweep.Proofs.Ledger
import TabletSweep.Proofs.Pass.Calls
import TabletSweep.Proofs.Pass.Program

/-!
# Orderly environments, and deletion in them

An environment is orderly if it does what it should and fails at nothing but deletions: a page of
its log holds the texts after the cursor, a deletion takes out of the log what it does not report,
and the deletion of a text fails a certain number of times before it succeeds. A `View` is what this
is said about.

In an orderly environment it is known what becomes of a batch that is deleted again and again: a
candidate goes exactly if its deletion fails no more often than it is repeated, whatever else is in
the batch (`exec_deleteBatch_orderly`).
-/

namespace TabletSweep

variable {σ : Type}

/-- What is seen of the states of an environment. -/
structure View (σ : Type) where
  /-- Whether the environment can be in the state. -/
  good : σ → Prop
  /-- What the candidate log holds. -/
  log : σ → NameSet
  /-- How many more times the deletion of a text fails. -/
  left : σ → String → Nat

/-- Nothing that is seen is changed. -/
structure View.Same (v : View σ) (w w' : σ) : Prop where
  good : v.good w'
  log : v.log w' = v.log w
  left : v.left w' = v.left w

/-- A deletion takes out of the log what it does not report as failed. It reports a candidate as
long as the deletion of its text is to fail, which is then one time less. -/
structure View.Tries (v : View σ) (batch : List Candidate) (w : σ) (report : DeleteReport)
    (w' : σ) : Prop where
  good : v.good w'
  lists : ∀ c ∈ batch, report.lists c = true ↔ 0 < v.left w c.literal
  log : ∀ x, x ∈ v.log w' ↔ x ∈ v.log w ∧ ∀ c ∈ batch, c.literal = x → report.lists c = true
  left : ∀ x, v.left w' x = if x ∈ batch.map (·.literal) then v.left w x - 1 else v.left w x

/-- An environment with a candidate log whose pages are cut off at a cap, with entries, blips and
table ids that do not change, and with deletions that fail a certain number of times. Nothing else
fails or changes. -/
structure Orderly (env : Environment σ) (v : View σ) (cap : Nat) (entries : List Entry)
    (blips ids : List String) : Prop where
  references : ∀ w, v.good w →
    ∃ w', env.references.perform w = (.ok (entries.map .ok), w') ∧ v.Same w w'
  blips : ∀ w, v.good w → ∃ w', env.blips.perform w = (.ok (blips.map .ok), w') ∧ v.Same w w'
  tableIds : ∀ w, v.good w → ∃ w', env.tableIds.perform w = (.ok ids, w') ∧ v.Same w w'
  candidates : ∀ w cursor limit, v.good w →
    ∃ w', (env.candidates cursor limit).perform w =
      (.ok (((v.log w).after cursor).take (min limit cap)), w') ∧ v.Same w w'
  delete : ∀ w batch, v.good w → (batch.map (·.literal)).Nodup →
    ∃ report w', (env.delete batch).perform w = (.ok report, w') ∧ v.Tries batch w report w'
  removeTableDir : ∀ w table, v.good w →
    ∃ removed w', (env.removeTableDir table).perform w = (.ok removed, w') ∧ v.Same w w'
  countCandidates : ∀ w n, v.good w → v.Same w ((env.countCandidates n).run w).2
  countInUse : ∀ w n, v.good w → v.Same w ((env.countInUse n).run w).2

theorem View.Same.trans {v : View σ} {w w' w'' : σ} (h : v.Same w w') (h' : v.Same w' w'') :
    v.Same w w'' :=
  ⟨h'.good, h'.log.trans h.log, h'.left.trans h.left⟩

/-- The texts that a call deletes. -/
def Call.deletedTexts : Call → List String
  | .delete batch (.ok report) => (Pass.deletedOf report batch).map (·.literal)
  | _ => []

/-- The table whose directory a call is to remove. -/
def Call.removal? : Call → Option String
  | .removeTableDir table _ => some table
  | _ => none

namespace Pass

open PassM

/-- The texts that were deleted. -/
def deletedTexts (calls : List Call) : List String := calls.flatMap Call.deletedTexts

@[simp] theorem deletedTexts_append (cs ds : List Call) :
    deletedTexts (cs ++ ds) = deletedTexts cs ++ deletedTexts ds := List.flatMap_append

/-- The tables whose directories were to be removed, in order. -/
def removals (calls : List Call) : List String := calls.filterMap Call.removal?

@[simp] theorem removals_append (cs ds : List Call) :
    removals (cs ++ ds) = removals cs ++ removals ds := List.filterMap_append

/-! ## Counting attempts -/

theorem countP_le_succ {α : Type} (f : α → Nat) (r : Nat) (xs : List α) :
    xs.countP (f · ≤ r + 1) =
      xs.countP (f · ≤ 0) + (xs.filter (0 < f ·)).countP (f · - 1 ≤ r) := by
  induction xs with
  | nil => rfl
  | cons x xs ih =>
    simp only [List.countP_cons, List.filter_cons, ih, decide_eq_true_eq]
    by_cases h : 0 < f x
    · rw [if_pos h, List.countP_cons]
      simp only [decide_eq_true_eq]
      split <;> split <;> split <;> omega
    · rw [if_neg h]
      split <;> split <;> omega

/-- What fails is repeated, and what fails again is repeated until no repetition is left. -/
theorem sum_min_succ {α : Type} (f : α → Nat) (r : Nat) (xs : List α) :
    (xs.map fun x => min (f x) (r + 1)).sum =
      (xs.filter (0 < f ·)).length + ((xs.filter (0 < f ·)).map fun x => min (f x - 1) r).sum := by
  induction xs with
  | nil => rfl
  | cons x xs ih =>
    rw [List.map_cons, List.sum_cons, List.filter_cons, ih]
    by_cases h : 0 < f x
    · simp [h]
      omega
    · have hzero : f x = 0 := by omega
      simp [hzero]

/-! ## Deleting a batch -/

/-- What becomes of a batch that is deleted and then, as far as that fails, so many times again. -/
structure Attempted (v : View σ) (r : Nat) (batch : List Candidate) (p q : Progress σ) : Prop where
  good : v.good q.world
  log : ∀ x, x ∈ v.log q.world ↔
    x ∈ v.log p.world ∧ ∀ c ∈ batch, c.literal = x → r < v.left p.world x
  left : ∀ x, v.left q.world x =
    if x ∈ batch.map (·.literal) then v.left p.world x - (r + 1) else v.left p.world x
  emptied : ∀ t, t ∈ q.ledger.emptied ↔ t ∈ p.ledger.emptied ∨
    ∃ c ∈ batch, v.left p.world c.literal ≤ r ∧ c.key.isDirectory = true ∧ t = c.key.table
  kept : q.ledger.kept = p.ledger.kept
  counters : q.counters = { p.counters with
    deleted := p.counters.deleted + batch.countP (v.left p.world ·.literal ≤ r)
    deleteRetries := p.counters.deleteRetries +
      (batch.map fun c => min (v.left p.world c.literal) r).sum }
  texts : ∀ x, x ∈ deletedTexts q.calls ↔ x ∈ deletedTexts p.calls ∨
    ∃ c ∈ batch, v.left p.world c.literal ≤ r ∧ c.literal = x
  dirs : removals q.calls = removals p.calls

variable {v : View σ} {r : Nat} {batch : List Candidate} {p q s : Progress σ}

theorem attempted_nil (good : v.good p.world) : Attempted v r [] p p where
  good := good
  log := by simp
  left := by simp
  emptied := by simp
  kept := rfl
  counters := rfl
  texts := by simp
  dirs := rfl

section Tries

variable {report : DeleteReport} {world : σ} (tries : v.Tries batch p.world report world)
include tries

theorem failedOf_eq : failedOf report batch = batch.filter (0 < v.left p.world ·.literal) := by
  refine List.filter_congr fun c hc => ?_
  rw [Bool.eq_iff_iff, tries.lists c hc, decide_eq_true_iff]

theorem deletedOf_eq : deletedOf report batch = batch.filter (v.left p.world ·.literal ≤ 0) := by
  refine List.filter_congr fun c hc => ?_
  rw [Bool.eq_iff_iff, Bool.not_eq_true', ← Bool.not_eq_true, tries.lists c hc, decide_eq_true_iff,
    Nat.not_lt]

theorem attempted_once :
    Attempted v 0 batch p
      (deleted batch report (p.noted world (.delete batch (.ok report)))) where
  good := tries.good
  log x := by
    change x ∈ v.log world ↔ _
    rw [tries.log]
    refine and_congr_right fun _ => forall₂_congr fun c hc => ?_
    constructor
    · rintro h rfl
      exact (tries.lists c hc).mp (h rfl)
    · rintro h rfl
      exact (tries.lists c hc).mpr (h rfl)
  left := tries.left
  emptied t := by
    change t ∈ (p.ledger.deletedAll _).emptied ↔ _
    rw [TableLedger.mem_emptied_deletedAll, deletedOf_eq tries]
    simp only [List.mem_filter, decide_eq_true_eq, and_assoc]
  kept := TableLedger.kept_deletedAll
  counters := by
    simp only [deleted, Progress.noted_counters, deletedOf_eq tries, List.countP_eq_length_filter,
      Nat.min_zero, List.map_const', List.sum_replicate_nat, Nat.mul_zero, Nat.add_zero]
  texts x := by
    change x ∈ deletedTexts (p.calls ++ _) ↔ _
    rw [deletedTexts_append, List.mem_append]
    refine or_congr_right ?_
    simp only [deletedTexts, List.flatMap_singleton, Call.deletedTexts, deletedOf_eq tries,
      List.mem_map, List.mem_filter, decide_eq_true_eq, and_assoc]
  dirs := by
    change removals (p.calls ++ _) = _
    rw [removals_append]
    exact List.append_nil _

end Tries

/-- Once a batch was deleted, what failed of it fails one more time less. -/
theorem Attempted.left_of_mem (once : Attempted v 0 batch p q) {c : Candidate} (hc : c ∈ batch) :
    v.left q.world c.literal = v.left p.world c.literal - 1 := by
  rw [once.left, if_pos (List.mem_map_of_mem hc)]

theorem Attempted.filter_failed (once : Attempted v 0 batch p q) (r : Nat) :
    (batch.filter (0 < v.left p.world ·.literal)).filter (r < v.left q.world ·.literal) =
      batch.filter (r + 1 < v.left p.world ·.literal) := by
  rw [List.filter_filter]
  refine List.filter_congr fun c hc => ?_
  rw [once.left_of_mem hc, Bool.eq_iff_iff, Bool.and_eq_true]
  simp only [decide_eq_true_eq]
  omega

section Again

variable (once : Attempted v 0 batch p q)
include once

/-- A candidate goes after one more repetition if it goes at first, or if it is among those that
failed and goes later. -/
theorem Attempted.exists_goes_iff (P : Candidate → Prop) :
    (∃ c ∈ batch, v.left p.world c.literal ≤ r + 1 ∧ P c) ↔
      (∃ c ∈ batch, v.left p.world c.literal ≤ 0 ∧ P c) ∨
        ∃ c ∈ batch.filter (0 < v.left p.world ·.literal),
          v.left q.world c.literal ≤ r ∧ P c := by
  simp only [List.mem_filter, decide_eq_true_eq]
  constructor
  · rintro ⟨c, hc, hle, hP⟩
    have hless := once.left_of_mem hc
    by_cases hpos : 0 < v.left p.world c.literal
    · exact .inr ⟨c, ⟨hc, hpos⟩, by omega, hP⟩
    · exact .inl ⟨c, hc, by omega, hP⟩
  · rintro (⟨c, hc, hle, hP⟩ | ⟨c, ⟨hc, hpos⟩, hle, hP⟩)
    · exact ⟨c, hc, by omega, hP⟩
    · have hless := once.left_of_mem hc
      exact ⟨c, hc, by omega, hP⟩

/-- A text stays after one more repetition if it stays at first and again later. -/
theorem Attempted.stays_iff {x : String} :
    ((∀ c ∈ batch, c.literal = x → 0 < v.left p.world x) ∧
        ∀ c ∈ batch.filter (0 < v.left p.world ·.literal), c.literal = x → r < v.left q.world x) ↔
      ∀ c ∈ batch, c.literal = x → r + 1 < v.left p.world x := by
  simp only [List.mem_filter, decide_eq_true_eq]
  constructor
  · rintro ⟨first, later⟩ c hc rfl
    have hlater := later c ⟨hc, first c hc rfl⟩ rfl
    have hless := once.left_of_mem hc
    omega
  · intro h
    refine ⟨?_, ?_⟩
    · rintro c hc rfl
      have hmore := h c hc rfl
      omega
    · rintro c ⟨hc, -⟩ rfl
      have hmore := h c hc rfl
      have hless := once.left_of_mem hc
      omega

/-- Further attempts at what failed at first leave a text as many failures as all attempts at the
whole batch. -/
theorem Attempted.left_again (x : String) :
    (if x ∈ (batch.filter (0 < v.left p.world ·.literal)).map (·.literal)
      then v.left q.world x - (r + 1) else v.left q.world x) =
      if x ∈ batch.map (·.literal) then v.left p.world x - (r + 1 + 1) else v.left p.world x := by
  by_cases hx : x ∈ batch.map (·.literal)
  · rw [if_pos hx]
    obtain ⟨c, hc, rfl⟩ := List.mem_map.mp hx
    rw [once.left_of_mem hc]
    by_cases hpos : 0 < v.left p.world c.literal
    · have hfailed : c ∈ batch.filter (0 < v.left p.world ·.literal) :=
        List.mem_filter.mpr ⟨hc, decide_eq_true hpos⟩
      rw [if_pos (List.mem_map_of_mem hfailed)]
      omega
    · have hzero : v.left p.world c.literal = 0 := Nat.eq_zero_of_not_pos hpos
      rw [hzero]
      split <;> simp only [Nat.zero_sub]
  · have hnot : x ∉ (batch.filter (0 < v.left p.world ·.literal)).map (·.literal) := by
      intro hmem
      obtain ⟨c, hc, rfl⟩ := List.mem_map.mp hmem
      exact hx (List.mem_map_of_mem (List.mem_filter.mp hc).1)
    rw [if_neg hx, if_neg hnot, once.left, if_neg hx]

/-- Deleting again what failed at first comes to one more repetition for the whole batch. -/
theorem Attempted.again {failed : List Candidate}
    (hfailed : failed = batch.filter (0 < v.left p.world ·.literal))
    (rest : Attempted v r failed (repeated failed q) s) : Attempted v (r + 1) batch p s := by
  have left_failed : ∀ c ∈ failed, v.left q.world c.literal = v.left p.world c.literal - 1 := by
    intro c hc
    rw [hfailed] at hc
    exact once.left_of_mem (List.mem_filter.mp hc).1
  refine ⟨rest.good, fun x => ?_, fun x => ?_, fun t => ?_, rest.kept.trans once.kept, ?_,
    fun x => ?_, rest.dirs.trans once.dirs⟩
  · rw [rest.log]
    change x ∈ v.log q.world ∧ (∀ c ∈ failed, c.literal = x → r < v.left q.world x) ↔ _
    rw [once.log, and_assoc, hfailed, once.stays_iff]
  · rw [rest.left, hfailed]
    exact once.left_again x
  · rw [rest.emptied]
    change t ∈ q.ledger.emptied ∨ _ ↔ _
    rw [once.emptied, or_assoc, once.exists_goes_iff, ← hfailed]
    rfl
  · have hcount : failed.countP (fun c => v.left q.world c.literal ≤ r) =
        failed.countP (fun c => v.left p.world c.literal - 1 ≤ r) :=
      List.countP_congr fun c hc => by rw [left_failed c hc]
    have hsum : failed.map (fun c => min (v.left q.world c.literal) r) =
        failed.map (fun c => min (v.left p.world c.literal - 1) r) :=
      List.map_congr_left fun c hc => by rw [left_failed c hc]
    have hcounters : s.counters = { q.counters with
        deleted := q.counters.deleted + failed.countP (fun c => v.left q.world c.literal ≤ r)
        deleteRetries := q.counters.deleteRetries + failed.length +
          (failed.map fun c => min (v.left q.world c.literal) r).sum } := rest.counters
    rw [hcounters, hcount, hsum, once.counters, sum_min_succ, countP_le_succ, ← hfailed]
    simp only [Nat.min_zero, List.map_const', List.sum_replicate_nat, Nat.mul_zero, Nat.add_zero,
      Nat.add_assoc]
  · rw [rest.texts]
    change x ∈ Pass.deletedTexts q.calls ∨ _ ↔ _
    rw [once.texts, or_assoc, once.exists_goes_iff, ← hfailed]
    rfl

end Again

variable {env : Environment σ} {cap : Nat} {entries : List Entry} {blips ids : List String}

/-- In an orderly environment the candidates that are left of a batch are those whose deletion fails
more often than it is repeated. -/
theorem exec_deleteBatch_orderly (orderly : Orderly env v cap entries blips ids)
    (good : v.good p.world) (nodup : (batch.map (·.literal)).Nodup) :
    ∃ q, exec (deleteBatch env r batch) p =
        (.ok (batch.filter (r < v.left p.world ·.literal)), q) ∧ Attempted v r batch p q := by
  induction r generalizing batch p with
  | zero =>
    obtain ⟨report, world, answered, tries⟩ := orderly.delete p.world batch good nodup
    refine ⟨_, ?_, attempted_once tries⟩
    rw [exec_deleteBatch_end answered (.inl rfl), failedOf_eq tries]
  | succ r ih =>
    obtain ⟨report, world, answered, tries⟩ := orderly.delete p.world batch good nodup
    have once := attempted_once tries
    have hfailed := failedOf_eq tries
    by_cases none : failedOf report batch = []
    · have done := once.again hfailed (none ▸ attempted_nil (r := r) tries.good)
      refine ⟨_, ?_, done⟩
      have nothing : batch.filter (r + 1 < v.left p.world ·.literal) = [] := by
        refine List.filter_eq_nil_iff.mpr fun c hc => ?_
        have hzero := List.filter_eq_nil_iff.mp (hfailed.symm.trans none) c hc
        rw [decide_eq_true_iff] at hzero ⊢
        omega
      rw [exec_deleteBatch_end answered (.inr none), none, nothing]
      rfl
    · have nodup_failed : ((failedOf report batch).map (·.literal)).Nodup :=
        (List.filter_sublist.map _).nodup nodup
      obtain ⟨q, hq, rest⟩ := ih
        (p := repeated (failedOf report batch)
          (deleted batch report (p.noted world (.delete batch (.ok report)))))
        tries.good nodup_failed
      refine ⟨q, ?_, once.again hfailed rest⟩
      rw [exec_deleteBatch_repeat answered none, hq, ← once.filter_failed r, ← hfailed]
      rfl

end Pass

end TabletSweep
