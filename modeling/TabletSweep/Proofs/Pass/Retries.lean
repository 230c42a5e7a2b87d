import Mathlib.Data.List.Chain
import TabletSweep.Proofs.Pass.TableDirs
import TabletSweep.Proofs.Simulation

/-!
# Deleting again what could not be deleted

A page is deleted in attempts: the first batch is all that is confirmed, and each later one is what
the answer before lists of the batch before, as long as it lists some and may be asked again. From
the attempts alone it is known what becomes of each confirmed candidate: it is deleted by the last
batch that it is in, or left by the last batch of all (`Attempts.classified`).

What a page does is told by such attempts, whatever the environment answers
(`exec_deleteBatch_attempts`), and depends on an answer only by which members of the batch it lists
(`exec_deleteBatch_alike`).
-/

namespace TabletSweep

variable {σ : Type}

/-- The call by which a deletion was requested. -/
def Deletion.call (d : Deletion) : Call := .delete d.batch (.ok d.report)

/-- The call without what is reported of a deletion. -/
def Call.withoutReport : Call → Call
  | .delete batch (.ok _) => .delete batch (.ok .clean)
  | call => call

/-- Two answers to the deletion of a batch agree: both are the same error, or both list the same
members of the batch, whatever else they list. -/
inductive DeleteReport.Agree (batch : List Candidate) :
    Except ServiceError DeleteReport → Except ServiceError DeleteReport → Prop
  | error (e : ServiceError) : Agree batch (.error e) (.error e)
  | ok {report report' : DeleteReport}
      (same : ∀ c ∈ batch, c.literal ∈ report.failed ↔ c.literal ∈ report'.failed) :
      Agree batch (.ok report) (.ok report')

/-- Two ways to delete do the same and give answers that agree. -/
def DeletesAlike (delete delete' : List Candidate → Action σ DeleteReport) : Prop :=
  ∀ batch world, ((delete batch).perform world).2 = ((delete' batch).perform world).2 ∧
    DeleteReport.Agree batch ((delete batch).perform world).1 ((delete' batch).perform world).1

/-- Where deletions are answered alike, both fail with one error or both are answered. -/
theorem DeletesAlike.answers {delete delete' : List Candidate → Action σ DeleteReport}
    (deletes : DeletesAlike delete delete') (batch : List Candidate) (world : σ) :
    (∃ e w, (delete batch).perform world = (.error e, w) ∧
      (delete' batch).perform world = (.error e, w)) ∨
    ∃ report report' w, (delete batch).perform world = (.ok report, w) ∧
      (delete' batch).perform world = (.ok report', w) ∧
      ∀ c ∈ batch, c.literal ∈ report.failed ↔ c.literal ∈ report'.failed := by
  obtain ⟨same_world, agree⟩ := deletes batch world
  rcases answered : (delete batch).perform world with ⟨answer, w⟩
  rcases answered' : (delete' batch).perform world with ⟨answer', w'⟩
  rw [answered, answered'] at same_world agree
  change w = w' at same_world
  subst same_world
  change DeleteReport.Agree batch answer answer' at agree
  cases agree with
  | error e => exact .inl ⟨e, w, rfl, rfl⟩
  | ok same => exact .inr ⟨_, _, w, rfl, rfl, same⟩

/-- Deletes as before, with only those texts of the report that name a member of the batch. -/
def trimmed (delete : List Candidate → Action σ DeleteReport) (batch : List Candidate) :
    Action σ DeleteReport :=
  return ⟨(← delete batch).failed.filter fun text => batch.any (·.literal == text)⟩

/-- The texts of a report that name no member of the batch tell nothing. -/
theorem deletesAlike_trimmed (delete : List Candidate → Action σ DeleteReport) :
    DeletesAlike delete (trimmed delete) := by
  intro batch world
  unfold trimmed
  rw [Simulation.perform_bind]
  rcases (delete batch).perform world with ⟨e | report, w⟩
  · exact ⟨rfl, .error e⟩
  · refine ⟨rfl, .ok fun c hc => ?_⟩
    have named : batch.any (·.literal == c.literal) = true :=
      List.any_eq_true.mpr ⟨c, hc, beq_self_eq_true _⟩
    rw [List.mem_filter]
    exact (and_iff_left named).symm

namespace Pass

open PassM

/-- The candidates that deletions have deleted, in order. -/
def gone (deletions : List Deletion) : List Candidate :=
  deletions.flatMap fun d => deletedOf d.report d.batch

@[simp] theorem gone_append (ds es : List Deletion) : gone (ds ++ es) = gone ds ++ gone es :=
  List.flatMap_append

@[simp] theorem gone_singleton (d : Deletion) : gone [d] = deletedOf d.report d.batch :=
  List.flatMap_singleton ..

variable {confirmed left batch : List Candidate} {deletions : List Deletion} {c : Candidate}

/-! ## Attempts -/

/-- How a page is submitted for deletion, with so many repetitions. -/
structure Resubmission (retries : Nat) (confirmed : List Candidate) (deletions : List Deletion) :
    Prop where
  /-- The first batch is all that is confirmed. -/
  first : ∀ d ∈ deletions.head?, d.batch = confirmed
  /-- Each later batch is what the answer before lists of the batch before, which is not nothing. -/
  next : deletions.IsChain fun d e => e.batch = failedOf d.report d.batch ∧ e.batch ≠ []
  few : deletions.length ≤ retries + 1

/-- What becomes of all that is confirmed of a page. -/
structure Classified (confirmed : List Candidate) (deletions : List Deletion)
    (left : List Candidate) : Prop where
  /-- What is deleted and what is left make up all that is confirmed. -/
  whole : confirmed.Perm (gone deletions ++ left)
  /-- A candidate is deleted if the answer to the last batch that it is in does not list it. -/
  deleted : ∀ c, c ∈ gone deletions ↔ ∃ before d after, deletions = before ++ d :: after ∧
    c ∈ d.batch ∧ c.literal ∉ d.report.failed ∧ ∀ e ∈ after, c ∉ e.batch
  /-- A candidate is left if the answer to the last batch lists it. -/
  remaining : ∀ c, c ∈ left ↔ ∃ d, deletions.getLast? = some d ∧ c ∈ d.batch ∧
    c.literal ∈ d.report.failed
  apart : ∀ c ∈ gone deletions, c ∉ left

section Attempts

variable (attempts : Attempts confirmed deletions left)
include attempts

theorem Attempts.first : ∀ d ∈ deletions.head?, d.batch = confirmed := by
  induction attempts with
  | start => exact nofun
  | @again deletions batch earlier some report ih =>
    cases deletions with
    | nil =>
      have same := earlier.left_eq
      intro d hd
      obtain rfl := Option.some.inj hd
      exact same
    | cons d ds => exact ih

theorem Attempts.next :
    deletions.IsChain fun d e => e.batch = failedOf d.report d.batch ∧ e.batch ≠ [] := by
  induction attempts with
  | start => exact .nil
  | @again deletions batch earlier some report ih =>
    refine List.isChain_append.mpr ⟨ih, .singleton _, ?_⟩
    intro d hd e he
    obtain rfl := Option.some.inj he
    refine ⟨?_, some⟩
    have same := earlier.left_eq
    rw [Option.mem_def.mp hd] at same
    exact same

/-- What was deleted is not left. -/
theorem Attempts.apart : ∀ c ∈ gone deletions, c ∉ left := by
  induction attempts with
  | start => exact nofun
  | @again deletions batch earlier some report ih =>
    intro c hc hleft
    obtain ⟨hbatch, listed⟩ := mem_failedOf.mp hleft
    rw [gone_append, gone_singleton, List.mem_append] at hc
    rcases hc with hc | hc
    · exact ih c hc hbatch
    · exact (mem_deletedOf.mp hc).2 listed

/-- Nothing is lost, and nothing comes twice. -/
theorem Attempts.whole : confirmed.Perm (gone deletions ++ left) := by
  induction attempts with
  | start => exact .refl _
  | @again deletions batch earlier some report ih =>
    have parts : (failedOf report batch ++ deletedOf report batch).Perm batch :=
      List.filter_append_perm report.lists batch
    rw [gone_append, gone_singleton, List.append_assoc]
    exact ih.trans ((parts.symm.trans List.perm_append_comm).append_left _)

/-- What was deleted was not submitted after that. -/
theorem Attempts.exists_of_mem_gone (hc : c ∈ gone deletions) :
    ∃ before d after, deletions = before ++ d :: after ∧ c ∈ d.batch ∧
      c.literal ∉ d.report.failed ∧ ∀ e ∈ after, c ∉ e.batch := by
  induction attempts with
  | start => cases hc
  | @again deletions batch earlier some report ih =>
    rw [gone_append, gone_singleton, List.mem_append] at hc
    rcases hc with hc | hc
    · obtain ⟨before, d, after, rfl, hd, unlisted, never⟩ := ih hc
      refine ⟨before, d, after ++ [⟨batch, report⟩], by simp, hd, unlisted, ?_⟩
      -- The next batch is what the attempts so far have left.
      have other : c ∉ batch := earlier.apart c hc
      exact List.forall_mem_append.mpr ⟨never, by simpa using other⟩
    · obtain ⟨hbatch, unlisted⟩ := mem_deletedOf.mp hc
      exact ⟨deletions, ⟨batch, report⟩, [], rfl, hbatch, unlisted, nofun⟩

/-- Attempts that have made at least one deletion, if something is confirmed, tell what becomes of
each confirmed candidate. -/
theorem Attempts.classified (made : deletions = [] → confirmed = []) :
    Classified confirmed deletions left where
  whole := attempts.whole
  deleted c := by
    refine ⟨attempts.exists_of_mem_gone, ?_⟩
    rintro ⟨before, d, after, rfl, hd, unlisted, -⟩
    exact List.mem_flatMap.mpr ⟨d, by simp, mem_deletedOf.mpr ⟨hd, unlisted⟩⟩
  remaining c := by
    have hleft := attempts.left_eq
    rcases hlast : deletions.getLast? with _ | d <;> rw [hlast] at hleft
    · rw [hleft, made (List.getLast?_eq_none_iff.mp hlast)]
      simp
    · rw [hleft, mem_failedOf]
      simp
  apart := attempts.apart

end Attempts

/-! ## The program -/

variable {env : Environment σ} {p q : Progress σ}

/-- What deletions that were answered change. -/
structure Submitted (deletions : List Deletion) (p q : Progress σ) : Prop where
  calls : q.calls = p.calls ++ deletions.map Deletion.call
  ledger : q.ledger = p.ledger.deletedAll (gone deletions)
  deleted : q.counters.deleted = p.counters.deleted + (gone deletions).length
  failures : q.counters.deleteFailures = p.counters.deleteFailures

theorem submitted_singleton (batch : List Candidate) (report : DeleteReport) (world : σ) :
    Submitted [⟨batch, report⟩] p
      (deleted batch report (p.noted world (.delete batch (.ok report)))) :=
  ⟨rfl, by rw [gone_singleton]; rfl, by rw [gone_singleton]; rfl, rfl⟩

theorem Submitted.cons {report : DeleteReport} {world : σ}
    (rest : Submitted deletions
      (repeated left (Pass.deleted batch report (p.noted world (.delete batch (.ok report))))) q) :
    Submitted (⟨batch, report⟩ :: deletions) p q where
  calls := by
    rw [rest.calls]
    exact List.append_assoc p.calls [_] _
  ledger := by
    rw [rest.ledger]
    show (p.ledger.deletedAll (deletedOf report batch)).deletedAll (gone deletions) = _
    rw [← TableLedger.deletedAll_append]
    rfl
  deleted := by
    rw [rest.deleted]
    show p.counters.deleted + (deletedOf report batch).length + (gone deletions).length = _
    rw [Nat.add_assoc, ← List.length_append]
    rfl
  failures := rest.failures

variable (env) in
/-- Deleting a batch goes on with the attempts that led to it, up to the last answer or to a request
that fails. -/
theorem exec_deleteBatch_attempts {before : List Deletion} (retries : Nat)
    (attempts : Attempts confirmed before batch) (some : batch ≠ []) (p : Progress σ) :
    (∃ more left q, exec (deleteBatch env retries batch) p = (.ok left, q) ∧
      Attempts confirmed (before ++ more) left ∧ more ≠ [] ∧ more.length ≤ retries + 1 ∧
      (left = [] ∨ more.length = retries + 1) ∧ Submitted more p q) ∨
    ∃ more left q e, exec (deleteBatch env retries batch) p =
        (.error (.failed (.environment .delete e)), q) ∧
      Attempts confirmed (before ++ more) left ∧ left ≠ [] ∧ more.length ≤ retries ∧
      q.calls = p.calls ++ more.map Deletion.call ++ [.delete left (.error e)] := by
  induction retries generalizing before batch p with
  | zero =>
    rcases answered : (env.delete batch).perform p.world with ⟨e | report, w⟩
    · refine .inr ⟨[], batch, _, e, exec_deleteBatch_error answered, ?_, some, Nat.le_refl 0, ?_⟩
      · rwa [List.append_nil]
      · simp
    · refine .inl ⟨[⟨batch, report⟩], _, _, exec_deleteBatch_end answered (.inl rfl),
        attempts.again some report, by simp, Nat.le_refl 1, .inr rfl, ?_⟩
      exact submitted_singleton ..
  | succ retries ih =>
    rcases answered : (env.delete batch).perform p.world with ⟨e | report, w⟩
    · refine .inr ⟨[], batch, _, e, exec_deleteBatch_error answered, ?_, some, Nat.zero_le _, ?_⟩
      · rwa [List.append_nil]
      · simp
    by_cases none : failedOf report batch = []
    · exact .inl ⟨[⟨batch, report⟩], _, _, exec_deleteBatch_end answered (.inr none),
        attempts.again some report, by simp, by simp, .inl none, submitted_singleton ..⟩
    rw [exec_deleteBatch_repeat answered none]
    have rest := ih (attempts.again some report) none (repeated (failedOf report batch)
      (deleted batch report (p.noted w (.delete batch (.ok report)))))
    simp only [List.append_assoc, List.singleton_append] at rest
    obtain ⟨more, left, q, run, attempts', -, few, ends, submitted⟩ |
      ⟨more, left, q, e, run, attempts', some', few, calls⟩ := rest
    · refine .inl ⟨_, left, q, run, attempts', by simp, ?_, ?_, submitted.cons⟩
      · rw [List.length_cons]
        omega
      · rw [List.length_cons]
        exact ends.imp_right fun h => by omega
    · refine .inr ⟨_, left, q, e, run, attempts', some', ?_, ?_⟩
      · rw [List.length_cons]
        omega
      · rw [calls]
        simp [repeated, deleted, Deletion.call]

/-! ## What else an answer lists -/

/-- Two progresses differ only in what deletions were reported to have failed. -/
structure Alike (p q : Progress σ) : Prop where
  same : q = { p with calls := q.calls }
  calls : q.calls.map Call.withoutReport = p.calls.map Call.withoutReport

/-- Answers that agree name the same members of the batch. -/
theorem lists_congr {report report' : DeleteReport}
    (same : ∀ c ∈ batch, c.literal ∈ report.failed ↔ c.literal ∈ report'.failed) :
    failedOf report' batch = failedOf report batch ∧
      deletedOf report' batch = deletedOf report batch := by
  have lists : ∀ c ∈ batch, report'.lists c = report.lists c := by
    intro c hc
    rw [Bool.eq_iff_iff, DeleteReport.lists, DeleteReport.lists, List.contains_iff_mem,
      List.contains_iff_mem, same c hc]
  constructor
  · exact List.filter_congr lists
  · exact List.filter_congr fun c hc => by rw [lists c hc]

variable {delete' : List Candidate → Action σ DeleteReport}

section Alike

variable {p' : Progress σ} (alike : Alike p p')
include alike

theorem Alike.world_eq : p'.world = p.world := by rw [alike.same]

theorem Alike.noted {call call' : Call} (same : call'.withoutReport = call.withoutReport)
    (world : σ) : Alike (p.noted world call) (p'.noted world call') where
  same := by
    rw [alike.same]
    rfl
  calls := by simp [alike.calls, same]

/-- A batch is deleted alike. -/
theorem Alike.answered {report report' : DeleteReport}
    (same : ∀ c ∈ batch, c.literal ∈ report.failed ↔ c.literal ∈ report'.failed) (world : σ) :
    Alike (deleted batch report (p.noted world (.delete batch (.ok report))))
      (deleted batch report' (p'.noted world (.delete batch (.ok report')))) where
  same := by
    unfold deleted
    rw [(lists_congr same).2, alike.same]
    rfl
  calls := by
    have same : (Call.delete batch (.ok report')).withoutReport =
      (Call.delete batch (.ok report)).withoutReport := rfl
    exact (alike.noted same world).calls

theorem Alike.repeated : Alike (repeated left p) (repeated left p') where
  same := by
    rw [alike.same]
    rfl
  calls := alike.calls

theorem Alike.givenUp : Alike (givenUp left p) (givenUp left p') where
  same := by
    rw [alike.same]
    rfl
  calls := alike.calls

end Alike

/-- Deleting a batch goes alike where deletions are answered alike. -/
theorem exec_deleteBatch_alike (deletes : DeletesAlike env.delete delete') (retries : Nat)
    (batch : List Candidate) {p p' : Progress σ} (alike : Alike p p') :
    (exec (deleteBatch { env with delete := delete' } retries batch) p').1 =
        (exec (deleteBatch env retries batch) p).1 ∧
      Alike (exec (deleteBatch env retries batch) p).2
        (exec (deleteBatch { env with delete := delete' } retries batch) p').2 := by
  induction retries generalizing batch p p' with
  | zero =>
    obtain ⟨e, w, answered, answered'⟩ | ⟨report, report', w, answered, answered', same⟩ :=
      deletes.answers batch p.world
    · rw [← alike.world_eq] at answered'
      rw [exec_deleteBatch_error answered, exec_deleteBatch_error answered']
      exact ⟨rfl, alike.noted rfl w⟩
    · rw [← alike.world_eq] at answered'
      rw [exec_deleteBatch_end answered (.inl rfl), exec_deleteBatch_end answered' (.inl rfl)]
      exact ⟨by rw [(lists_congr same).1], alike.answered same w⟩
  | succ retries ih =>
    obtain ⟨e, w, answered, answered'⟩ | ⟨report, report', w, answered, answered', same⟩ :=
      deletes.answers batch p.world
    · rw [← alike.world_eq] at answered'
      rw [exec_deleteBatch_error answered, exec_deleteBatch_error answered']
      exact ⟨rfl, alike.noted rfl w⟩
    rw [← alike.world_eq] at answered'
    have failed := (lists_congr same).1
    by_cases none : failedOf report batch = []
    · rw [exec_deleteBatch_end answered (.inr none),
        exec_deleteBatch_end answered' (.inr (failed.trans none))]
      exact ⟨by rw [failed], alike.answered same w⟩
    · rw [exec_deleteBatch_repeat answered none,
        exec_deleteBatch_repeat answered' (by rwa [failed]), failed]
      exact ih _ (alike.answered same w).repeated

/-- Deleting what is confirmed of a page goes alike where deletions are answered alike. -/
theorem exec_deletePage_alike {settings : Settings} (deletes : DeletesAlike env.delete delete')
    (enabled : settings.safeMode = false) (confirmed : List Candidate) (p : Progress σ) :
    (exec (deletePage settings { env with delete := delete' } confirmed) p).1 =
        (exec (deletePage settings env confirmed) p).1 ∧
      Alike (exec (deletePage settings env confirmed) p).2
        (exec (deletePage settings { env with delete := delete' } confirmed) p).2 := by
  by_cases some : confirmed = []
  · rw [some, exec_deletePage_nil, exec_deletePage_nil]
    exact ⟨rfl, rfl, rfl⟩
  obtain ⟨result, alike⟩ := exec_deleteBatch_alike deletes settings.onFailure.retries confirmed
    (show Alike { p with phase := .deleting } { p with phase := .deleting } from ⟨rfl, rfl⟩)
  rw [exec_deletePage some enabled, exec_deletePage some enabled]
  rcases run : exec (deleteBatch env settings.onFailure.retries confirmed)
    { p with phase := .deleting } with ⟨answer, q⟩
  rcases run' : exec (deleteBatch { env with delete := delete' } settings.onFailure.retries
    confirmed) { p with phase := .deleting } with ⟨answer', q'⟩
  rw [run, run'] at result alike
  change answer' = answer at result
  subst result
  cases answer' with
  | error stop =>
    rw [exec_bind_error run, exec_bind_error run']
    exact ⟨rfl, alike⟩
  | ok left =>
    rw [exec_bind_ok run, exec_bind_ok run', exec_giveUp, exec_giveUp]
    exact ⟨rfl, alike.givenUp⟩

/-! ## The pages of a pass -/

section Page

variable (settings : Settings) (snapshot : Snapshot) (cs : List Candidate)

/-- The progress from a judged page on to the next, once all of its deletions are answered. -/
structure Answered (deletions : List Deletion) (left : List Candidate) (p q : Progress σ) :
    Prop where
  calls : q.calls = p.calls ++ deletions.map Deletion.call
  /-- There is a deletion as soon as something is confirmed. -/
  none_iff : deletions = [] ↔ (snapshot.judge cs).confirmed = []
  /-- The last answer lists nothing of its batch, or no repetition is left. -/
  ends : left = [] ∨ deletions.length = settings.onFailure.retries + 1
  classified : Classified (snapshot.judge cs).confirmed deletions left
  /-- What is deleted and what is left is noted as such, and counted as such. -/
  ledger : q.ledger = (p.ledger.deletedAll (gone deletions)).keptAll left
  deleted : q.counters.deleted = p.counters.deleted + (gone deletions).length
  failures : q.counters.deleteFailures = p.counters.deleteFailures + left.length

/-- The progress from a judged page to a deletion that fails. -/
structure Refused (deletions : List Deletion) (e : ServiceError) (p q : Progress σ) : Prop where
  few : deletions.length ≤ settings.onFailure.retries
  /-- The deletion is of what the answers so far have left. -/
  calls : ∃ left, left ≠ [] ∧ left = (deletions.getLast?.elim (snapshot.judge cs).confirmed
      fun d => failedOf d.report d.batch) ∧
    q.calls = p.calls ++ deletions.map Deletion.call ++ [.delete left (.error e)]

variable {settings cs}

/-- What is confirmed of a page stands in the order of the page. -/
theorem confirmed_sublist {page : List String}
    (read : Candidate.ofPage settings.tablesDir page = .ok cs) :
    ((snapshot.judge cs).confirmed.map (·.literal)).Sublist page := by
  rw [← (ofPage_eq_ok_iff.mp read).1, Snapshot.judge_confirmed]
  exact List.filter_sublist.map _

variable (env) in
/-- Deleting what is confirmed of a page is a resubmission that is answered, or is refused. -/
theorem exec_deletePage_resubmits (enabled : settings.safeMode = false) (p : Progress σ) :
    ∃ deletions q,
      Resubmission settings.onFailure.retries (snapshot.judge cs).confirmed deletions ∧
      ((exec (deletePage settings env (snapshot.judge cs).confirmed) p = (.ok (), q) ∧
          ∃ left, Answered settings snapshot cs deletions left p q) ∨
        ∃ e, exec (deletePage settings env (snapshot.judge cs).confirmed) p =
            (.error (.failed (.environment .delete e)), q) ∧
          Refused settings snapshot cs deletions e p q) := by
  by_cases some : (snapshot.judge cs).confirmed = []
  · refine ⟨[], p, ⟨nofun, .nil, Nat.zero_le _⟩, .inl ⟨?_, [], ?_⟩⟩
    · rw [some, exec_deletePage_nil]
    · have none_yet : Attempts (snapshot.judge cs).confirmed [] (snapshot.judge cs).confirmed :=
        .start
      refine ⟨by simp, by simp [some], .inl rfl, ?_, rfl, rfl, rfl⟩
      rw [some] at none_yet ⊢
      exact none_yet.classified fun _ => rfl
  rw [exec_deletePage some enabled]
  obtain ⟨deletions, left, q, run, attempts, made, few, ends, submitted⟩ |
      ⟨deletions, left, q, e, run, attempts, some', few, calls⟩ :=
    exec_deleteBatch_attempts env settings.onFailure.retries .start some
      { p with phase := .deleting }
  · rw [List.nil_append] at attempts
    refine ⟨deletions, givenUp left q, ⟨attempts.first, attempts.next, few⟩, .inl ⟨?_, left, ?_⟩⟩
    · rw [exec_bind_ok run, exec_giveUp]
    · refine ⟨submitted.calls, by simp [made, some], ends,
        attempts.classified fun none => absurd none made, ?_, submitted.deleted, ?_⟩
      · show q.ledger.keptAll left = _
        rw [submitted.ledger]
      · show q.counters.deleteFailures + left.length = _
        rw [submitted.failures]
  · rw [List.nil_append] at attempts
    refine ⟨deletions, q, ⟨attempts.first, attempts.next, by omega⟩, .inr ⟨e, ?_, few, ?_⟩⟩
    · exact exec_bind_error run
    · refine ⟨left, some', ?_, calls⟩
      have hleft := attempts.left_eq
      rcases hlast : deletions.getLast? with _ | d <;> rw [hlast] at hleft <;> exact hleft

end Page

/-- Whatever the environment answers, a page of a pass that deletes is submitted in attempts: first
all that is confirmed, in page order, then as often as may be repeated what the answer before lists
of the batch before, up to an answer that lists nothing of its batch. Once all deletions are
answered, each confirmed candidate is deleted or left, and noted and counted as such. If a deletion
fails, it is of what the answers before it have left, and fails the pass. What else an answer lists
makes no difference. -/
theorem page_resubmits_what_failed (settings : Settings) (env : Environment σ) (snapshot : Snapshot)
    (page : List String) (cs : List Candidate)
    (read : Candidate.ofPage settings.tablesDir page = .ok cs)
    (enabled : settings.safeMode = false) (p : Progress σ) :
    ((snapshot.judge cs).confirmed.map (·.literal)).Sublist page ∧
    (∃ deletions q,
      Resubmission settings.onFailure.retries (snapshot.judge cs).confirmed deletions ∧
      ((exec (processPage settings env snapshot page) p = (.ok (), q) ∧
          ∃ left, Answered settings snapshot cs deletions left
            (judged env (snapshot.judge cs) (counted env page p)) q) ∨
        ∃ e, exec (processPage settings env snapshot page) p =
            (.error (.failed (.environment .delete e)), q) ∧
          Refused settings snapshot cs deletions e
            (judged env (snapshot.judge cs) (counted env page p)) q)) ∧
    ∀ delete', DeletesAlike env.delete delete' →
      (exec (processPage settings { env with delete := delete' } snapshot page) p).1 =
          (exec (processPage settings env snapshot page) p).1 ∧
        Alike (exec (processPage settings env snapshot page) p).2
          (exec (processPage settings { env with delete := delete' } snapshot page) p).2 := by
  refine ⟨confirmed_sublist snapshot read, ?_, fun delete' deletes => ?_⟩
  · rw [exec_processPage read]
    exact exec_deletePage_resubmits env snapshot enabled _
  · rw [exec_processPage read, exec_processPage read]
    exact exec_deletePage_alike deletes enabled _ _

section Stubborn

open Simulation

/-- A world where two of three files fail to be deleted, one of them twice, and each answer also
lists a text that names no candidate. -/
def stubbornWorld : World where
  deleteFailures := [("1/t-1/A.rf", 1), ("1/t-1/C.rf", 2)]
  extraFailed := ["lost"]

/-- With one repetition a file is deleted in the first attempt, one in the second, and one stays.
The text that names no candidate makes no difference. -/
theorem third_file_stays :
    let settings : Settings := { onFailure := .retry 1 }
    let snapshot : Snapshot := ⟨.empty, .empty, ["1"]⟩
    let page := ["1/t-1/A.rf", "1/t-1/B.rf", "1/t-1/C.rf"]
    ∃ cs deletions left, Candidate.ofPage settings.tablesDir page = .ok cs ∧
      Resubmission 1 (snapshot.judge cs).confirmed deletions ∧
      Classified (snapshot.judge cs).confirmed deletions left ∧
      deletions.length = 2 ∧ (gone deletions).length = 2 ∧ left.length = 1 ∧
      (exec (processPage settings { environment with delete := trimmed environment.delete } snapshot
        page) ⟨stubbornWorld, .fetching, {}, .empty, []⟩).2.counters.deleteFailures = 1 := by
  intro settings snapshot page
  obtain ⟨cs, read⟩ : ∃ cs, Candidate.ofPage settings.tablesDir page = .ok cs := by
    refine ⟨["A.rf", "B.rf", "C.rf"].map fun file => ⟨"1/t-1/" ++ file, "1", "t-1", some file⟩, ?_⟩
    decide +kernel
  obtain ⟨-, ⟨deletions, q, resubmission, cases⟩, alike⟩ :=
    page_resubmits_what_failed settings environment snapshot page cs read rfl
      ⟨stubbornWorld, .fetching, {}, .empty, []⟩
  have answers : (exec (processPage settings environment snapshot page)
      ⟨stubbornWorld, .fetching, {}, .empty, []⟩).1 = .ok () := by
    decide +kernel
  have counters : (exec (processPage settings environment snapshot page)
      ⟨stubbornWorld, .fetching, {}, .empty, []⟩).2.counters =
        { pages := 1, candidates := 3, confirmed := 3, deleted := 2, deleteRetries := 2,
          deleteFailures := 1 } := by
    decide +kernel
  obtain ⟨run, left, answered⟩ | ⟨e, run, -⟩ := cases
  · rw [run] at counters
    have one : left.length = 1 := by
      have failures : q.counters.deleteFailures = 0 + left.length := answered.failures
      have count : q.counters.deleteFailures = 1 := by rw [counters]
      omega
    have two : (gone deletions).length = 2 := by
      have deleted : q.counters.deleted = 0 + (gone deletions).length := answered.deleted
      have count : q.counters.deleted = 2 := by rw [counters]
      omega
    have attempts : deletions.length = 2 := by
      apply answered.ends.resolve_left
      intro none
      rw [none] at one
      cases one
    refine ⟨cs, deletions, left, read, resubmission, answered.classified, attempts, two, one, ?_⟩
    rw [(alike _ (deletesAlike_trimmed environment.delete)).2.same, run, counters]
  · rw [run] at answers
    cases answers

end Stubborn

end Pass

end TabletSweep
