import Mathlib.Data.List.Basic
import TabletSweep.Proofs.Pass.Machine
import TabletSweep.Proofs.Pass.Orderly
import TabletSweep.Proofs.Reading

/-!
# What the counters of a pass add up to

The calls of a pass tell everything that its counters count: what it told the environment, the pages
that it accepted, and the batches with their answers. `Balanced` relates the two while a pass is at
work, when some candidates may still be unjudged, and others confirmed but neither deleted nor left.
Every step of a pass keeps its books balanced (`inBalance_step`), whatever the environment answers,
and so they are balanced where the pass ends, be it done, failed or cut off (`counters_add_up`).
-/

namespace TabletSweep

/-! ## What a call adds -/

namespace Call

/-- The number of candidates that a call tells the environment of. -/
def toldCandidates : Call → Nat
  | .countCandidates n => n
  | _ => 0

/-- The number of kept candidates that a call tells the environment of. -/
def toldKept : Call → Nat
  | .countInUse n => n
  | _ => 0

/-- The page that a call brings, if it has candidates and moves past its cursor. -/
def accepted? : Call → Option (List String)
  | .candidates cursor _ (.ok page) =>
    match page.getLast? with
    | none => none
    | some last => if cursor ≠ "" ∧ last ≤ cursor then none else some page
  | _ => none

/-- The call tells nothing, brings no page that is accepted, and deletes nothing. -/
def Silent : Call → Prop
  | .references .. | .blips .. | .tableIds _ | .removeTableDir .. => True
  | .candidates cursor limit answer => (Call.candidates cursor limit answer).accepted? = none
  | .countCandidates _ | .countInUse _ | .delete .. => False

theorem Silent.adds_nothing {call : Call} (silent : call.Silent) :
    call.toldCandidates = 0 ∧ call.toldKept = 0 ∧ call.accepted? = none ∧
      call.deletedTexts = [] ∧ ∀ batch answer, call ≠ .delete batch answer := by
  cases call with
  | references | blips | tableIds | removeTableDir => exact ⟨rfl, rfl, rfl, rfl, nofun⟩
  | candidates => exact ⟨rfl, rfl, silent, rfl, nofun⟩
  | countCandidates | countInUse | delete => exact silent.elim

end Call

/-- What was submitted for deletion so far. -/
structure Submissions where
  /-- Whether a batch was submitted since the last page was asked for. -/
  begun : Bool := false
  /-- The total size of the batches that were not the first of their page. -/
  repeated : Nat := 0

/-- What was submitted once one more call is made. A new page starts with a batch that is submitted
for the first time. -/
def Submissions.next (s : Submissions) : Call → Submissions
  | .candidates .. => { s with begun := false }
  | .delete batch _ => ⟨true, if s.begun then s.repeated + batch.length else s.repeated⟩
  | _ => s

theorem Submissions.repeated_next (s : Submissions) {call : Call}
    (other : ∀ batch answer, call ≠ .delete batch answer) :
    (s.next call).repeated = s.repeated := by
  cases call with
  | delete batch answer => exact absurd rfl (other batch answer)
  | _ => rfl

namespace Pass

open PassM

/-- What calls add up to. -/
def total (amount : Call → Nat) (calls : List Call) : Nat := (calls.map amount).sum

/-- The pages that had candidates and moved past their cursors, in order. -/
def accepted (calls : List Call) : List (List String) := calls.filterMap Call.accepted?

/-- What was submitted for deletion by calls. -/
def submissions (calls : List Call) : Submissions := calls.foldl Submissions.next {}

/-- The size of the batch whose deletion failed, if calls end with that. -/
def refused (calls : List Call) : Nat :=
  match calls.getLast? with
  | some (.delete batch (.error _)) => batch.length
  | _ => 0

/-- The length of the page on which a malformed candidate has stopped a pass, if one has. -/
def unjudged (outcome : Outcome) (calls : List Call) : Nat :=
  match outcome with
  | .failed ⟨.malformedPath _, .reconciling⟩ => ((accepted calls).getLast?.getD []).length
  | _ => 0

section Append

variable (calls more : List Call) (call : Call)

@[simp] theorem total_nil (amount : Call → Nat) : total amount [] = 0 := rfl

@[simp] theorem total_cons (amount : Call → Nat) :
    total amount (call :: calls) = amount call + total amount calls := rfl

@[simp] theorem total_append (amount : Call → Nat) :
    total amount (calls ++ more) = total amount calls + total amount more := by
  simp [total]

@[simp] theorem accepted_nil : accepted [] = [] := rfl

@[simp] theorem accepted_cons :
    accepted (call :: calls) = call.accepted?.toList ++ accepted calls := by
  cases h : call.accepted? <;> simp [accepted, h]

@[simp] theorem accepted_append : accepted (calls ++ more) = accepted calls ++ accepted more :=
  List.filterMap_append

@[simp] theorem submissions_append :
    submissions (calls ++ more) = more.foldl Submissions.next (submissions calls) :=
  List.foldl_append

theorem deletedTexts_singleton : deletedTexts [call] = call.deletedTexts :=
  List.flatMap_singleton ..

end Append

/-- A page that has candidates is accepted exactly if it moves past its cursor. -/
theorem accepted?_of_getLast {cursor last : String} {limit : Nat} {page : List String}
    (ends : page.getLast? = some last) :
    (Call.candidates cursor limit (.ok page)).accepted? =
      if cursor ≠ "" ∧ last ≤ cursor then none else some page := by
  unfold Call.accepted?
  simp only [ends]

theorem accepted_fetched (calls : List Call) {cursor last : String} {limit : Nat}
    {page : List String} (ends : page.getLast? = some last)
    (moves : ¬(cursor ≠ "" ∧ last ≤ cursor)) :
    accepted (calls ++ [.candidates cursor limit (.ok page)] ++ [.countCandidates page.length]) =
      accepted calls ++ [page] := by
  have told : (Call.countCandidates page.length).accepted? = none := rfl
  have brings : (Call.candidates cursor limit (.ok page)).accepted? = some page := by
    rw [accepted?_of_getLast ends, if_neg moves]
  simp [told, brings]

/-- Each candidate of a page is in use, otherwise under bulk load, or confirmed. -/
theorem length_judge (snapshot : Snapshot) (cs : List Candidate) :
    (snapshot.judge cs).inUse.length + (snapshot.judge cs).blipProtected.length +
      (snapshot.judge cs).confirmed.length = cs.length := by
  have kept := List.length_eq_length_filter_add (l := cs) (snapshot.live.keeps ·.key)
  have free := List.length_eq_length_filter_add
    (l := cs.filter (!snapshot.live.keeps ·.key)) (snapshot.loads.covers ·.key)
  rw [Snapshot.judge_eq]
  dsimp only
  omega

/-- Each candidate of a batch is reported as failed or deleted. -/
theorem length_failedOf_add (report : DeleteReport) (batch : List Candidate) :
    (failedOf report batch).length + (deletedOf report batch).length = batch.length :=
  (List.length_eq_length_filter_add (l := batch) report.lists).symm

/-! ## Balanced books -/

variable (settings : Settings)

/-- The counters agree with the calls when so many candidates are unjudged, so many of the
confirmed ones neither deleted nor left, and so many counted as submitted again that will only be
submitted next. -/
structure Balanced (counters : Counters) (calls : List Call) (unjudged pending again : Nat) :
    Prop where
  told : counters.candidates = total Call.toldCandidates calls
  accepted : counters.candidates = ((accepted calls).map List.length).sum
  kept : counters.inUse + counters.blipProtected = total Call.toldKept calls
  judged : counters.candidates =
    counters.inUse + counters.blipProtected + counters.confirmed + unjudged
  deleted : counters.deleted = (deletedTexts calls).length
  retries : counters.deleteRetries = (submissions calls).repeated + again
  confirmed : settings.safeMode = false →
    counters.confirmed = counters.deleted + counters.deleteFailures + pending

variable {settings} {counters : Counters} {calls : List Call} {unread pending again : Nat}

section Balanced

variable (balanced : Balanced settings counters calls unread pending again)
include balanced

theorem Balanced.silent {call : Call} (silent : call.Silent) :
    Balanced settings counters (calls ++ [call]) unread pending again where
  told := by simp [silent.adds_nothing, balanced.told]
  accepted := by simp [silent.adds_nothing, balanced.accepted]
  kept := by simp [silent.adds_nothing, balanced.kept]
  judged := balanced.judged
  deleted := by simp [deletedTexts_singleton, silent.adds_nothing, balanced.deleted]
  retries := by
    obtain ⟨-, -, -, -, other⟩ := silent.adds_nothing
    rw [submissions_append, List.foldl_cons, List.foldl_nil, Submissions.repeated_next _ other,
      balanced.retries]
  confirmed := balanced.confirmed

/-- The removal of a table's directory is counted elsewhere. -/
theorem Balanced.removedDir :
    Balanced settings { counters with tableDirsRemoved := counters.tableDirsRemoved + 1 } calls
      unread pending again :=
  ⟨balanced.told, balanced.accepted, balanced.kept, balanced.judged, balanced.deleted,
    balanced.retries, balanced.confirmed⟩

/-- Candidates that could not be deleted are left. -/
theorem Balanced.givenUp {left : Nat} (some : pending = left) :
    Balanced settings { counters with deleteFailures := counters.deleteFailures + left } calls
      unread 0 again where
  told := balanced.told
  accepted := balanced.accepted
  kept := balanced.kept
  judged := balanced.judged
  deleted := balanced.deleted
  retries := balanced.retries
  confirmed deletes := by
    have before := balanced.confirmed deletes
    dsimp only
    omega

/-- Candidates that could not be deleted are to be submitted again. -/
theorem Balanced.repeated (n : Nat) :
    Balanced settings { counters with deleteRetries := counters.deleteRetries + n } calls
      unread pending (again + n) where
  told := balanced.told
  accepted := balanced.accepted
  kept := balanced.kept
  judged := balanced.judged
  deleted := balanced.deleted
  retries := by
    have before := balanced.retries
    dsimp only
    omega
  confirmed := balanced.confirmed

/-- A batch is submitted. What is deleted of it is no longer pending. -/
theorem Balanced.submitted {batch : List Candidate} (answer : Except ServiceError DeleteReport)
    {gone left : Nat} (texts : (Call.delete batch answer).deletedTexts.length = gone)
    (parts : left + gone = pending)
    (next : again = if (submissions calls).begun then batch.length else 0) :
    Balanced settings { counters with deleted := counters.deleted + gone }
      (calls ++ [.delete batch answer]) unread left 0 where
  told := by simp [balanced.told, Call.toldCandidates]
  accepted := by simp [balanced.accepted, Call.accepted?]
  kept := by simp [balanced.kept, Call.toldKept]
  judged := balanced.judged
  deleted := by
    rw [deletedTexts_append, List.length_append, ← balanced.deleted, deletedTexts_singleton, texts]
  retries := by
    have before := balanced.retries
    rw [submissions_append, List.foldl_cons, List.foldl_nil, Submissions.next]
    split at next <;> rename_i begun <;> simp only [begun, if_true] <;> simp <;> omega
  confirmed deletes := by
    have before := balanced.confirmed deletes
    dsimp only
    omega

/-- A batch is answered. What the answer does not list is deleted, and the rest is pending. -/
theorem Balanced.answered {batch : List Candidate} (report : DeleteReport)
    (whole : batch.length = pending)
    (next : again = if (submissions calls).begun then batch.length else 0) :
    Balanced settings
      { counters with deleted := counters.deleted + (deletedOf report batch).length }
      (calls ++ [.delete batch (.ok report)]) unread (failedOf report batch).length 0 := by
  refine balanced.submitted _ ?_ ?_ next
  · rw [Call.deletedTexts, List.length_map]
  · rw [length_failedOf_add, whole]

/-- Nothing that is confirmed is pending where nothing may be deleted. -/
theorem Balanced.spared (safe : settings.safeMode = true) :
    Balanced settings counters calls unread 0 again where
  told := balanced.told
  accepted := balanced.accepted
  kept := balanced.kept
  judged := balanced.judged
  deleted := balanced.deleted
  retries := balanced.retries
  confirmed deletes := by
    rw [safe] at deletes
    cases deletes

end Balanced

/-- A page that moves past its cursor is accepted, and all of it is unjudged. -/
theorem Balanced.fetched (balanced : Balanced settings counters calls 0 0 0)
    {cursor last : String} {limit : Nat} {page : List String} (ends : page.getLast? = some last)
    (moves : ¬(cursor ≠ "" ∧ last ≤ cursor)) :
    Balanced settings
      { counters with
        pages := counters.pages + 1
        candidates := counters.candidates + page.length }
      (calls ++ [.candidates cursor limit (.ok page)] ++ [.countCandidates page.length])
      page.length 0 0 := by
  constructor
  case told => simp [balanced.told, Call.toldCandidates]
  case accepted => rw [accepted_fetched calls ends moves]; simp [balanced.accepted]
  case kept => simp [balanced.kept, Call.toldKept]
  case judged =>
    have before := balanced.judged
    dsimp only
    omega
  case deleted => simp [balanced.deleted, deletedTexts, Call.deletedTexts]
  case retries => simp [balanced.retries, Submissions.next]
  case confirmed => exact balanced.confirmed

/-- A page is judged, and what is confirmed of it is pending. -/
theorem Balanced.judgedPage {snapshot : Snapshot} {page : List String} {cs : List Candidate}
    {confirmed : Nat} (balanced : Balanced settings counters calls page.length 0 0)
    (read : Candidate.ofPage settings.tablesDir page = .ok cs)
    (length : (snapshot.judge cs).confirmed.length = confirmed) :
    Balanced settings
      { counters with
        inUse := counters.inUse + (snapshot.judge cs).inUse.length
        blipProtected := counters.blipProtected + (snapshot.judge cs).blipProtected.length
        confirmed := counters.confirmed + (snapshot.judge cs).confirmed.length }
      (calls ++ [.countInUse (snapshot.judge cs).kept.length]) 0 confirmed 0 := by
  have parts := length_judge snapshot cs
  have whole : page.length = cs.length := by
    rw [← (ofPage_eq_ok_iff.mp read).1, List.length_map]
  constructor
  case told => simp [balanced.told, Call.toldCandidates]
  case accepted => simp [balanced.accepted, Call.accepted?]
  case kept =>
    have before := balanced.kept
    rw [total_append, ← before, total_cons, total_nil, Call.toldKept, Verdict.kept,
      List.length_append]
    dsimp only
    omega
  case judged =>
    have before := balanced.judged
    dsimp only
    omega
  case deleted => simp [balanced.deleted, deletedTexts_singleton, Call.deletedTexts]
  case retries => simp [balanced.retries, Submissions.next]
  case confirmed =>
    intro deletes
    have before := balanced.confirmed deletes
    dsimp only
    omega

/-! ## Along the steps -/

variable {σ : Type}

variable (settings) in
/-- The books of a pass at a point. -/
def Point.InBalance (p : Progress σ) : Point → Prop
  | .references | .blips _ | .tableIds .. =>
    p.phase = .fetching ∧ Balanced settings p.counters p.calls 0 0 0
  | .fetch .. | .clean .. | .done =>
    refused p.calls = 0 ∧ Balanced settings p.counters p.calls 0 0 0
  | .judge _ page _ => p.phase = .reconciling ∧ (accepted p.calls).getLast? = some page ∧
    (submissions p.calls).begun = false ∧ refused p.calls = 0 ∧
    Balanced settings p.counters p.calls page.length 0 0
  | .delete _ _ _ batch => Balanced settings p.counters p.calls 0 batch.length
    (if (submissions p.calls).begun then batch.length else 0)
  | .failed cause => Balanced settings p.counters p.calls
    (unjudged (.failed ⟨cause, p.phase⟩) p.calls) (refused p.calls) 0

variable {env : Environment σ} {c d : Config σ}

/-- A pass that fails while it fetches has no page unjudged. -/
theorem unjudged_fetching (cause : Cause) (calls : List Call) :
    unjudged (.failed ⟨cause, .fetching⟩) calls = 0 := by
  cases cause <;> rfl

/-- Calls that end with something else than a deletion that fails end with nothing refused. -/
theorem refused_concat (calls : List Call) {call : Call}
    (other : ∀ batch e, call ≠ .delete batch (.error e) := by simp) :
    refused (calls ++ [call]) = 0 := by
  unfold refused
  rw [List.getLast?_concat]
  split
  · rename_i batch e h
    exact absurd (Option.some.inj h) (other batch e)
  · rfl

/-- A request that is no deletion, and whose answer brings no page, may fail the pass. -/
theorem Balanced.failed {call : Call} {cause : Cause} {phase : Phase}
    (balanced : Balanced settings counters calls 0 0 0) (silent : call.Silent)
    (none : unjudged (.failed ⟨cause, phase⟩) (calls ++ [call]) = 0) :
    Balanced settings counters (calls ++ [call])
      (unjudged (.failed ⟨cause, phase⟩) (calls ++ [call])) (refused (calls ++ [call])) 0 := by
  obtain ⟨-, -, -, -, other⟩ := silent.adds_nothing
  rw [none, refused_concat _ fun batch e => other batch _]
  exact balanced.silent silent

/-- Every step keeps the books. -/
theorem inBalance_step (h : c.point.InBalance settings c.progress) (step : Step settings env c d) :
    d.point.InBalance settings d.progress := by
  cases step with
  | readReferences | readBlips => exact ⟨h.1, h.2.silent trivial⟩
  | @failReferences p | @failBlips _ p | @failTableIds _ _ p =>
    obtain ⟨phase, balanced⟩ := h
    change p.phase = .fetching at phase
    refine balanced.failed ?_ ?_
    · trivial
    · rw [Progress.noted_phase, phase, unjudged_fetching]
  | readTableIds => exact ⟨refused_concat _, h.2.silent trivial⟩
  | fetchPage answered ends moves =>
    refine ⟨rfl, ?_, ?_, refused_concat _, h.2.fetched ends moves⟩
    · show (accepted (_ ++ [_] ++ [_])).getLast? = _
      rw [accepted_fetched _ ends moves, List.getLast?_concat]
    · simp [counted, Submissions.next]
  | stall answered ends stays =>
    refine h.2.failed ?_ rfl
    show Call.accepted? _ = none
    rw [accepted?_of_getLast ends, if_pos stays]
  | failFetch =>
    refine h.2.failed ?_ rfl
    show Call.accepted? _ = none
    rfl
  | endLog =>
    refine ⟨refused_concat _, h.2.silent ?_⟩
    show Call.accepted? _ = none
    rfl
  | @malformedPage snapshot page last p e read =>
    obtain ⟨phase, served, -, none, balanced⟩ := h
    change p.phase = .reconciling at phase
    show Balanced settings p.counters p.calls
      (unjudged (.failed ⟨.malformedPath e, p.phase⟩) p.calls)
      (refused p.calls) 0
    rw [phase, none]
    unfold unjudged
    rw [served]
    exact balanced
  | keepPage read none =>
    obtain ⟨-, -, -, -, balanced⟩ := h
    exact ⟨refused_concat _, balanced.judgedPage read (List.length_eq_zero_iff.mpr none)⟩
  | sparePage read some safe =>
    obtain ⟨-, -, -, -, balanced⟩ := h
    exact ⟨refused_concat _, (balanced.judgedPage read rfl).spared safe⟩
  | @confirmPage snapshot page last p cs read some deletes =>
    obtain ⟨-, -, begun, -, balanced⟩ := h
    -- The batch is the first of its page, so it is not counted as submitted again.
    have first : (submissions (judged env (snapshot.judge cs) p).calls).begun = false := by
      rw [judged, Progress.noted_calls, submissions_append]
      exact begun
    show Balanced settings (judged env (snapshot.judge cs) p).counters
      (judged env (snapshot.judge cs) p).calls 0 _ (if _ then _ else 0)
    rw [if_neg (by rw [first]; decide)]
    exact balanced.judgedPage read rfl
  | @failDelete snapshot cursor retries batch p e world answered =>
    have last : refused (p.calls ++ [.delete batch (.error e)]) = batch.length := by
      rw [refused, List.getLast?_concat]
    show Balanced settings p.counters (p.calls ++ [.delete batch (.error e)]) 0
      (refused (p.calls ++ [.delete batch (.error e)])) 0
    rw [last]
    exact h.submitted (.error e) rfl rfl rfl
  | @endDelete snapshot cursor retries batch p report world answered ends =>
    exact ⟨refused_concat _, (h.answered report rfl rfl).givenUp rfl⟩
  | @repeatDelete snapshot cursor retries batch p report world answered some =>
    have begun : (submissions (p.calls ++ [.delete batch (.ok report)])).begun = true := by
      rw [submissions_append]
      rfl
    have again := (h.answered report rfl rfl).repeated (failedOf report batch).length
    rw [Nat.zero_add] at again
    show Balanced settings _ _ 0 _
      (if (submissions (p.calls ++ [.delete batch (.ok report)])).begun then
        (failedOf report batch).length else 0)
    rw [if_pos begun]
    exact again
  | removeDir =>
    refine ⟨refused_concat _, (h.2.silent ?_).removedDir⟩
    trivial
  | failRemove =>
    refine h.2.failed ?_ rfl
    trivial
  | finish => exact h

/-- The counters of every pass add up to what was observed, however the environment answers, and
whether the pass is done, has failed or is cut off.

* The candidates are those that the environment was told of, and those on the accepted pages.
* Those in use or under bulk load are those that the environment was told to be kept.
* Each candidate is in use, under bulk load, confirmed, or on a page with a malformed candidate, on
  which the pass has failed.
* What is deleted are the members of batches that the answers do not list.
* What is submitted again are the members of all batches of a page but the first.
* Unless nothing may be deleted, each confirmed candidate is deleted, left, or in a batch whose
  deletion has failed, and with it the pass. -/
theorem counters_add_up (settings : Settings) (env : Environment σ) (budget : Nat) (world : σ) :
    let ⟨outcome, counters, calls, _⟩ := run settings env budget world
    counters.candidates = total Call.toldCandidates calls ∧
      counters.candidates = ((accepted calls).map List.length).sum ∧
      counters.inUse + counters.blipProtected = total Call.toldKept calls ∧
      counters.candidates =
        counters.inUse + counters.blipProtected + counters.confirmed + unjudged outcome calls ∧
      counters.deleted = (deletedTexts calls).length ∧
      counters.deleteRetries = (submissions calls).repeated ∧
      (settings.safeMode = false →
        counters.confirmed = counters.deleted + counters.deleteFailures + refused calls) := by
  have start : Balanced settings {} [] 0 0 0 := ⟨rfl, rfl, rfl, rfl, rfl, rfl, fun _ => rfl⟩
  obtain ⟨c, balance, ends⟩ := run_invariant settings env
    (fun c => c.point.InBalance settings c.progress) budget world ⟨rfl, start⟩
    fun c d h step => inBalance_step h step
  obtain ⟨told, accepted, kept, judged, deleted, retries, confirmed⟩ :
      Balanced settings (run settings env budget world).counters
        (run settings env budget world).calls
        (unjudged (run settings env budget world).outcome (run settings env budget world).calls)
        (refused (run settings env budget world).calls) 0 := by
    rw [ends.calls, ends.counters]
    rcases houtcome : (run settings env budget world).outcome with _ | failure | _
    · rw [ends.done houtcome] at balance
      obtain ⟨none, balanced⟩ := balance
      rw [none]
      exact balanced
    · obtain ⟨point, phase⟩ := ends.failed failure houtcome
      rw [point] at balance
      rw [← show (⟨failure.cause, c.progress.phase⟩ : Failure) = failure by rw [phase]]
      exact balance
    · obtain ⟨snapshot, cursor, point⟩ := ends.unfinished houtcome
      rw [point] at balance
      obtain ⟨none, balanced⟩ := balance
      rw [none]
      exact balanced
  exact ⟨told, accepted, kept, judged, deleted, retries, confirmed⟩

end Pass

end TabletSweep
