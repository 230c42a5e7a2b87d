import TabletSweep.Proofs.Pass.Paging
import TabletSweep.Proofs.Pass.Rounds

/-!
# The protocol of a pass

A pass makes its calls in a fixed order, and what its last call was says how it ended. A call that
fails is the last one (`Course.last_call`), and a pass is done exactly if it was served an empty
page and nothing failed (`Course.done_iff`). The scans are asked for at the start and never again,
so a pass does not see what becomes of references, bulk loads and tables after that
(`Course.scans_first`).
-/

namespace TabletSweep

namespace Call

/-- Whether a call fails: it is answered with an error, or it is a scan in which something cannot be
read. -/
def Fails (settings : Settings) : Call → Prop
  | .references answer read => Unreadable settings (.references answer read)
  | .blips answer read => Unreadable settings (.blips answer read)
  | .tableIds (.error _) | .candidates _ _ (.error _) | .delete _ (.error _)
  | .removeTableDir _ (.error _) => True
  | _ => False

/-- What a pass is doing if it fails after a call: at the call itself, or at the page that was just
counted. After a page is judged nothing can fail before the next call. -/
def stage? : Call → Option Phase
  | .references .. | .blips .. | .tableIds _ | .candidates .. => some .fetching
  | .countCandidates _ => some .reconciling
  | .countInUse _ => none
  | .delete .. => some .deleting
  | .removeTableDir .. => some .cleaningTableDirs

/-- Whether a call asks for a part of the snapshot. -/
def readsSnapshot : Call → Bool
  | .references .. | .blips .. | .tableIds _ => true
  | _ => false

end Call

namespace Pass

open PassM

variable {settings : Settings} {snapshot : Snapshot} {rounds : List Round} {round : Round}
  {cursor : String} {tables : List String} {calls : List Call} {outcome : Outcome}

/-! ## Calls that fail -/

/-- No call of a list fails. -/
def Smooth (settings : Settings) (calls : List Call) : Prop := ∀ call ∈ calls, ¬call.Fails settings

theorem smooth_append {more : List Call} :
    Smooth settings (calls ++ more) ↔ Smooth settings calls ∧ Smooth settings more :=
  List.forall_mem_append

theorem smooth_round : Smooth settings (round.calls settings snapshot cursor) :=
  Round.forall_calls.mpr ⟨id, id, id, fun _ _ => id⟩

theorem Worked.smooth (worked : Worked settings snapshot rounds cursor calls) :
    Smooth settings calls := by
  induction worked with
  | start live loads =>
    simp only [Smooth, List.forall_mem_cons]
    exact ⟨references_readable live, blips_readable loads, id, by simp⟩
  | round _ _ _ _ ih => exact smooth_append.mpr ⟨ih, smooth_round⟩

theorem Cleaned.smooth (cleaned : Cleaned settings snapshot rounds tables calls) :
    Smooth settings calls := by
  induction cleaned with
  | start worked => exact smooth_append.mpr ⟨worked.smooth, by simp [Smooth, Call.Fails]⟩
  | remove _ _ ih => exact smooth_append.mpr ⟨ih, by simp [Smooth, Call.Fails]⟩

/-- Until a pass fails none of its calls does, and a pass that fails does so in the phase of its
last call. -/
theorem Course.last_call (course : Course settings outcome calls) :
    ∃ init, Smooth settings init ∧
      ((calls = init ∧ ∀ failure, outcome ≠ .failed failure) ∨
        ∃ last failure, calls = init ++ [last] ∧ outcome = .failed failure ∧
          last.stage? = some failure.phase) := by
  cases course with
  | failReferences => exact ⟨[], by simp [Smooth], .inr ⟨_, _, rfl, rfl, rfl⟩⟩
  | @failBlips answer read _ _ _ _ gathered =>
    refine ⟨[.references answer read], ?_, .inr ⟨_, _, rfl, rfl, rfl⟩⟩
    simp only [Smooth, List.forall_mem_singleton]
    exact references_readable gathered
  | @failTableIds answer read _ answer' read' _ _ gathered gathered' =>
    refine ⟨[.references answer read, .blips answer' read'], ?_, .inr ⟨_, _, rfl, rfl, rfl⟩⟩
    simp only [Smooth, List.forall_mem_cons]
    exact ⟨references_readable gathered, blips_readable gathered', by simp⟩
  | unfinished worked => exact ⟨_, worked.smooth, .inl ⟨rfl, nofun⟩⟩
  | failFetch worked | stall worked => exact ⟨_, worked.smooth, .inr ⟨_, _, rfl, rfl, rfl⟩⟩
  | malformedPage worked =>
    refine ⟨_, smooth_append.mpr ⟨worked.smooth, ?_⟩,
      .inr ⟨_, _, (List.append_assoc _ [_] [_]).symm, rfl, rfl⟩⟩
    simp [Smooth, Call.Fails]
  | failDelete worked =>
    exact ⟨_, smooth_append.mpr ⟨worked.smooth, smooth_round⟩, .inr ⟨_, _, rfl, rfl, rfl⟩⟩
  | failRemove cleaned => exact ⟨_, cleaned.smooth, .inr ⟨_, _, rfl, rfl, rfl⟩⟩
  | done cleaned => exact ⟨_, cleaned.smooth, .inl ⟨rfl, nofun⟩⟩

/-! ## The end of the log -/

theorem exhausted_iff : Exhausted calls ↔ [] ∈ pages calls := by
  rw [pages, List.mem_filterMap]
  constructor
  · rintro ⟨cursor, limit, mem⟩
    exact ⟨_, mem, rfl⟩
  · rintro ⟨call, mem, h⟩
    obtain ⟨cursor, limit, rfl⟩ := Call.page?_eq_some_iff.mp h
    exact ⟨cursor, limit, mem⟩

theorem pages_round : pages (round.calls settings snapshot cursor) = [round.page] := by
  have none : pages (round.deletions.map fun d => .delete d.batch (.ok d.report)) = [] :=
    List.filterMap_eq_nil_iff.mpr (List.forall_mem_map.mpr fun _ _ => rfl)
  simp [Round.calls, none, Call.page?]

/-- A pass that is still at work was not served an empty page. -/
theorem Worked.nil_not_mem_pages (worked : Worked settings snapshot rounds cursor calls) :
    [] ∉ pages calls := by
  induction worked with
  | start => simp [Call.page?]
  | round _ ends _ _ ih =>
    rw [pages_append, pages_round, List.mem_append, List.mem_singleton]
    rintro (mem | nil)
    · exact ih mem
    · rw [← nil] at ends
      cases ends

theorem Cleaned.exhausted (cleaned : Cleaned settings snapshot rounds tables calls) :
    Exhausted calls := by
  induction cleaned with
  | start worked => exact ⟨_, _, List.mem_append_right _ (List.mem_singleton_self _)⟩
  | remove _ _ ih => exact ih.append

/-- A pass that was served an empty page has gone on to clean up, and is done unless the removal of
a directory failed. -/
theorem Course.of_exhausted (course : Course settings outcome calls) (exhausted : Exhausted calls) :
    ∃ snapshot rounds tables before, Cleaned settings snapshot rounds tables before ∧
      ((calls = before ∧ tables = [] ∧ outcome = .done) ∨
        ∃ table rest e, tables = table :: rest ∧
          calls = before ++ [.removeTableDir table (.error e)]) := by
  rw [exhausted_iff] at exhausted
  cases course with
  | failReferences | failBlips | failTableIds => simp [Call.page?] at exhausted
  | unfinished worked => exact absurd exhausted worked.nil_not_mem_pages
  | failFetch worked =>
    simp [Call.page?, worked.nil_not_mem_pages] at exhausted
  | stall worked ends | malformedPage worked ends =>
    simp only [pages_append, pages_cons, Call.page?, pages_nil, Option.toList_some,
      Option.toList_none, List.mem_append, List.append_nil, List.mem_singleton,
      worked.nil_not_mem_pages, false_or] at exhausted
    rw [← exhausted] at ends
    cases ends
  | failDelete worked ends =>
    simp only [pages_append, pages_round, pages_cons, Call.page?, pages_nil, Option.toList_none,
      List.mem_append, List.append_nil, List.mem_singleton, worked.nil_not_mem_pages,
      false_or] at exhausted
    rw [← exhausted] at ends
    cases ends
  | failRemove cleaned => exact ⟨_, _, _, _, cleaned, .inr ⟨_, _, _, rfl, rfl⟩⟩
  | done cleaned => exact ⟨_, _, _, _, cleaned, .inl ⟨rfl, rfl, rfl⟩⟩

/-- A pass is done exactly if it was served an empty page and no call of it failed. -/
theorem Course.done_iff (course : Course settings outcome calls) :
    outcome = .done ↔ Exhausted calls ∧ Smooth settings calls := by
  constructor
  · rintro rfl
    cases course with
    | done cleaned => exact ⟨cleaned.exhausted, cleaned.smooth⟩
  · rintro ⟨exhausted, smooth⟩
    obtain ⟨_, _, _, _, -, ⟨-, -, done⟩ | ⟨table, rest, e, -, rfl⟩⟩ :=
      course.of_exhausted exhausted
    · exact done
    · exact absurd trivial (smooth _ (List.mem_append_right _ (List.mem_singleton_self _)))

/-! ## The snapshot -/

/-- No call of a list asks for a part of the snapshot. -/
def Settled (calls : List Call) : Prop := ∀ call ∈ calls, call.readsSnapshot = false

theorem settled_round : Settled (round.calls settings snapshot cursor) :=
  Round.forall_calls.mpr ⟨rfl, rfl, rfl, fun _ _ => rfl⟩

/-- Calls that come after the first three may be added without a look at these. -/
theorem settled_drop_append {more : List Call} (three : 3 ≤ calls.length) :
    Settled ((calls ++ more).drop 3) ↔ Settled (calls.drop 3) ∧ Settled more := by
  rw [List.drop_append_of_le_length three]
  exact List.forall_mem_append

theorem Worked.settled (worked : Worked settings snapshot rounds cursor calls) :
    3 ≤ calls.length ∧ Settled (calls.drop 3) := by
  induction worked with
  | start => exact ⟨Nat.le_refl 3, by simp [Settled]⟩
  | round _ _ _ _ ih =>
    refine ⟨?_, (settled_drop_append ih.1).mpr ⟨ih.2, settled_round⟩⟩
    rw [List.length_append]
    exact Nat.le_add_right_of_le ih.1

theorem Cleaned.settled (cleaned : Cleaned settings snapshot rounds tables calls) :
    3 ≤ calls.length ∧ Settled (calls.drop 3) := by
  induction cleaned with
  | start worked =>
    obtain ⟨three, settled⟩ := worked.settled
    refine ⟨by simp; omega, (settled_drop_append three).mpr ⟨settled, ?_⟩⟩
    simp [Settled, Call.readsSnapshot]
  | remove _ _ ih =>
    refine ⟨by simp; omega, (settled_drop_append ih.1).mpr ⟨ih.2, ?_⟩⟩
    simp [Settled, Call.readsSnapshot]

/-- After its first three calls a pass asks for no part of its snapshot again. -/
theorem Course.scans_first (course : Course settings outcome calls) : Settled (calls.drop 3) := by
  cases course with
  | failReferences | failBlips | failTableIds => simp [Settled]
  | unfinished worked => exact worked.settled.2
  | failFetch worked | stall worked | malformedPage worked =>
    refine (settled_drop_append worked.settled.1).mpr ⟨worked.settled.2, ?_⟩
    simp [Settled, Call.readsSnapshot]
  | failDelete worked =>
    rw [List.append_assoc]
    refine (settled_drop_append worked.settled.1).mpr ⟨worked.settled.2, ?_⟩
    exact List.forall_mem_append.mpr ⟨settled_round, by simp [Call.readsSnapshot]⟩
  | failRemove cleaned =>
    refine (settled_drop_append cleaned.settled.1).mpr ⟨cleaned.settled.2, ?_⟩
    simp [Settled, Call.readsSnapshot]
  | done cleaned => exact cleaned.settled.2

/-! ## The protocol -/

variable {σ : Type}

/-- The calls of every pass are those of a course: the three parts of the snapshot, then rounds,
each with a page that is not empty, the two counts and up to one more deletion than may be repeated,
then an empty page and the removals. A pass is done exactly if it came to an empty page and no call
failed, and is unfinished only if it has asked for all the pages that it may. A call that fails is
the last one and fails the pass, and the last call of a pass that failed tells the phase. No part of
the snapshot is asked for again. -/
theorem calls_follow_course (settings : Settings) (env : Environment σ) (budget : Nat) (world : σ) :
    Course settings (run settings env budget world).outcome
        (run settings env budget world).calls ∧
      ((run settings env budget world).outcome = .done ↔
        Exhausted (run settings env budget world).calls ∧
          Smooth settings (run settings env budget world).calls) ∧
      ((run settings env budget world).outcome = .unfinished →
        fetches (run settings env budget world).calls = budget) ∧
      (∀ before call after,
        (run settings env budget world).calls = before ++ call :: after → call.Fails settings →
          after = [] ∧ ∃ failure, (run settings env budget world).outcome = .failed failure) ∧
      (∀ failure, (run settings env budget world).outcome = .failed failure →
        ∃ last, (run settings env budget world).calls.getLast? = some last ∧
          last.stage? = some failure.phase) ∧
      Settled ((run settings env budget world).calls.drop 3) := by
  have course := course_run settings env budget world
  obtain ⟨init, smooth, ending⟩ := course.last_call
  refine ⟨course, course.done_iff, fun unfinished => ?_, ?_, ?_, course.scans_first⟩
  · obtain ⟨c, -, ends, pages⟩ := exists_reaches_run settings env budget world
    rw [ends.calls]
    exact pages unfinished
  · intro before call after hcalls fails
    rcases ending with ⟨hinit, -⟩ | ⟨last, failure, hinit, failed, -⟩
    · rw [hinit] at hcalls
      exact absurd fails (smooth call (hcalls ▸ by simp))
    · refine ⟨?_, failure, failed⟩
      rw [hinit] at hcalls
      -- A call with others after it is one of those that are known not to fail.
      rcases List.eq_nil_or_concat after with hnil | ⟨others, x, rfl⟩
      · exact hnil
      · have hcalls' : init ++ [last] = (before ++ call :: others) ++ [x] := by simpa using hcalls
        obtain ⟨rfl, -⟩ := List.append_inj' hcalls' rfl
        exact absurd fails (smooth call (by simp))
  · intro failure failed
    rcases ending with ⟨-, others⟩ | ⟨last, failure', hcalls, failed', stage⟩
    · exact absurd failed (others failure)
    · rw [failed] at failed'
      cases failed'
      exact ⟨last, by rw [hcalls, List.getLast?_concat], stage⟩

section Refused

open Simulation

/-- A log with two files, one of which fails to be deleted at first, when the second deletion is
refused. -/
def refusingWorld : World where
  log := ⟨["1/t-1/A.rf", "1/t-1/B.rf"], by decide +kernel⟩
  deleteFailures := [("1/t-1/B.rf", 1)]
  outages := [⟨.delete, 1, .unavailable "storage"⟩]

/-- The deletion that is refused is the last call, and the pass fails while it deletes. -/
theorem refused_deletion_is_last :
    ∃ before failure, (runPass { onFailure := .retry 1 } refusingWorld).calls =
        before ++ [.delete [⟨"1/t-1/B.rf", ⟨"1", "t-1", some "B.rf"⟩⟩]
          (.error (.unavailable "storage"))] ∧
      (runPass { onFailure := .retry 1 } refusingWorld).outcome = .failed failure ∧
      failure.phase = .deleting := by
  have split : (runPass { onFailure := .retry 1 } refusingWorld).calls =
      (runPass { onFailure := .retry 1 } refusingWorld).calls.take 7 ++
        .delete [⟨"1/t-1/B.rf", ⟨"1", "t-1", some "B.rf"⟩⟩] (.error (.unavailable "storage")) ::
          (runPass { onFailure := .retry 1 } refusingWorld).calls.drop 8 := by
    decide +kernel
  obtain ⟨-, -, -, fails_last, phase, -⟩ := calls_follow_course { onFailure := .retry 1 }
    environment refusingWorld.pageBudget refusingWorld.beginPass
  obtain ⟨none, failure, failed⟩ := fails_last _ _ _ split trivial
  obtain ⟨last, hlast, stage⟩ := phase failure failed
  rw [show (runPass { onFailure := .retry 1 } refusingWorld).calls.drop 8 = [] from none] at split
  have same : last = .delete [⟨"1/t-1/B.rf", ⟨"1", "t-1", some "B.rf"⟩⟩]
      (.error (.unavailable "storage")) := by
    change (runPass { onFailure := .retry 1 } refusingWorld).calls.getLast? = some last at hlast
    rw [split, List.getLast?_concat] at hlast
    exact (Option.some.inj hlast).symm
  rw [same] at stage
  exact ⟨_, failure, split, failed, (Option.some.inj stage).symm⟩

end Refused

end Pass

end TabletSweep
