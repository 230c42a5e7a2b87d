import Mathlib.Data.Finset.Card
import Mathlib.Data.List.Infix
import TabletSweep.Proofs.Pass.Protocol

/-!
# A pass comes to an end

The cursor is empty only at first: a page that ends with the empty text moves past every cursor that
is checked, but it cannot be read, and so fails the pass before its end becomes a cursor. From page
to page the cursors therefore ascend strictly, whatever the log answers (`Trail`), and the pages
that a pass has worked through all end with different texts.

So if there are only finitely many texts that pages end with, then a pass asks for at most one page
more than that, and deletes at most so many times, each counted with its repetitions
(`pass_over_finite_log_ends`).
-/

namespace TabletSweep

namespace Call

/-- The cursor of a request for a page. -/
def cursor? : Call → Option String
  | .candidates cursor _ _ => some cursor
  | _ => none

/-- Whether a call is a deletion. -/
def isDelete : Call → Bool
  | .delete .. => true
  | _ => false

end Call

namespace Pass

variable {settings : Settings} {snapshot : Snapshot} {rounds : List Round} {round : Round}
  {cursor last : String} {calls more : List Call} {outcome : Outcome} {ends : List String}

/-! ## Counting requests -/

/-- The cursors of the requests for a page, in order. -/
def cursors (calls : List Call) : List String := calls.filterMap Call.cursor?

@[simp] theorem cursors_append (cs ds : List Call) :
    cursors (cs ++ ds) = cursors cs ++ cursors ds := List.filterMap_append

theorem length_cursors (calls : List Call) : (cursors calls).length = fetches calls := by
  rw [cursors, List.length_filterMap_eq_countP, fetches]
  refine List.countP_congr fun call _ => ?_
  cases call <;> rfl

/-- The number of deletions that were requested. -/
def deletions (calls : List Call) : Nat := calls.countP Call.isDelete

@[simp] theorem deletions_append (cs ds : List Call) :
    deletions (cs ++ ds) = deletions cs + deletions ds := List.countP_append

theorem cursors_round : cursors (round.calls settings snapshot cursor) = [cursor] := by
  have none : cursors (round.deletions.map fun d => .delete d.batch (.ok d.report)) = [] :=
    List.filterMap_eq_nil_iff.mpr (List.forall_mem_map.mpr fun _ _ => rfl)
  rw [Round.calls, cursors_append, none]
  rfl

theorem deletions_round :
    deletions (round.calls settings snapshot cursor) = round.deletions.length := by
  have all : deletions (round.deletions.map fun d => .delete d.batch (.ok d.report)) =
      round.deletions.length := by
    rw [deletions, List.countP_map]
    exact List.countP_eq_length.mpr fun _ _ => rfl
  rw [Round.calls, deletions_append, all]
  exact Nat.zero_add _

/-! ## The way of the cursor -/

/-- A page that can be read does not end with the empty text, which has no key. -/
theorem getLast_ne_empty_of_ofPage {page : List String} {cs : List Candidate}
    (read : Candidate.ofPage settings.tablesDir page = .ok cs) (hlast : page.getLast? = some last) :
    last ≠ "" := by
  obtain ⟨rfl, keys⟩ := ofPage_eq_ok_iff.mp read
  obtain ⟨c, hc, rfl⟩ := List.mem_map.mp (List.mem_of_getLast? hlast)
  intro empty
  have key := keys c hc
  rw [empty] at key
  cases key

variable (settings calls) in
/-- What is known once a pass has worked through some pages, of which these are the last texts: the
cursors so far and the next are the empty one and the ends of the pages, which ascend, and each page
has brought at most one deletion and its repetitions. -/
structure Trail (cursor : String) (ends : List String) : Prop where
  asked : cursors calls ++ [cursor] = "" :: ends
  ascending : ("" :: ends).Pairwise (· < ·)
  served : ∀ x ∈ ends, x ∈ (pages calls).flatten
  few : deletions calls ≤ (1 + settings.onFailure.retries) * ends.length

theorem Trail.length_ends (trail : Trail settings calls cursor ends) :
    ends.length = fetches calls := by
  have length := congrArg List.length trail.asked
  rw [List.length_append, List.length_singleton, List.length_cons, length_cursors] at length
  exact (Nat.succ.inj length).symm

/-- A page that is worked through after its cursor ends beyond all pages before. -/
theorem Trail.page (trail : Trail settings calls cursor ends) (nonempty : last ≠ "")
    (moves : ¬(cursor ≠ "" ∧ last ≤ cursor)) (next : cursors more = [cursor])
    (served : last ∈ (pages more).flatten)
    (few : deletions more ≤ 1 + settings.onFailure.retries) :
    Trail settings (calls ++ more) last (ends ++ [last]) where
  asked := by
    rw [cursors_append, next, trail.asked]
    rfl
  ascending := by
    have beyond : cursor < last := by
      by_cases hcursor : cursor = ""
      · rw [hcursor]
        exact empty_lt_of_ne nonempty
      · exact String.not_le.mp fun hle => moves ⟨hcursor, hle⟩
    have hcursor : ("" :: ends).getLast? = some cursor := by
      rw [← trail.asked, List.getLast?_concat]
    rw [← List.cons_append]
    refine List.pairwise_append.mpr ⟨trail.ascending, List.pairwise_singleton .., ?_⟩
    intro x hx y hy
    obtain rfl := List.mem_singleton.mp hy
    exact Std.lt_of_le_of_lt (le_getLast_of_ascending trail.ascending hcursor hx) beyond
  served x hx := by
    rw [pages_append, List.flatten_append, List.mem_append]
    rcases List.mem_append.mp hx with hx | hx
    · exact .inl (trail.served x hx)
    · obtain rfl := List.mem_singleton.mp hx
      exact .inr served
  few := by
    have before := trail.few
    rw [deletions_append, List.length_append, List.length_singleton, Nat.mul_add, Nat.mul_one]
    omega

theorem Worked.exists_trail (worked : Worked settings snapshot rounds cursor calls) :
    ∃ ends, Trail settings calls cursor ends := by
  induction worked with
  | start => exact ⟨[], rfl, List.pairwise_singleton .., nofun, Nat.le_refl 0⟩
  | round _ hlast moves complete ih =>
    obtain ⟨ends, trail⟩ := ih
    have nonempty := getLast_ne_empty_of_ofPage complete.read hlast
    refine ⟨_, trail.page nonempty moves cursors_round ?_ ?_⟩
    · rw [pages_round, List.flatten_singleton]
      exact List.mem_of_getLast? hlast
    · rw [deletions_round]
      exact complete.few

/-- After its last page a pass requests nothing but the removal of directories. -/
theorem Cleaned.exists_trail {tables : List String}
    (cleaned : Cleaned settings snapshot rounds tables calls) :
    ∃ before cursor ends more, calls = before ++ more ∧ Trail settings before cursor ends ∧
      cursors more = [cursor] ∧ deletions more = 0 := by
  induction cleaned with
  | start worked =>
    obtain ⟨ends, trail⟩ := worked.exists_trail
    exact ⟨_, _, ends, _, rfl, trail, rfl, rfl⟩
  | remove _ _ ih =>
    obtain ⟨before, cursor, ends, more, rfl, trail, next, none⟩ := ih
    refine ⟨before, cursor, ends, _, List.append_assoc .., trail, ?_, ?_⟩
    · rw [cursors_append, next]
      rfl
    · rw [deletions_append, none]
      rfl

variable (settings outcome calls) in
/-- What is known of the requests of a whole pass, and of the ends of pages that can be read: the
cursors are the empty one and then some of the ends, which ascend, and for each of them there is at
most one deletion with its repetitions. A pass that is cut off has an end for every page. -/
structure Paced (ends : List String) : Prop where
  asked : cursors calls <+: "" :: ends
  ascending : ("" :: ends).Pairwise (· < ·)
  served : ∀ x ∈ ends, x ∈ (pages calls).flatten
  few : deletions calls ≤ (1 + settings.onFailure.retries) * ends.length
  unfinished : outcome = .unfinished → fetches calls ≤ ends.length

/-- A pass that goes on with one more request for a page and no further deletion. -/
theorem Trail.paced (trail : Trail settings calls cursor ends) (next : cursors more = [cursor])
    (none : deletions more = 0) (ended : outcome ≠ .unfinished) :
    Paced settings (calls ++ more) outcome ends where
  asked := by
    rw [cursors_append, next, trail.asked]
  ascending := trail.ascending
  served x hx := by
    rw [pages_append, List.flatten_append]
    exact List.mem_append_left _ (trail.served x hx)
  few := by
    rw [deletions_append, none]
    exact trail.few
  unfinished h := absurd h ended

theorem Course.exists_paced (course : Course settings outcome calls) :
    ∃ ends, Paced settings calls outcome ends := by
  cases course with
  | failReferences | failBlips | failTableIds =>
    exact ⟨[], List.nil_prefix, List.pairwise_singleton .., nofun, Nat.zero_le _, nofun⟩
  | unfinished worked =>
    obtain ⟨ends, trail⟩ := worked.exists_trail
    exact ⟨ends, ⟨_, trail.asked⟩, trail.ascending, trail.served, trail.few,
      fun _ => trail.length_ends.ge⟩
  | failFetch worked | stall worked | malformedPage worked =>
    obtain ⟨ends, trail⟩ := worked.exists_trail
    exact ⟨ends, trail.paced rfl rfl nofun⟩
  | @failDelete snapshot _ cursor calls last _ e round worked hlast moves deleting =>
    obtain ⟨ends, trail⟩ := worked.exists_trail
    rw [List.append_assoc]
    -- The page that is being deleted was read, so it has an end like those before.
    have trail' : Trail settings (calls ++ (round.calls settings snapshot cursor ++
        [.delete round.left (.error e)])) last (ends ++ [last]) := by
      refine trail.page (getLast_ne_empty_of_ofPage deleting.read hlast) moves ?_ ?_ ?_
      · rw [cursors_append, cursors_round]
        rfl
      · simp [pages_round, List.mem_of_getLast? hlast]
      · have bound := deleting.bound
        rw [deletions_append, deletions_round]
        change _ + 1 ≤ _
        omega
    exact ⟨_, ⟨_, trail'.asked⟩, trail'.ascending, trail'.served, trail'.few, nofun⟩
  | failRemove cleaned =>
    obtain ⟨before, cursor, ends, more, rfl, trail, next, none⟩ := cleaned.exists_trail
    rw [List.append_assoc]
    refine ⟨ends, trail.paced ?_ ?_ nofun⟩
    · rw [cursors_append, next]
      rfl
    · rw [deletions_append, none]
      rfl
  | done cleaned =>
    obtain ⟨before, cursor, ends, more, rfl, trail, next, none⟩ := cleaned.exists_trail
    exact ⟨ends, trail.paced next none nofun⟩

section Paced

variable (paced : Paced settings calls outcome ends) {texts : Finset String}
include paced

/-- Each end is another text. -/
theorem Paced.length_ends_le (drawn : ∀ page ∈ pages calls, ∀ x ∈ page, x ∈ texts) :
    ends.length ≤ texts.card := by
  have distinct : ends.Nodup :=
    (List.pairwise_cons.mp paced.ascending).2.imp fun hlt => String.ne_of_lt hlt
  rw [← List.toFinset_card_of_nodup distinct]
  refine Finset.card_le_card fun x hx => ?_
  obtain ⟨page, hpage, hmem⟩ := List.mem_flatten.mp (paced.served x (List.mem_toFinset.mp hx))
  exact drawn page hpage x hmem

theorem Paced.fetches_le : fetches calls ≤ ends.length + 1 := by
  rw [← length_cursors]
  exact paced.asked.length_le

/-- The cursors after the first ascend, and none of them is empty. -/
theorem Paced.cursors_tail :
    (∀ cursor ∈ (cursors calls).tail, cursor ≠ "") ∧ (cursors calls).tail.Pairwise (· < ·) := by
  obtain ⟨beyond, ascending⟩ := List.pairwise_cons.mp paced.ascending
  have tail : (cursors calls).tail <+: ends := by
    simpa only [List.drop_one, List.tail_cons] using List.IsPrefix.drop paced.asked 1
  refine ⟨?_, ascending.sublist tail.sublist⟩
  rintro cursor hcursor rfl
  exact String.lt_irrefl _ (beyond _ (tail.subset hcursor))

end Paced

variable {σ : Type}

/-- A pass that may ask for more pages than there are texts on them is not cut off. -/
theorem finished_of_drawn {env : Environment σ} {budget : Nat} {world : σ} {texts : Finset String}
    (drawn : ∀ page ∈ pages (run settings env budget world).calls, ∀ x ∈ page, x ∈ texts)
    (enough : texts.card < budget) : (run settings env budget world).outcome ≠ .unfinished := by
  intro unfinished
  obtain ⟨ends, paced⟩ := (course_run settings env budget world).exists_paced
  have few := paced.length_ends_le drawn
  have pages := paced.unfinished unfinished
  obtain ⟨c, -, reached, all⟩ := exists_reaches_run settings env budget world
  have all := all unfinished
  rw [← reached.calls] at all
  omega

/-- However the environment answers: if the pages of a pass hold only texts of a finite set, then
the pass asks for at most one page more than the set has texts, and for each text at most one
deletion with its repetitions; it is cut off only if it may not ask for more pages than there are
texts. The cursors after the first are not empty and ascend strictly. -/
theorem pass_over_finite_log_ends (settings : Settings) (env : Environment σ) (budget : Nat)
    (world : σ) (texts : Finset String)
    (drawn : ∀ page ∈ pages (run settings env budget world).calls, ∀ x ∈ page, x ∈ texts) :
    fetches (run settings env budget world).calls ≤ texts.card + 1 ∧
      deletions (run settings env budget world).calls ≤
        (1 + settings.onFailure.retries) * texts.card ∧
      (texts.card < budget → (run settings env budget world).outcome ≠ .unfinished) ∧
      (∀ cursor ∈ (cursors (run settings env budget world).calls).tail, cursor ≠ "") ∧
      (cursors (run settings env budget world).calls).tail.Pairwise (· < ·) := by
  obtain ⟨ends, paced⟩ := (course_run settings env budget world).exists_paced
  have few := paced.length_ends_le drawn
  have fetches : fetches (run settings env budget world).calls ≤ texts.card + 1 :=
    paced.fetches_le.trans (Nat.succ_le_succ few)
  have deletions := paced.few.trans (Nat.mul_le_mul_left (1 + settings.onFailure.retries) few)
  exact ⟨fetches, deletions, finished_of_drawn drawn, paced.cursors_tail⟩

section Looping

open Simulation

/-- A log that serves the same two texts over and over, whose deletions fail now and then. -/
def loopingWorld : World where
  script := some [["1/t-1/B.rf", "1/t-1/A.rf"], ["1/t-1/A.rf", "1/t-1/B.rf"], ["1/t-1/B.rf"]]
  deleteFailures := [("1/t-1/A.rf", 1), ("1/t-1/B.rf", 3)]

/-- The pass over such a log stalls at its third page, and has then made as many requests as there
can be for two texts. -/
theorem looping_log_stalls :
    (run { onFailure := .retry 1 } environment 3 loopingWorld).outcome =
        .failed ⟨.stalled "1/t-1/B.rf", .fetching⟩ ∧
      fetches (run { onFailure := .retry 1 } environment 3 loopingWorld).calls = 3 ∧
      deletions (run { onFailure := .retry 1 } environment 3 loopingWorld).calls = 4 ∧
      (run { onFailure := .retry 1 } environment 3 loopingWorld).outcome ≠ .unfinished ∧
      (cursors (run { onFailure := .retry 1 } environment 3 loopingWorld).calls).tail.Pairwise
        (· < ·) := by
  obtain ⟨pages, repeats, ends, -, ascending⟩ :=
    pass_over_finite_log_ends { onFailure := .retry 1 } environment 3 loopingWorld
      {"1/t-1/A.rf", "1/t-1/B.rf"} (by decide +kernel)
  refine ⟨by decide +kernel, Nat.le_antisymm pages ?_, Nat.le_antisymm repeats ?_,
    ends (by decide +kernel), ascending⟩ <;> decide +kernel

end Looping

end Pass

end TabletSweep
