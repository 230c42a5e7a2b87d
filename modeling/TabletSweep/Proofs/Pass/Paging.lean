import Mathlib.Data.List.Induction
import TabletSweep.Proofs.Ascending
import TabletSweep.Proofs.Pass.Machine
import TabletSweep.Proofs.Reading
import TabletSweep.Simulation.Environment

/-!
# Paging through a log that changes

Every request for a page asks for what follows the last text that was served, and a pass that is
done was served an empty page (`paged_run`). So if each page holds the texts of the log that come
next, be the log another one at every request, then the pages ascend (`pages_ascending`), no page
makes the pass stall (`not_stalled`), and a text that stays in the log until it is served is served
(`shows_of_stays`, `mem_pages_of_exhausted`). The three are put together in
`pages_lose_and_repeat_nothing`.
-/

namespace TabletSweep

theorem Call.page?_eq_some_iff {call : Call} {page : List String} :
    call.page? = some page ↔ ∃ cursor limit, call = .candidates cursor limit (.ok page) := by
  constructor
  · intro h
    match call, h with
    | .candidates cursor limit (.ok _), rfl => exact ⟨cursor, limit, rfl⟩
  · rintro ⟨cursor, limit, rfl⟩
    rfl

namespace Pass

/-! ## The cursor -/

variable {σ : Type} (settings : Settings) (env : Environment σ) {calls more : List Call}

/-- The last text that was served, which is empty before there is one. -/
def lastText (calls : List Call) : String := (pages calls).flatten.getLast?.getD ""

theorem lastText_append (h : pages more = []) : lastText (calls ++ more) = lastText calls := by
  rw [lastText, pages_append, h, List.append_nil, lastText]

theorem lastText_append_page {page : List String} {last : String} (h : pages more = [page])
    (hlast : page.getLast? = some last) : lastText (calls ++ more) = last := by
  rw [lastText, pages_append, h, List.flatten_append, List.flatten_singleton, List.getLast?_append,
    hlast]
  rfl

/-- A request for a page asks for as many texts as the settings say, of those that follow the last
one that was served. -/
def Continues (before : List Call) : Call → Prop
  | .candidates cursor limit _ => cursor = lastText before ∧ limit = settings.batchSize
  | _ => True

/-- An empty page was served. -/
def Exhausted (calls : List Call) : Prop :=
  ∃ cursor limit, .candidates cursor limit (.ok []) ∈ calls

/-- A page was served that ends at or before its cursor. -/
def Stalled (cursor : String) (calls : List Call) : Prop :=
  ∃ limit page last, .candidates cursor limit (.ok page) ∈ calls ∧ page.getLast? = some last ∧
    last ≤ cursor

/-- What is known at a point of a pass about the pages that were served. -/
def Point.Paged (calls : List Call) : Point → Prop
  | .references | .blips _ | .tableIds .. => pages calls = []
  | .fetch _ cursor | .delete _ cursor .. => cursor = lastText calls
  | .judge _ _ last => last = lastText calls
  | .clean .. | .done => Exhausted calls
  | .failed (.stalled cursor) => Stalled cursor calls
  | .failed _ => True

/-- All requests for a page continue the pages before, and so does the point of a configuration. -/
def Paged (c : Config σ) : Prop :=
  EachCall (Continues settings) c.progress.calls ∧ c.point.Paged c.progress.calls

theorem Exhausted.append (h : Exhausted calls) : Exhausted (calls ++ more) := by
  obtain ⟨cursor, limit, mem⟩ := h
  exact ⟨cursor, limit, List.mem_append_left more mem⟩

variable {settings env} {c d : Config σ}

theorem paged_start (world : σ) : Paged settings ⟨.references, { world }⟩ := ⟨eachCall_nil, rfl⟩

theorem paged_step (h : Paged settings c) (step : Step settings env c d) : Paged settings d := by
  obtain ⟨each, point⟩ := h
  cases step with
  | @readReferences p | @readBlips _ p =>
    have none : pages p.calls = [] := point
    exact ⟨eachCall_concat.mpr ⟨each, trivial⟩, by simp [Point.Paged, none, Call.page?]⟩
  | failReferences answered gathered =>
    refine ⟨eachCall_concat.mpr ⟨each, trivial⟩, ?_⟩
    obtain ⟨e, rfl⟩ | ⟨live, entry, htake⟩ := readAnswer_error gathered
    · trivial
    · obtain ⟨e, rfl⟩ := takeEntry_error htake
      trivial
  | failBlips answered gathered =>
    refine ⟨eachCall_concat.mpr ⟨each, trivial⟩, ?_⟩
    obtain ⟨e, rfl⟩ | ⟨loads, blip, htake⟩ := readAnswer_error gathered
    · trivial
    · obtain ⟨e, rfl⟩ := takeBlip_error htake
      trivial
  | @readTableIds _ _ p =>
    have none : pages p.calls = [] := point
    refine ⟨eachCall_concat.mpr ⟨each, trivial⟩, ?_⟩
    change "" = lastText (p.calls ++ _)
    rw [lastText_append rfl, lastText, none]
    rfl
  | failTableIds => exact ⟨eachCall_concat.mpr ⟨each, trivial⟩, trivial⟩
  | fetchPage answered ends moves =>
    refine ⟨eachCall_concat.mpr ⟨eachCall_concat.mpr ⟨each, point, rfl⟩, trivial⟩, ?_⟩
    change _ = lastText (_ ++ [_])
    rw [lastText_append rfl]
    exact (lastText_append_page rfl ends).symm
  | stall answered ends stays =>
    refine ⟨eachCall_concat.mpr ⟨each, point, rfl⟩, ?_⟩
    exact ⟨_, _, _, List.mem_append_right _ (List.mem_singleton_self _), ends, stays.2⟩
  | failFetch => exact ⟨eachCall_concat.mpr ⟨each, point, rfl⟩, trivial⟩
  | endLog =>
    refine ⟨eachCall_concat.mpr ⟨each, point, rfl⟩, ?_⟩
    exact ⟨_, _, List.mem_append_right _ (List.mem_singleton_self _)⟩
  | malformedPage => exact ⟨each, trivial⟩
  | keepPage | sparePage | confirmPage =>
    refine ⟨eachCall_concat.mpr ⟨each, trivial⟩, point.trans ?_⟩
    exact (lastText_append rfl).symm
  | failDelete | failRemove => exact ⟨eachCall_concat.mpr ⟨each, trivial⟩, trivial⟩
  | endDelete | repeatDelete =>
    refine ⟨eachCall_concat.mpr ⟨each, trivial⟩, point.trans ?_⟩
    exact (lastText_append rfl).symm
  | removeDir => exact ⟨eachCall_concat.mpr ⟨each, trivial⟩, Exhausted.append point⟩
  | finish => exact ⟨each, point⟩

variable (settings env) in
/-- Every pass asks for its pages one after another. It is done only once an empty page was served,
and stalls only at a page that ends at or before its cursor. -/
theorem paged_run (budget : Nat) (world : σ) :
    EachCall (Continues settings) (run settings env budget world).calls ∧
      ((run settings env budget world).outcome = .done →
        Exhausted (run settings env budget world).calls) ∧
      ∀ cursor phase, (run settings env budget world).outcome = .failed ⟨.stalled cursor, phase⟩ →
        Stalled cursor (run settings env budget world).calls := by
  obtain ⟨c, ⟨each, point⟩, ends⟩ := run_invariant settings env (Paged settings) budget world
    (paged_start world) fun c d h step => paged_step h step
  rw [ends.calls]
  refine ⟨each, fun done => ?_, fun cursor phase failed => ?_⟩
  · rw [ends.done done] at point
    exact point
  · rw [(ends.failed _ failed).1] at point
    exact point

/-! ## Pages that ascend -/

/-- A page that is served ascends, and begins after its cursor. -/
def Follows (_ : List Call) : Call → Prop
  | .candidates cursor _ (.ok page) => page.Pairwise (· < ·) ∧ ∀ x ∈ page, cursor < x
  | _ => True

/-- The start of what follows a cursor in a log. -/
theorem follows_take_after (log : NameSet) (cursor : String) (limit n : Nat) :
    Follows calls (.candidates cursor limit (.ok ((log.after cursor).take n))) :=
  ⟨(NameSet.sorted_after ..).take,
    fun _ hx => (NameSet.mem_after.mp (List.mem_of_mem_take hx)).2⟩

/-- A call follows if the page that it serves, if any, is the start of what follows its cursor in a
log. -/
theorem follows_of_take {call : Call} (h : ∀ cursor limit page,
    call = .candidates cursor limit (.ok page) →
      ∃ (log : NameSet) (n : Nat), page = (log.after cursor).take n) : Follows calls call := by
  match call, h with
  | .candidates cursor limit (.ok page), h =>
    obtain ⟨log, n, rfl⟩ := h cursor limit page rfl
    exact follows_take_after ..
  | .candidates _ _ (.error _), _ | .references .., _ | .blips .., _ | .tableIds _, _
  | .countCandidates _, _ | .countInUse _, _ | .delete .., _ | .removeTableDir .., _ => trivial

section Follows

variable (follows : EachCall Follows calls)
include follows

/-- No page that begins after its cursor ends at or before it. -/
theorem not_stalled {cursor : String} : ¬Stalled cursor calls := by
  rintro ⟨limit, page, last, mem, hlast, hle⟩
  obtain ⟨before, after, h⟩ := List.append_of_mem mem
  have beyond := (follows before _ after h).2 last (List.mem_of_getLast? hlast)
  exact absurd hle (String.not_le.mpr beyond)

/-- Pages that continue those before ascend, from text to text and from page to page. -/
theorem pages_ascending (continues : EachCall (Continues settings) calls) :
    (pages calls).flatten.Pairwise (· < ·) := by
  induction calls using List.reverseRecOn with
  | nil => exact .nil
  | append_singleton calls call ih =>
    obtain ⟨continues, hcursor⟩ := eachCall_concat.mp continues
    obtain ⟨follows, hpage⟩ := eachCall_concat.mp follows
    have before := ih follows continues
    rw [pages_append, List.flatten_append]
    cases h : call.page? with
    | none => simpa [h] using before
    | some page =>
      obtain ⟨cursor, limit, rfl⟩ := Call.page?_eq_some_iff.mp h
      obtain ⟨rfl, -⟩ := hcursor
      obtain ⟨ascending, beyond⟩ := hpage
      rw [pages_cons, h, pages_nil, Option.toList_some, List.append_nil, List.flatten_singleton]
      refine List.pairwise_append.mpr ⟨before, ascending, fun x hx y hy => ?_⟩
      -- What was served before ends with the cursor, and the page begins after it.
      rcases hlast : (pages calls).flatten.getLast? with _ | last
      · rw [List.getLast?_eq_none_iff.mp hlast] at hx
        cases hx
      · have hcursor : lastText calls = last := by rw [lastText, hlast, Option.getD_some]
        have beyond_last : last < y := hcursor ▸ beyond y hy
        exact Std.lt_of_le_of_lt (le_getLast_of_ascending before hlast hx) beyond_last

end Follows

/-! ## Pages that get past a text -/

/-- A page that is served does not get past a text that follows its cursor and was not served
before: it holds the text, or it ends before that. -/
def Shows (x : String) (before : List Call) : Call → Prop
  | .candidates cursor _ (.ok page) => x ∉ (pages before).flatten → cursor < x →
    x ∈ page ∨ ∃ last, page.getLast? = some last ∧ last < x
  | _ => True

/-- The start of what follows a cursor in a log shows what is in the log, if it is not cut off at
nothing. -/
theorem shows_take_after {log : NameSet} {x cursor : String} {limit n : Nat} (some_texts : 1 ≤ n)
    (stays : x ∉ (pages calls).flatten → x ∈ log) :
    Shows x calls (.candidates cursor limit (.ok ((log.after cursor).take n))) := by
  intro unserved beyond
  have hafter := NameSet.mem_after.mpr ⟨stays unserved, beyond⟩
  rcases hlast : ((log.after cursor).take n).getLast? with _ | last
  · rcases List.take_eq_nil_iff.mp (List.getLast?_eq_none_iff.mp hlast) with none | none
    · omega
    · rw [none] at hafter
      cases hafter
  · by_cases hle : x ≤ last
    · exact .inl (mem_take_of_le_getLast (NameSet.sorted_after ..) hlast hafter hle)
    · exact .inr ⟨last, rfl, String.not_le.mp hle⟩

/-- A call shows a text if the page that it serves, if any, is the start of what follows its cursor
in a log that has the text. -/
theorem shows_of_take {call : Call} {x : String} (h : ∀ cursor limit page,
    call = .candidates cursor limit (.ok page) → ∃ (log : NameSet) (n : Nat), 1 ≤ n ∧
      page = (log.after cursor).take n ∧ (x ∉ (pages calls).flatten → x ∈ log)) :
    Shows x calls call := by
  match call, h with
  | .candidates cursor limit (.ok page), h =>
    obtain ⟨log, n, some_texts, rfl, stays⟩ := h cursor limit page rfl
    exact shows_take_after some_texts stays
  | .candidates _ _ (.error _), _ | .references .., _ | .blips .., _ | .tableIds _, _
  | .countCandidates _, _ | .countInUse _, _ | .delete .., _ | .removeTableDir .., _ => trivial

section Shows

variable (continues : EachCall (Continues settings) calls) {x : String}
  (shows : EachCall (Shows x) calls) (nonempty : x ≠ "")
include continues shows nonempty

/-- A text that is shown is served by the time that the pages have got past it. -/
theorem mem_pages_of_le_lastText (hle : x ≤ lastText calls) : x ∈ (pages calls).flatten := by
  induction calls using List.reverseRecOn with
  | nil => exact absurd hle (String.not_le.mpr (empty_lt_of_ne nonempty))
  | append_singleton calls call ih =>
    obtain ⟨continues, hcursor⟩ := eachCall_concat.mp continues
    obtain ⟨shows, hpage⟩ := eachCall_concat.mp shows
    have earlier := ih continues shows
    rw [pages_append, List.flatten_append, List.mem_append]
    by_cases hbefore : x ∈ (pages calls).flatten
    · exact .inl hbefore
    have hlt : lastText calls < x := String.not_le.mp fun hle => hbefore (earlier hle)
    cases h : call.page? with
    | none =>
      rw [lastText_append (by simp [h])] at hle
      exact absurd hle (String.not_le.mpr hlt)
    | some page =>
      have served : pages [call] = [page] := by simp [h]
      obtain ⟨cursor, limit, rfl⟩ := Call.page?_eq_some_iff.mp h
      obtain ⟨rfl, -⟩ := hcursor
      refine .inr ?_
      rw [served, List.flatten_singleton]
      refine (hpage hbefore hlt).resolve_right ?_
      rintro ⟨last, hlast, short⟩
      rw [lastText_append_page served hlast] at hle
      exact absurd hle (String.not_le.mpr short)

/-- A text that is shown is served by the time that a page is empty. -/
theorem mem_pages_of_exhausted (exhausted : Exhausted calls) : x ∈ (pages calls).flatten := by
  obtain ⟨cursor, limit, mem⟩ := exhausted
  obtain ⟨before, after, rfl⟩ := List.append_of_mem mem
  rw [pages_append, List.flatten_append, List.mem_append]
  by_cases hbefore : x ∈ (pages before).flatten
  · exact .inl hbefore
  obtain ⟨rfl, -⟩ := continues before _ after rfl
  -- The empty page holds nothing and has no end, so the text does not follow the cursor.
  have hle : x ≤ lastText before := by
    refine String.not_lt.mp fun hlt => ?_
    rcases shows before _ after rfl hbefore hlt with mem | ⟨_, ends, -⟩
    · cases mem
    · cases ends
  exact .inl (mem_pages_of_le_lastText continues.of_append shows.of_append nonempty hle)

end Shows

/-! ## Pages of a log -/

/-- A page that is served holds the texts of the log that follow the cursor, as many as both the
limit and a cap allow. The log and the cap may be others at every request. -/
def Serves (logs : Nat → NameSet) (caps : Nat → Nat) (before : List Call) : Call → Prop
  | .candidates cursor limit (.ok page) =>
    page = ((logs (fetches before)).after cursor).take (min limit (caps (fetches before)))
  | _ => True

/-- A text is in the log at a request for a page, unless it has been served before. -/
def Stays (logs : Nat → NameSet) (x : String) (before : List Call) : Call → Prop
  | .candidates .. => x ∉ (pages before).flatten → x ∈ logs (fetches before)
  | _ => True

section Serves

variable {logs : Nat → NameSet} {caps : Nat → Nat}

instance {before : List Call} : ∀ {call : Call}, Decidable (Serves logs caps before call)
  | .candidates _ _ (.ok _) => inferInstanceAs (Decidable (_ = _))
  | .candidates _ _ (.error _) | .references .. | .blips .. | .tableIds _ | .countCandidates _
  | .countInUse _ | .delete .. | .removeTableDir .. => .isTrue trivial

instance {x : String} {before : List Call} : ∀ {call : Call}, Decidable (Stays logs x before call)
  | .candidates .. => inferInstanceAs (Decidable (_ → _))
  | .references .. | .blips .. | .tableIds _ | .countCandidates _ | .countInUse _ | .delete ..
  | .removeTableDir .. => .isTrue trivial

/-- A page of a log ascends, and begins after its cursor. -/
theorem Serves.follows {before : List Call} {call : Call} (serves : Serves logs caps before call) :
    Follows before call := by
  refine follows_of_take ?_
  rintro cursor limit page rfl
  exact ⟨_, _, serves⟩

/-- The pages of a log show what stays in it. -/
theorem shows_of_stays {x : String} (continues : EachCall (Continues settings) calls)
    (serves : EachCall (Serves logs caps) calls) (stays : EachCall (Stays logs x) calls)
    (some_texts : 1 ≤ settings.batchSize) (caps_pos : ∀ i, 1 ≤ caps i) :
    EachCall (Shows x) calls := by
  rintro before call after rfl
  refine shows_of_take ?_
  rintro cursor limit page rfl
  obtain ⟨-, rfl⟩ := continues before _ after rfl
  exact ⟨_, _, Nat.le_min.mpr ⟨some_texts, caps_pos _⟩, serves before _ after rfl,
    stays before _ after rfl⟩

end Serves

variable (settings env) in
/-- Let a log change in any way between the requests of a pass, and serve each page from what it
holds then. The texts of all pages ascend strictly, so none is served twice; the pass does not
stall; and if it is done, then each non-empty text that stays in the log until it is served is on
exactly one page. -/
theorem pages_lose_and_repeat_nothing (some_texts : 1 ≤ settings.batchSize) (budget : Nat)
    (world : σ) (logs : Nat → NameSet) (caps : Nat → Nat) (caps_pos : ∀ i, 1 ≤ caps i)
    (serves : EachCall (Serves logs caps) (run settings env budget world).calls) :
    (pages (run settings env budget world).calls).flatten.Pairwise (· < ·) ∧
      (∀ cursor phase, (run settings env budget world).outcome ≠ .failed ⟨.stalled cursor, phase⟩) ∧
      ((run settings env budget world).outcome = .done →
        ∀ x, x ≠ "" → EachCall (Stays logs x) (run settings env budget world).calls →
          (pages (run settings env budget world).calls).countP (x ∈ ·) = 1) := by
  obtain ⟨continues, exhausted, stalled⟩ := paged_run settings env budget world
  have follows : EachCall Follows (run settings env budget world).calls :=
    serves.imp fun _ _ h => h.follows
  have ascending := pages_ascending follows continues
  refine ⟨ascending, fun cursor phase failed => ?_, fun done x nonempty stays => ?_⟩
  · exact not_stalled follows (stalled cursor phase failed)
  · have nodup : (pages (run settings env budget world).calls).flatten.Nodup :=
      ascending.imp fun hlt => String.ne_of_lt hlt
    exact countP_mem_eq_one nodup
      (mem_pages_of_exhausted continues
        (shows_of_stays continues serves stays some_texts caps_pos) nonempty (exhausted done))

section Shifting

open Simulation

/-- A log to which a file is added and another taken away after the first page, and that regains a
deleted file behind the cursor after the second. -/
def shiftingWorld : World where
  log := ⟨["1/t-1/A.rf", "1/t-1/C.rf", "1/t-1/E.rf"], by decide +kernel⟩
  plan := [(0, [.addToLog ["1/t-1/B.rf"], .dropFromLog ["1/t-1/E.rf"]]),
    (1, [.addToLog ["1/t-1/A.rf"]])]

/-- What the log holds at each request for a page with one text. -/
def shiftingLog : Nat → NameSet
  | 0 => ⟨["1/t-1/A.rf", "1/t-1/C.rf", "1/t-1/E.rf"], by decide +kernel⟩
  | 1 => ⟨["1/t-1/B.rf", "1/t-1/C.rf"], by decide +kernel⟩
  | 2 => ⟨["1/t-1/A.rf", "1/t-1/C.rf"], by decide +kernel⟩
  | _ => ⟨["1/t-1/A.rf"], by decide +kernel⟩

/-- The file that stays in the log is on one page, and the one that it regains is not served
again. -/
theorem shifting_log_is_paged :
    (pages (runPass { batchSize := 1 } shiftingWorld).calls).flatten.Pairwise (· < ·) ∧
      (pages (runPass { batchSize := 1 } shiftingWorld).calls).countP ("1/t-1/C.rf" ∈ ·) = 1 := by
  obtain ⟨ascending, -, once⟩ := pages_lose_and_repeat_nothing { batchSize := 1 } environment
    (by decide) shiftingWorld.pageBudget shiftingWorld.beginPass shiftingLog (fun _ => 1)
    (fun _ => Nat.le_refl 1) (by decide +kernel)
  exact ⟨ascending, once (by decide +kernel) "1/t-1/C.rf" (by decide) (by decide +kernel)⟩

end Shifting

end Pass

end TabletSweep
