import Mathlib.Data.List.Perm.Subperm
import TabletSweep.Proofs.Pass.Rounds
import TabletSweep.Proofs.Pass.Settlement

/-!
# A pass that is interrupted, and the one after it

`refusing` makes an environment refuse one request and change nothing by it. Where a pass over an
otherwise orderly environment fails by that, it leaves a `Remnant`: the log lacks some candidates
that could go, and nothing else has changed. The next pass then settles the log as if there had been
no interruption (`interrupted_pass_resumes`).

It does not make up for the table directories. Which tables have lost a tablet directory is known
only within a pass, so the directory of a table stays if its last tablet directory was deleted
before the interruption (`interruption_forgets_table`).
-/

namespace TabletSweep

namespace Pass

open PassM Simulation

variable {σ α : Type}

/-! ## Refusing a request -/

/-- An action that answers a request, as long as it is not the one of an outage. A state also counts
the requests of the kind of the outage; the one of its number is refused, and changes nothing
else. -/
def refuse (outage : Outage) (request : Request) (action : Action σ α) : Action (σ × Nat) α :=
  ExceptT.mk fun s =>
    if request = outage.request ∧ s.2 = outage.number then (.error outage.error, s.1, s.2 + 1)
    else
      let (answer, world) := action.perform s.1
      (answer, world, if request = outage.request then s.2 + 1 else s.2)

/-- An environment of which one request is refused. -/
def refusing (outage : Outage) (env : Environment σ) : Environment (σ × Nat) where
  references := refuse outage .references env.references
  blips := refuse outage .blips env.blips
  tableIds := refuse outage .tableIds env.tableIds
  candidates cursor limit := refuse outage .candidates (env.candidates cursor limit)
  delete batch := refuse outage .delete (env.delete batch)
  removeTableDir table := refuse outage .removeTableDir (env.removeTableDir table)
  countCandidates n := fun s => ((), ((env.countCandidates n).run s.1).2, s.2)
  countInUse n := fun s => ((), ((env.countInUse n).run s.1).2, s.2)

/-- A request is answered as it would be without the outage, or refused without a change. -/
theorem refuse_perform {outage : Outage} {request : Request} {action : Action σ α}
    {s s' : σ × Nat} {answer : Except ServiceError α}
    (answered : (refuse outage request action).perform s = (answer, s')) :
    action.perform s.1 = (answer, s'.1) ∨
      request = outage.request ∧ answer = .error outage.error ∧ s'.1 = s.1 := by
  change (if request = outage.request ∧ s.2 = outage.number then _ else _) = _ at answered
  split at answered
  · rename_i refused
    cases answered
    exact .inr ⟨refused.1, rfl, rfl⟩
  · cases answered
    exact .inl rfl

/-! ## What an interrupted pass leaves -/

variable {v : View σ} {settings : Settings} {env : Environment σ} {cap : Nat} {entries : List Entry}
  {blips ids : List String} {outage : Outage} {snapshot : Snapshot} {cs : List Candidate}
  {world : σ}

/-- A state of a log of which nothing is gone but candidates that could go. -/
structure Remnant (v : View σ) (snapshot : Snapshot) (cs : List Candidate) (world w : σ) :
    Prop where
  good : v.good w
  left : ∀ x, v.left w x = 0
  log : ∀ x, x ∈ v.log w → x ∈ v.log world
  gone : ∀ x ∈ v.log world, x ∉ v.log w →
    ∃ c ∈ cs, c.literal = x ∧ snapshot.frees c.key = true

/-- What is known at a point of a pass over a log that is deleted in part: the snapshot, that the
candidates at hand are of the log, each once, and that no removal was requested before the end of
the log. -/
def Point.Partway (snapshot : Snapshot) (cs : List Candidate) (calls : List Call) : Point → Prop
  | .references => removals calls = []
  | .blips live => live = snapshot.live ∧ removals calls = []
  | .tableIds live loads => live = snapshot.live ∧ loads = snapshot.loads ∧ removals calls = []
  | .fetch snapshot' _ => snapshot' = snapshot ∧ removals calls = []
  | .judge snapshot' page _ => snapshot' = snapshot ∧ removals calls = [] ∧ page.Nodup ∧
    ∀ x ∈ page, x ∈ cs.map (·.literal)
  | .delete snapshot' _ _ batch => snapshot' = snapshot ∧ removals calls = [] ∧
    (batch.map (·.literal)).Nodup ∧ ∀ c ∈ batch, c ∈ cs ∧ snapshot.frees c.key = true
  | .clean .. | .done => True
  | .failed _ => removals calls = []

section Remnant

variable {w w' : σ} (remnant : Remnant v snapshot cs world w)
include remnant

theorem Remnant.same (same : v.Same w w') : Remnant v snapshot cs world w' := by
  obtain ⟨-, left, log, gone⟩ := remnant
  refine ⟨same.good, ?_, ?_, ?_⟩
  · rw [same.left]
    exact left
  · rw [same.log]
    exact log
  · rw [same.log]
    exact gone

/-- A deletion of candidates that may go deletes all of them. -/
theorem Remnant.tries {batch : List Candidate} {report : DeleteReport}
    (tries : v.Tries batch w report w') (free : ∀ c ∈ batch, c ∈ cs ∧ snapshot.frees c.key = true) :
    Remnant v snapshot cs world w' ∧ failedOf report batch = [] := by
  have listsNone : ∀ c ∈ batch, report.lists c ≠ true := by
    intro c hc lists
    have failures := (tries.lists c hc).mp lists
    rw [remnant.left] at failures
    exact Nat.lt_irrefl 0 failures
  refine ⟨⟨tries.good, fun x => ?_, fun x hx => ?_, fun x hx gone => ?_⟩, ?_⟩
  · rw [tries.left, remnant.left]
    split <;> rfl
  · exact remnant.log x ((tries.log x).mp hx).1
  · by_cases before : x ∈ v.log w
    · -- What was in the log until now was deleted just now.
      have deleted : ∃ c ∈ batch, c.literal = x := by
        refine Classical.byContradiction fun none => gone ((tries.log x).mpr ⟨before, ?_⟩)
        intro c hc hx
        exact absurd ⟨c, hc, hx⟩ none
      obtain ⟨c, hc, rfl⟩ := deleted
      exact ⟨c, (free c hc).1, rfl, (free c hc).2⟩
    · exact remnant.gone x hx before
  · exact List.filter_eq_nil_iff.mpr listsNone

/-- A request that changes nothing that is seen leaves the remnant as it is, answered or refused. -/
theorem Remnant.ask {request : Request} {action : Action σ α} {a : α} {n : Nat} {s' : σ × Nat}
    {answer : Except ServiceError α}
    (orderly : ∃ w', action.perform w = (.ok a, w') ∧ v.Same w w')
    (answered : (refuse outage request action).perform (w, n) = (answer, s')) :
    Remnant v snapshot cs world s'.1 ∧
      (answer = .ok a ∨ request = outage.request ∧ answer = .error outage.error) := by
  obtain ⟨w', performed, same⟩ := orderly
  rcases refuse_perform answered with performed' | ⟨refused, failed, unchanged⟩
  · cases performed.symm.trans performed'
    exact ⟨remnant.same same, .inl rfl⟩
  · rw [unchanged]
    exact ⟨remnant, .inr ⟨refused, failed⟩⟩

/-- A deletion of candidates that may go leaves a remnant, and leaves none of them if it is
answered. -/
theorem Remnant.delete {batch : List Candidate} {n : Nat} {s' : σ × Nat}
    {answer : Except ServiceError DeleteReport} (orderly : Orderly env v cap entries blips ids)
    (nodup : (batch.map (·.literal)).Nodup)
    (free : ∀ c ∈ batch, c ∈ cs ∧ snapshot.frees c.key = true)
    (answered : (refuse outage .delete (env.delete batch)).perform (w, n) = (answer, s')) :
    Remnant v snapshot cs world s'.1 ∧
      ∀ report, answer = .ok report → failedOf report batch = [] := by
  obtain ⟨report, w', performed, tries⟩ := orderly.delete w batch remnant.good nodup
  rcases refuse_perform answered with performed' | ⟨-, failed, unchanged⟩
  · cases performed.symm.trans performed'
    obtain ⟨remnant', none⟩ := remnant.tries tries free
    refine ⟨remnant', ?_⟩
    rintro _ ⟨⟩
    exact none
  · rw [unchanged, failed]
    exact ⟨remnant, nofun⟩

end Remnant

/-- A candidate with the text of a candidate of the log, and the key that the text spells out, is
that candidate. -/
theorem mem_of_literal_mem {tablesDir : String} {texts : List String} {c : Candidate}
    (read : Candidate.ofPage tablesDir texts = .ok cs) (text : c.literal ∈ cs.map (·.literal))
    (key : Key.ofPath tablesDir .any c.literal = .ok c.key) : c ∈ cs := by
  obtain ⟨d, hd, same⟩ := List.mem_map.mp text
  have key' := (ofPage_eq_ok_iff.mp read).2 d hd
  rw [same, key] at key'
  obtain ⟨literal, k⟩ := c
  obtain ⟨literal', k'⟩ := d
  cases same
  cases key'
  exact hd

variable (snapshot cs world) in
/-- What is known in each configuration of a pass that is interrupted. -/
structure Partway (v : View σ) (c : Config (σ × Nat)) : Prop where
  remnant : Remnant v snapshot cs world c.progress.world.1
  point : c.point.Partway snapshot cs c.progress.calls

section Steps

variable {refs : List Reference} {marks : List Key}

variable (orderly : Orderly env v cap entries blips ids)
  (resolved : entries.map (Reference.ofEntry settings.tablesDir) = refs.map .ok)
  (named : blips.map (Key.ofPath settings.tablesDir .directory) = marks.map .ok)
  (read : Candidate.ofPage settings.tablesDir ((v.log world).after "") = .ok cs)
  (strikes : outage.request = .candidates ∨ outage.request = .delete)
include orderly resolved named read strikes

/-- Every step of an interrupted pass leaves a remnant. -/
theorem partway_step {c d : Config (σ × Nat)}
    (h : Partway ⟨.ofList refs, .ofKeys marks, ids⟩ cs world v c)
    (step : Step settings (refusing outage env) c d) :
    Partway ⟨.ofList refs, .ofKeys marks, ids⟩ cs world v d := by
  obtain ⟨remnant, point⟩ := h
  have spared : ∀ {request : Request}, request ≠ .candidates ∧ request ≠ .delete →
      request ≠ outage.request := by
    rintro _ ⟨hcandidates, hdelete⟩ rfl
    exact strikes.elim hcandidates hdelete
  -- A call that requests no removal leaves it at none.
  have quiet : ∀ {calls : List Call} {call : Call}, removals calls = [] → call.removal? = none →
      removals (calls ++ [call]) = [] := by
    intro calls call none other
    rw [removals_append, none]
    simp [removals, other]
  cases step with
  | readReferences answered gathered =>
    obtain ⟨remnant, whole⟩ := remnant.ask (orderly.references _ remnant.good) answered
    rw [whole.resolve_right fun h => absurd h.1 (spared (by decide)), readEntries_ok resolved]
      at gathered
    cases gathered
    exact ⟨remnant, rfl, quiet point rfl⟩
  | failReferences answered =>
    exact ⟨(remnant.ask (orderly.references _ remnant.good) answered).1, quiet point rfl⟩
  | readBlips answered gathered =>
    obtain ⟨rfl, none⟩ := point
    obtain ⟨remnant, whole⟩ := remnant.ask (orderly.blips _ remnant.good) answered
    rw [whole.resolve_right fun h => absurd h.1 (spared (by decide)), readBlips_ok named]
      at gathered
    cases gathered
    exact ⟨remnant, rfl, rfl, quiet none rfl⟩
  | failBlips answered =>
    exact ⟨(remnant.ask (orderly.blips _ remnant.good) answered).1, quiet point.2 rfl⟩
  | readTableIds answered =>
    obtain ⟨rfl, rfl, none⟩ := point
    obtain ⟨remnant, whole⟩ := remnant.ask (orderly.tableIds _ remnant.good) answered
    obtain rfl := Except.ok.inj (whole.resolve_right fun h => absurd h.1 (spared (by decide)))
    exact ⟨remnant, rfl, quiet none rfl⟩
  | failTableIds answered =>
    exact ⟨(remnant.ask (orderly.tableIds _ remnant.good) answered).1, quiet point.2.2 rfl⟩
  | @fetchPage _ cursor p page last s answered =>
    obtain ⟨rfl, none⟩ := point
    have logged := remnant.log
    obtain ⟨remnant, whole⟩ :=
      remnant.ask (orderly.candidates _ cursor settings.batchSize remnant.good) answered
    have hpage : page = ((v.log p.world.1).after cursor).take (min settings.batchSize cap) := by
      rcases whole with same | ⟨-, ⟨⟩⟩
      exact Except.ok.inj same
    refine ⟨remnant.same (orderly.countCandidates _ page.length remnant.good), rfl,
      quiet (quiet none rfl) rfl, ?_, fun x hx => ?_⟩
    · rw [hpage]
      exact (NameSet.sorted_after ..).take.imp fun hlt => String.ne_of_lt hlt
    · rw [hpage] at hx
      obtain ⟨hmem, hlt⟩ := NameSet.mem_after.mp (List.mem_of_mem_take hx)
      rw [(ofPage_eq_ok_iff.mp read).1]
      exact NameSet.mem_after.mpr ⟨logged x hmem, empty_lt_of_lt hlt⟩
  | @stall _ cursor p _ _ _ answered =>
    exact ⟨(remnant.ask (orderly.candidates _ cursor settings.batchSize remnant.good) answered).1,
      quiet point.2 rfl⟩
  | @failFetch _ cursor p _ _ answered =>
    exact ⟨(remnant.ask (orderly.candidates _ cursor settings.batchSize remnant.good) answered).1,
      quiet point.2 rfl⟩
  | @endLog _ cursor p _ answered =>
    exact ⟨(remnant.ask (orderly.candidates _ cursor settings.batchSize remnant.good) answered).1,
      trivial⟩
  | malformedPage => exact ⟨remnant, point.2.1⟩
  | keepPage | sparePage =>
    exact ⟨remnant.same (orderly.countInUse _ _ remnant.good), point.1, quiet point.2.1 rfl⟩
  | @confirmPage _ page _ p ds hds =>
    obtain ⟨rfl, none, nodup, logged⟩ := point
    obtain ⟨rfl, keys⟩ := ofPage_eq_ok_iff.mp hds
    refine ⟨remnant.same (orderly.countInUse _ _ remnant.good), rfl, quiet none rfl, ?_, ?_⟩
    · rw [Snapshot.judge_confirmed]
      exact (List.filter_sublist.map _).nodup nodup
    · intro c hc
      rw [Snapshot.judge_confirmed] at hc
      obtain ⟨hc, free⟩ := List.mem_filter.mp hc
      exact ⟨mem_of_literal_mem read (logged _ (List.mem_map_of_mem hc)) (keys c hc), free⟩
  | failDelete answered =>
    obtain ⟨-, none, nodup, free⟩ := point
    exact ⟨(remnant.delete orderly nodup free answered).1, quiet none rfl⟩
  | endDelete answered =>
    obtain ⟨same, none, nodup, free⟩ := point
    exact ⟨(remnant.delete orderly nodup free answered).1, same, quiet none rfl⟩
  | repeatDelete answered some =>
    obtain ⟨-, -, nodup, free⟩ := point
    exact absurd ((remnant.delete orderly nodup free answered).2 _ rfl) some
  | @removeDir _ table _ _ _ _ answered =>
    obtain ⟨removed, answers⟩ := orderly.removeTableDir _ table remnant.good
    exact ⟨(remnant.ask answers answered).1, trivial⟩
  | @failRemove _ table _ _ _ _ answered =>
    obtain ⟨removed, answers⟩ := orderly.removeTableDir _ table remnant.good
    rcases (remnant.ask answers answered).2 with removed | ⟨refused, -⟩
    · cases removed
    · exact absurd refused (spared (by decide))
  | finish => exact ⟨remnant, trivial⟩

end Steps

/-! ## The pass after it -/

variable {rules : Rules} {refs : List Reference} {marks : List Key} {budget : Nat} {w : σ}

/-- Where no deletion fails, what may go goes. -/
theorem Rules.goes_of_faultless {c : Candidate} (faultless : ∀ x, rules.failures x = 0) :
    rules.goes c = rules.snapshot.frees c.key := by
  rw [Rules.goes, faultless]
  simp

/-- In an orderly environment a pass that may ask for enough pages is done, deletes from the log
what goes, and requests the removal of the directories that can go. -/
theorem run_orderly (orderly : Orderly env v cap entries blips ids) (cap_pos : 1 ≤ cap)
    (batch_pos : 1 ≤ settings.batchSize) (deletes : settings.safeMode = false)
    (good : v.good world) (enough : (v.log world).toList.length < budget)
    (resolved : entries.map (Reference.ofEntry settings.tablesDir) = refs.map .ok)
    (named : blips.map (Key.ofPath settings.tablesDir .directory) = marks.map .ok)
    (read : Candidate.ofPage settings.tablesDir ((v.log world).after "") = .ok cs)
    (hrules : rules = .of settings refs marks ids (v.left world)) :
    (run settings env budget world).outcome = .done ∧
      (∀ x, x ∈ v.log (run settings env budget world).world ↔
        x ∈ v.log world ∧ ∀ c ∈ cs, c.literal = x → rules.goes c = false) ∧
      removals (run settings env budget world).calls = rules.removable cs := by
  obtain ⟨q, hq, hlog, -, hdirs, -⟩ := exec_steps_orderly orderly cap_pos batch_pos deletes good
    enough resolved named read hrules
  rw [run_of_ok hq]
  exact ⟨rfl, hlog, hdirs⟩

section Remnant

variable (remnant : Remnant v snapshot cs world w)
include remnant

/-- A remnant of a log has no more texts than the log. -/
theorem Remnant.length_le : (v.log w).toList.length ≤ (v.log world).toList.length := by
  have nodup : (v.log w).toList.Nodup := (v.log w).sorted.imp fun hlt => String.ne_of_lt hlt
  exact (nodup.subperm remnant.log).length_le

variable {tablesDir : String}
  (read : Candidate.ofPage tablesDir ((v.log world).after "") = .ok cs)
include read

/-- The candidates of a remnant are those candidates of the log whose texts are left. -/
theorem Remnant.ofPage_eq :
    Candidate.ofPage tablesDir ((v.log w).after "") =
      .ok (cs.filter (·.literal ∈ v.log w)) := by
  obtain ⟨texts, keys⟩ := ofPage_eq_ok_iff.mp read
  refine ofPage_eq_ok_iff.mpr ⟨?_, fun c hc => keys c (List.mem_filter.mp hc).1⟩
  have ascending : (cs.map (·.literal)).Pairwise (· < ·) := texts ▸ NameSet.sorted_after ..
  refine eq_of_ascending ((ascending.sublist (List.filter_sublist.map _))) (NameSet.sorted_after ..)
    fun x => ?_
  rw [NameSet.mem_after, List.mem_map]
  simp only [List.mem_filter, decide_eq_true_eq]
  constructor
  · rintro ⟨c, ⟨hc, left⟩, rfl⟩
    have mem : c.literal ∈ (v.log world).after "" := texts ▸ List.mem_map_of_mem hc
    exact ⟨left, (NameSet.mem_after.mp mem).2⟩
  · rintro ⟨left, hlt⟩
    have mem : x ∈ (v.log world).after "" := NameSet.mem_after.mpr ⟨remnant.log x left, hlt⟩
    rw [← texts] at mem
    obtain ⟨c, hc, rfl⟩ := List.mem_map.mp mem
    exact ⟨c, ⟨hc, left⟩, rfl⟩

/-- A candidate that may not go is left in every remnant. -/
theorem Remnant.left_of_not_free {c : Candidate} (hc : c ∈ cs)
    (kept : snapshot.frees c.key = false) : c.literal ∈ v.log w := by
  refine Classical.byContradiction fun gone => ?_
  obtain ⟨texts, -⟩ := ofPage_eq_ok_iff.mp read
  have mem : c.literal ∈ (v.log world).after "" := texts ▸ List.mem_map_of_mem hc
  obtain ⟨d, hd, same, free⟩ := remnant.gone _ (NameSet.mem_after.mp mem).1 gone
  rw [eq_of_literal_eq read hd hc same, kept] at free
  cases free

section Settled

variable (hsnapshot : rules.snapshot = snapshot) (faultless : ∀ x, rules.failures x = 0)
include hsnapshot faultless

omit read in
/-- What stays of a remnant is what stays of the log. -/
theorem Remnant.stays_iff {x : String} :
    (x ∈ v.log w ∧ ∀ c ∈ cs.filter (·.literal ∈ v.log w), c.literal = x → rules.goes c = false) ↔
      x ∈ v.log world ∧ ∀ c ∈ cs, c.literal = x → rules.goes c = false := by
  simp only [List.mem_filter, decide_eq_true_eq, and_imp]
  constructor
  · rintro ⟨left, stays⟩
    refine ⟨remnant.log x left, ?_⟩
    rintro c hc rfl
    exact stays c hc left rfl
  · rintro ⟨logged, stays⟩
    refine ⟨?_, fun c hc _ => stays c hc⟩
    refine Classical.byContradiction fun gone => ?_
    obtain ⟨c, hc, rfl, free⟩ := remnant.gone x logged gone
    have kept := stays c hc rfl
    rw [Rules.goes_of_faultless faultless, hsnapshot, free] at kept
    cases kept

/-- The directories that can go once a remnant is settled are, of those that can go once the log is
settled, the ones of tables that have a tablet directory left in the remnant. -/
theorem Remnant.mem_removable_iff {table : String} :
    table ∈ rules.removable (cs.filter (·.literal ∈ v.log w)) ↔
      table ∈ rules.removable cs ∧ ∃ c ∈ cs, c.key.isDirectory = true ∧ c.key.table = table ∧
        c.literal ∈ v.log w := by
  rw [Rules.mem_removable, Rules.mem_removable]
  simp only [List.mem_filter, decide_eq_true_eq]
  constructor
  · rintro ⟨⟨c, ⟨hc, left⟩, goes, directory, rfl⟩, dropped, none, unreached⟩
    refine ⟨⟨⟨c, hc, goes, directory, rfl⟩, dropped, ?_, unreached⟩, c, hc, directory, rfl, left⟩
    rintro ⟨d, hd, stays, same⟩
    refine none ⟨d, ⟨hd, remnant.left_of_not_free read hd ?_⟩, stays, same⟩
    rw [← hsnapshot, ← Rules.goes_of_faultless faultless, stays]
  · rintro ⟨⟨-, dropped, none, unreached⟩, c, hc, directory, rfl, left⟩
    refine ⟨⟨c, ⟨hc, left⟩, ?_, directory, rfl⟩, dropped, ?_, unreached⟩
    · refine Classical.byContradiction fun stays => none ⟨c, hc, ?_, rfl⟩
      exact Bool.not_eq_true _ ▸ stays
    · rintro ⟨d, ⟨hd, -⟩, stays, same⟩
      exact none ⟨d, hd, stays, same⟩

end Settled

end Remnant

/-- A pass of which a request for a page or for a deletion is refused, and that fails, leaves a
remnant of the log, and has requested no removal. -/
theorem remnant_of_interrupted (orderly : Orderly env v cap entries blips ids)
    (good : v.good world) (faultless : ∀ x, v.left world x = 0)
    (resolved : entries.map (Reference.ofEntry settings.tablesDir) = refs.map .ok)
    (named : blips.map (Key.ofPath settings.tablesDir .directory) = marks.map .ok)
    (read : Candidate.ofPage settings.tablesDir ((v.log world).after "") = .ok cs)
    (strikes : outage.request = .candidates ∨ outage.request = .delete) {failure : Failure}
    (failed : (run settings (refusing outage env) budget (world, 0)).outcome = .failed failure) :
    Remnant v ⟨.ofList refs, .ofKeys marks, ids⟩ cs world
        (run settings (refusing outage env) budget (world, 0)).world.1 ∧
      removals (run settings (refusing outage env) budget (world, 0)).calls = [] := by
  have start : Partway ⟨.ofList refs, .ofKeys marks, ids⟩ cs world v
      ⟨.references, { world := (world, 0) }⟩ :=
    ⟨⟨good, faultless, fun _ => id, fun _ h gone => absurd h gone⟩, rfl⟩
  obtain ⟨c, ⟨remnant, point⟩, ends⟩ := run_invariant settings (refusing outage env) _ budget
    (world, 0) start fun c d h step => partway_step orderly resolved named read strikes h step
  rw [ends.calls, ends.world]
  rw [(ends.failed failure failed).1] at point
  exact ⟨remnant, point⟩

variable (settings) in
/-- Let a pass over an orderly environment in which no deletion fails be interrupted, because one
request for a page or for a deletion is refused. The pass after it is done and leaves the log as a
pass without interruption would have left it. The two request the removal of the directories that
one pass would have requested, but for tables of which no tablet directory was left in the log at
the interruption. -/
theorem interrupted_pass_resumes (orderly : Orderly env v cap entries blips ids)
    (cap_pos : 1 ≤ cap) (batch_pos : 1 ≤ settings.batchSize) (deletes : settings.safeMode = false)
    (budget : Nat) (world : σ) (good : v.good world)
    (enough : (v.log world).toList.length < budget) (faultless : ∀ x, v.left world x = 0)
    (refs : List Reference) (marks : List Key) (cs : List Candidate)
    (resolved : entries.map (Reference.ofEntry settings.tablesDir) = refs.map .ok)
    (named : blips.map (Key.ofPath settings.tablesDir .directory) = marks.map .ok)
    (read : Candidate.ofPage settings.tablesDir ((v.log world).after "") = .ok cs)
    (outage : Outage) (strikes : outage.request = .candidates ∨ outage.request = .delete)
    (interrupted : Report (σ × Nat))
    (hinterrupted : interrupted = run settings (refusing outage env) budget (world, 0))
    (failure : Failure) (failed : interrupted.outcome = .failed failure) :
    (run settings env budget world).outcome = .done ∧
      (run settings env budget interrupted.world.1).outcome = .done ∧
      v.log (run settings env budget interrupted.world.1).world =
        v.log (run settings env budget world).world ∧
      ∀ table, table ∈ removals interrupted.calls ++
          removals (run settings env budget interrupted.world.1).calls ↔
        table ∈ removals (run settings env budget world).calls ∧
          ∃ c ∈ cs, c.key.isDirectory = true ∧ c.key.table = table ∧
            c.literal ∈ v.log interrupted.world.1 := by
  subst hinterrupted
  obtain ⟨remnant, none⟩ :=
    remnant_of_interrupted orderly good faultless resolved named read strikes failed
  let rules : Rules := .of settings refs marks ids (v.left world)
  have same : rules = .of settings refs marks ids
      (v.left (run settings (refusing outage env) budget (world, 0)).world.1) := by
    have left : v.left world = v.left _ :=
      funext fun x => (faultless x).trans (remnant.left x).symm
    rw [← left]
  have hrules : rules = .of settings refs marks ids (v.left world) := rfl
  obtain ⟨done, hlog, hdirs⟩ := run_orderly orderly cap_pos batch_pos deletes good enough resolved
    named read hrules
  obtain ⟨done', hlog', hdirs'⟩ := run_orderly orderly cap_pos batch_pos deletes remnant.good
    (Nat.lt_of_le_of_lt remnant.length_le enough) resolved named (remnant.ofPage_eq read) same
  refine ⟨done, done', NameSet.ext fun x => ?_, fun table => ?_⟩
  · rw [hlog', hlog]
    exact remnant.stays_iff rfl faultless
  · rw [none, List.nil_append, hdirs', hdirs]
    exact remnant.mem_removable_iff read rfl faultless

section Outages

/-- A log with two directories of a dropped table and one of another. -/
def partedWorld : World where
  log := ⟨["4/t-0", "4/t-1", "5/t-2"], by decide +kernel⟩
  pageCap := some 1

/-- The second deletion is refused. -/
def secondDeletion : Outage := ⟨.delete, 1, .unavailable "storage"⟩

/-- Both tables have a tablet directory left when the second deletion is refused, and the
directories of both are requested to be removed in the pass after it. -/
theorem resumed_pass_removes_both :
    (∃ failure, (run {} (refusing secondDeletion environment) 4 (partedWorld, 0)).outcome =
        .failed failure) ∧
      ∀ table ∈ ["4", "5"],
        table ∈ removals (run {} (refusing secondDeletion environment) 4 (partedWorld, 0)).calls ++
          removals (run {} environment 4
            (run {} (refusing secondDeletion environment) 4 (partedWorld, 0)).world.1).calls := by
  let failure : Failure := ⟨.environment .delete (.unavailable "storage"), .deleting⟩
  have failed : (run {} (refusing secondDeletion environment) 4 (partedWorld, 0)).outcome =
      .failed failure := by
    decide +kernel
  obtain ⟨-, -, -, tables⟩ := interrupted_pass_resumes {} (environment_orderly 1 [] [] [])
    (Nat.le_refl 1) (by decide) rfl 4 partedWorld
    ⟨rfl, rfl, rfl, rfl, rfl, rfl, rfl, rfl, rfl, rfl, rfl, rfl⟩ (by decide +kernel)
    (fun _ => rfl) [] [] [⟨"4/t-0", "4", "t-0", none⟩, ⟨"4/t-1", "4", "t-1", none⟩,
      ⟨"5/t-2", "5", "t-2", none⟩]
    rfl rfl (by decide +kernel) secondDeletion (.inr rfl) _ rfl failure failed
  refine ⟨⟨failure, failed⟩, fun table mem => (tables table).mpr ?_⟩
  have whole : removals (run {} environment 4 partedWorld).calls = ["4", "5"] := by
    decide +kernel
  refine ⟨whole ▸ mem, ?_⟩
  have left : (tameView 1 [] [] []).log
      (run {} (refusing secondDeletion environment) 4 (partedWorld, 0)).world.1 =
        ⟨["4/t-1", "5/t-2"], by decide +kernel⟩ := by
    decide +kernel
  rw [left]
  rcases List.mem_pair.mp mem with rfl | rfl
  · exact ⟨⟨"4/t-1", "4", "t-1", none⟩, by decide, rfl, rfl, by decide⟩
  · exact ⟨⟨"5/t-2", "5", "t-2", none⟩, by decide, rfl, rfl, by decide⟩

/-- A log with the only directory of a dropped table. -/
def lonelyWorld : World where
  log := ⟨["4/t-0"], by decide +kernel⟩
  pageCap := some 1

/-- The second page is refused. -/
def secondPage : Outage := ⟨.candidates, 1, .unavailable "log"⟩

/-- The only tablet directory of a table is deleted before the interruption. One pass would have
requested the removal of the directory of the table, but the interrupted pass and the one after it
do not. -/
theorem interruption_forgets_table :
    (tameView 1 [] [] []).good lonelyWorld ∧
      (run {} (refusing secondPage environment) 4 (lonelyWorld, 0)).outcome =
        .failed ⟨.environment .candidates (.unavailable "log"), .fetching⟩ ∧
      (run {} environment 4
        (run {} (refusing secondPage environment) 4 (lonelyWorld, 0)).world.1).outcome = .done ∧
      removals (run {} (refusing secondPage environment) 4 (lonelyWorld, 0)).calls ++
        removals (run {} environment 4
          (run {} (refusing secondPage environment) 4 (lonelyWorld, 0)).world.1).calls = [] ∧
      removals (run {} environment 4 lonelyWorld).calls = ["4"] := by
  refine ⟨⟨rfl, rfl, rfl, rfl, rfl, rfl, rfl, rfl, rfl, rfl, rfl, rfl⟩, ?_, ?_, ?_, ?_⟩ <;>
    decide +kernel

end Outages

end Pass

end TabletSweep
