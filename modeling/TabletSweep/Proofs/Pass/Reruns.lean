import TabletSweep.Proofs.Faults
import TabletSweep.Proofs.Pass.SafeMode

/-!
# Passes over a log that was settled

A text that was served to a pass is decided: it was deleted, or the snapshot does not free its key,
or its deletion was given up and counted as a failure. So a pass that is done and counts no failure
leaves in the log only texts that its scans hold (`held_of_done`), in whatever spelling they are.

A later pass over that log whose scans name no less has nothing to delete: every page of it is kept,
its ledger stays empty, and there is nothing that it could fail at (`quiet_run`). What is settled
stays settled, whatever else the two passes are set to (`settled_log_stays`).
-/

namespace TabletSweep

variable {σ : Type}

/-- An environment that refuses no part of a snapshot and no page, and in which the metadata scan
and the scan of blips always yield the same. -/
structure Answers (env : Environment σ) (v : LogView σ) (entries : List Entry)
    (blips : List String) : Prop where
  references : ∀ w answer w', v.good w → env.references.perform w = (answer, w') →
    answer = .ok (entries.map .ok)
  blips : ∀ w answer w', v.good w → env.blips.perform w = (answer, w') →
    answer = .ok (blips.map .ok)
  tableIds : ∀ w e w', v.good w → env.tableIds.perform w ≠ (.error e, w')
  candidates : ∀ w cursor limit e w', v.good w →
    (env.candidates cursor limit).perform w ≠ (.error e, w')

theorem Orderly.answers {env : Environment σ} {v : View σ} {cap : Nat} {entries : List Entry}
    {blips ids : List String} (orderly : Orderly env v cap entries blips ids) :
    Answers env v.logView entries blips where
  references w answer w' good answered := by
    obtain ⟨_, answered', -⟩ := orderly.references w good
    cases answered'.symm.trans answered
    rfl
  blips w answer w' good answered := by
    obtain ⟨_, answered', -⟩ := orderly.blips w good
    cases answered'.symm.trans answered
    rfl
  tableIds w e w' good refused := by
    obtain ⟨_, answered', -⟩ := orderly.tableIds w good
    cases answered'.symm.trans refused
  candidates w cursor limit e w' good refused := by
    obtain ⟨_, answered', -⟩ := orderly.candidates w cursor limit good
    cases answered'.symm.trans refused

namespace Pass

open PassM

variable {settings : Settings} {env : Environment σ} {v : LogView σ} {cap : Nat}
  {snapshot : Snapshot} {calls more : List Call} {c d : Config σ}
  {pending pending' page : List String} {x : String}

/-- A text of the log stands for something that is not to be deleted: its key is protected by a
reference, or its directory is under bulk load. -/
def Held (settings : Settings) (refs : Reference → Prop) (marks : Key → Prop) (text : String) :
    Prop :=
  ∃ key, Key.ofPath settings.tablesDir .any text = .ok key ∧
    ((∃ r, refs r ∧ r.Protects key) ∨ ∃ marked, marks marked ∧ key.directory = marked.directory)

/-- More references and more bulk loads hold no less. -/
theorem Held.mono {refs refs' : Reference → Prop} {marks marks' : Key → Prop}
    (held : Held settings refs marks x) (moreRefs : ∀ r, refs r → refs' r)
    (moreMarks : ∀ key, marks key → marks' key) : Held settings refs' marks' x := by
  obtain ⟨key, hkey, ⟨r, hr, protects⟩ | ⟨marked, hmarked, directory⟩⟩ := held
  · exact ⟨key, hkey, .inl ⟨r, moreRefs r hr, protects⟩⟩
  · exact ⟨key, hkey, .inr ⟨marked, moreMarks marked hmarked, directory⟩⟩

/-! ## What a pass leaves -/

variable (settings) in
/-- What becomes of a text that is served: it is deleted, or the snapshot does not free its key. -/
def Decided (snapshot : Snapshot) (calls : List Call) (text : String) : Prop :=
  text ∈ deletedTexts calls ∨
    ∃ key, Key.ofPath settings.tablesDir .any text = .ok key ∧ snapshot.frees key = false

variable (settings) in
/-- All texts that were served are decided but for those that are pending. -/
def AllDecided (snapshot : Snapshot) (calls : List Call) (pending : List String) : Prop :=
  ∀ x ∈ (pages calls).flatten, x ∈ pending ∨ Decided settings snapshot calls x

variable (settings) in
/-- What is decided at a point of a pass: all but the page that is to be judged and the batch that
is to be deleted. -/
def Point.AllDecided (calls : List Call) : Point → Prop
  | .references | .blips _ | .tableIds .. => pages calls = []
  | .fetch snapshot _ | .clean snapshot _ => Pass.AllDecided settings snapshot calls []
  | .judge snapshot page _ => Pass.AllDecided settings snapshot calls page
  | .delete snapshot _ _ batch =>
    Pass.AllDecided settings snapshot calls (batch.map (·.literal))
  | .done => ∃ snapshot, ReadIn settings snapshot calls ∧
    Pass.AllDecided settings snapshot calls []
  | .failed _ => True

theorem Decided.append (decided : Decided settings snapshot calls x) :
    Decided settings snapshot (calls ++ more) x := by
  refine decided.imp_left fun mem => ?_
  rw [deletedTexts_append]
  exact List.mem_append_left _ mem

/-- What is served is pending at first, and what was pending is decided or stays pending. -/
theorem AllDecided.append (h : AllDecided settings snapshot calls pending)
    (new : (pages more).flatten ⊆ pending')
    (old : ∀ x ∈ pending, x ∈ pending' ∨ Decided settings snapshot (calls ++ more) x) :
    AllDecided settings snapshot (calls ++ more) pending' := by
  intro x hx
  rw [pages_append, List.flatten_append, List.mem_append] at hx
  rcases hx with hx | hx
  · rcases h x hx with hpending | decided
    · exact old x hpending
    · exact .inr decided.append
  · exact .inl (new hx)

/-- A page that is judged is decided but for what is confirmed. -/
theorem decided_of_judge {cs : List Candidate}
    (read : Candidate.ofPage settings.tablesDir page = .ok cs) (hx : x ∈ page) :
    x ∈ (snapshot.judge cs).confirmed.map (·.literal) ∨ Decided settings snapshot calls x := by
  obtain ⟨rfl, keys⟩ := ofPage_eq_ok_iff.mp read
  obtain ⟨c, hc, rfl⟩ := List.mem_map.mp hx
  cases free : snapshot.frees c.key with
  | true =>
    rw [Snapshot.judge_confirmed]
    exact .inl (List.mem_map_of_mem (List.mem_filter.mpr ⟨hc, free⟩))
  | false => exact .inr (.inr ⟨c.key, keys c hc, free⟩)

/-- A batch that was handed out is decided but for what is reported as failed. -/
theorem decided_of_delete {batch : List Candidate} {report : DeleteReport}
    (hx : x ∈ batch.map (·.literal)) :
    x ∈ (failedOf report batch).map (·.literal) ∨
      Decided settings snapshot (calls ++ [.delete batch (.ok report)]) x := by
  obtain ⟨c, hc, rfl⟩ := List.mem_map.mp hx
  cases lists : report.lists c with
  | true => exact .inl (List.mem_map_of_mem (List.mem_filter.mpr ⟨hc, lists⟩))
  | false =>
    refine .inr (.inl ?_)
    rw [deletedTexts_append, List.mem_append]
    refine .inr ?_
    simp only [deletedTexts, List.flatMap_singleton, Call.deletedTexts]
    exact List.mem_map_of_mem (List.mem_filter.mpr ⟨hc, by simp [lists]⟩)

/-- Every step of a pass that deletes keeps account of what is decided, as long as no deletion is
given up. -/
theorem allDecided_step (deletes : settings.safeMode = false) (grounded : Grounded settings c)
    (h : c.progress.counters.deleteFailures = 0 →
      c.point.AllDecided settings c.progress.calls)
    (step : Step settings env c d) (none : d.progress.counters.deleteFailures = 0) :
    d.point.AllDecided settings d.progress.calls := by
  cases step with
  | readReferences | readBlips =>
    have unserved := h none
    change pages (_ ++ [_]) = []
    rw [pages_append, show pages _ = [] from unserved]
    rfl
  | readTableIds =>
    have unserved := h none
    intro x hx
    change x ∈ (pages (_ ++ [_])).flatten at hx
    rw [pages_append, show pages _ = [] from unserved] at hx
    cases hx
  | failReferences | failBlips | failTableIds | stall | failFetch | malformedPage | failDelete
  | failRemove => trivial
  | fetchPage answered =>
    have decided := h none
    change AllDecided settings _ ((_ ++ [_]) ++ [_]) _
    rw [List.append_assoc]
    refine decided.append ?_ (List.forall_mem_nil _)
    simp [Call.page?]
  | endLog answered =>
    have decided := h none
    refine decided.append ?_ (List.forall_mem_nil _)
    simp [Call.page?]
  | keepPage read nothing =>
    have decided := h none
    refine decided.append (by simp [Call.page?]) fun x hx => (decided_of_judge read hx).imp_left ?_
    rw [nothing]
    exact id
  | sparePage read some safe => cases deletes.symm.trans safe
  | confirmPage read =>
    have decided := h none
    exact decided.append (by simp [Call.page?]) fun x hx => decided_of_judge read hx
  | endDelete answered =>
    obtain ⟨before, nothing⟩ := Nat.add_eq_zero_iff.mp none
    have decided := h before
    refine decided.append (by simp [Call.page?]) fun x hx => (decided_of_delete hx).imp_left ?_
    rw [List.length_eq_zero_iff.mp nothing]
    exact id
  | repeatDelete answered =>
    have decided := h none
    exact decided.append (by simp [Call.page?]) fun x hx => decided_of_delete hx
  | removeDir answered =>
    have decided := h none
    exact decided.append (by simp [Call.page?]) (List.forall_mem_nil _)
  | finish => exact ⟨_, grounded.point.1, h none⟩

section Done

variable {budget : Nat} {world : σ} (done : (run settings env budget world).outcome = .done)
  (complete : (run settings env budget world).counters.deleteFailures = 0)
  (deletes : settings.safeMode = false)
include done complete deletes

/-- A pass that is done and has given up no deletion has decided all that it was served. -/
theorem exists_decided_of_done :
    ∃ snapshot, ReadIn settings snapshot (run settings env budget world).calls ∧
      ∀ x ∈ (pages (run settings env budget world).calls).flatten,
        Decided settings snapshot (run settings env budget world).calls x := by
  let Inv (c : Config σ) : Prop := Grounded settings c ∧
    (c.progress.counters.deleteFailures = 0 → c.point.AllDecided settings c.progress.calls)
  obtain ⟨c, ⟨-, decided⟩, ends⟩ := run_invariant settings env Inv budget world
    ⟨grounded_start world, fun _ => rfl⟩ fun c d h step =>
      ⟨grounded_step h.1 step, allDecided_step deletes h.1 h.2 step⟩
  rw [ends.counters] at complete
  have decided := decided complete
  rw [ends.done done] at decided
  obtain ⟨snapshot, read, all⟩ := decided
  rw [ends.calls]
  exact ⟨snapshot, read, fun x hx => (all x hx).resolve_left nofun⟩

/-- Over a log that is kept in order, such a pass leaves only texts that its scans hold, and the
empty text if the log has that, which is never served. -/
theorem held_of_done (logged : Logged env v cap) (cap_pos : 1 ≤ cap)
    (some_texts : 1 ≤ settings.batchSize) (good : v.good world)
    (hx : x ∈ v.log (run settings env budget world).world) (nonempty : x ≠ "") :
    Held settings (Refers settings (run settings env budget world).calls)
      (Marks settings (run settings env budget world).calls) x := by
  have keeps := keeps_run settings logged budget good (by simp [done])
  rw [keeps.log] at hx
  obtain ⟨mem, kept⟩ := NameSet.mem_eraseAll.mp hx
  obtain ⟨continues, exhausted, -⟩ := paged_run settings env budget world
  have shows := shows_of_draws (draws_run settings logged budget good) continues some_texts cap_pos
    mem kept
  have served := mem_pages_of_exhausted continues shows nonempty (exhausted done)
  obtain ⟨snapshot, read, decided⟩ := exists_decided_of_done done complete deletes
  obtain ⟨key, hkey, stays⟩ := (decided x served).resolve_left kept
  exact ⟨key, hkey, (read.frees_eq_false_iff (justified_calls_run settings env budget world)).mp
    stays⟩

end Done

/-! ## A pass that finds nothing to delete -/

theorem spares_concat {call : Call} (spares : ∀ call ∈ calls, call.spares = true)
    (last : call.spares = true) : ∀ call' ∈ calls ++ [call], call'.spares = true :=
  List.forall_mem_append.mpr ⟨spares, List.forall_mem_singleton.mpr last⟩

theorem deletedTexts_eq_nil_of_spares (spares : ∀ call ∈ calls, call.spares = true) :
    deletedTexts calls = [] := by
  rw [deletedTexts, List.flatMap_eq_nil_iff]
  intro call mem
  have spared := spares call mem
  cases call with
  | delete => cases spared
  | references | blips | tableIds | candidates | countCandidates | countInUse
  | removeTableDir => rfl

section Quiet

variable (settings) {entries : List Entry} {blips : List String} {refs : List Reference}
  {marks : List Key} {start : NameSet}

/-- What is known at a point of a pass by whose snapshot nothing can be deleted. It does not come to
a deletion, to the removal of a directory, or to a failure. -/
def Point.Quiet (refs : List Reference) (marks : List Key) : Point → Prop
  | .references | .done => True
  | .blips live => live = .ofList refs
  | .tableIds live loads => live = .ofList refs ∧ loads = .ofKeys marks
  | .fetch snapshot _ => snapshot.live = .ofList refs ∧ snapshot.loads = .ofKeys marks
  | .judge snapshot page _ => (snapshot.live = .ofList refs ∧ snapshot.loads = .ofKeys marks) ∧
    ∀ x ∈ page, Held settings (· ∈ refs) (· ∈ marks) x
  | .clean _ tables => tables = []
  | .delete .. | .failed _ => False

/-- A pass has made no call that deletes or removes anything, and will not make one. -/
structure Quiet (refs : List Reference) (marks : List Key) (c : Config σ) : Prop where
  point : c.point.Quiet settings refs marks
  spares : ∀ call ∈ c.progress.calls, call.spares = true
  emptied : c.progress.ledger.emptied = .empty

variable {settings}

/-- Nothing of a page is confirmed if the snapshot holds all of it. -/
theorem confirmed_eq_nil_of_held {cs : List Candidate}
    (same : snapshot.live = .ofList refs ∧ snapshot.loads = .ofKeys marks)
    (held : ∀ x ∈ page, Held settings (· ∈ refs) (· ∈ marks) x)
    (read : Candidate.ofPage settings.tablesDir page = .ok cs) :
    (snapshot.judge cs).confirmed = [] := by
  obtain ⟨rfl, keys⟩ := ofPage_eq_ok_iff.mp read
  rw [Snapshot.judge_confirmed, List.filter_eq_nil_iff]
  intro c hc
  obtain ⟨key, hkey, stays⟩ := held _ (List.mem_map_of_mem hc)
  cases (keys c hc).symm.trans hkey
  rw [Bool.not_eq_true, Snapshot.frees_eq_false_iff, same.1, same.2, LiveKeys.keeps_ofList,
    BulkLoads.covers_ofKeys]
  exact stays

/-- A page can be read if all of its texts are held. -/
theorem ofPage_ne_error_of_held {e : PathError} {refs : Reference → Prop} {marks : Key → Prop}
    (held : ∀ x ∈ page, Held settings refs marks x) :
    Candidate.ofPage settings.tablesDir page ≠ .error e := by
  intro read
  obtain ⟨n, x, hx, fault, -⟩ := ofPage_eq_error read
  obtain ⟨key, hkey, -⟩ := held x (List.mem_of_getElem? hx)
  rw [textFault, hkey] at fault
  cases fault

variable (answers : Answers env v entries blips)
  (resolved : entries.map (Reference.ofEntry settings.tablesDir) = refs.map .ok)
  (named : blips.map (Key.ofPath settings.tablesDir .directory) = marks.map .ok)
  (logged : Logged env v cap)
  (held : ∀ x ∈ start, x ≠ "" → Held settings (· ∈ refs) (· ∈ marks) x)
include answers resolved named logged held

/-- Every step keeps a pass from deletions. -/
theorem quiet_step (tracked : Tracked v cap start c) (h : Quiet settings refs marks c)
    (step : Step settings env c d) : Quiet settings refs marks d := by
  obtain ⟨point, spares, emptied⟩ := h
  have keeps := tracked.keeps
  cases step with
  | readReferences answered gathered =>
    obtain rfl := answers.references _ _ _ (keeps trivial).good answered
    cases (readEntries_ok resolved).symm.trans gathered
    exact ⟨rfl, spares_concat spares rfl, emptied⟩
  | failReferences answered gathered =>
    obtain rfl := answers.references _ _ _ (keeps trivial).good answered
    cases (readEntries_ok resolved).symm.trans gathered
  | readBlips answered gathered =>
    obtain rfl := answers.blips _ _ _ (keeps trivial).good answered
    cases (readBlips_ok named).symm.trans gathered
    exact ⟨⟨point, rfl⟩, spares_concat spares rfl, emptied⟩
  | failBlips answered gathered =>
    obtain rfl := answers.blips _ _ _ (keeps trivial).good answered
    cases (readBlips_ok named).symm.trans gathered
  | readTableIds => exact ⟨point, spares_concat spares rfl, emptied⟩
  | failTableIds refused =>
    exact absurd refused (answers.tableIds _ _ _ (keeps trivial).good)
  | fetchPage answered =>
    obtain ⟨draws, -⟩ := draws_of_answered logged (keeps trivial) answered
    refine ⟨⟨point, fun x hx => ?_⟩, spares_concat (spares_concat spares rfl) rfl, emptied⟩
    obtain ⟨mem, -, beyond⟩ := draws.mem hx
    exact held x mem (String.ne_of_lt (empty_lt_of_lt beyond)).symm
  | stall answered ends stays =>
    obtain ⟨draws, -⟩ := draws_of_answered logged (keeps trivial) answered
    obtain ⟨-, -, beyond⟩ := draws.mem (List.mem_of_getLast? ends)
    exact absurd stays.2 (String.not_le.mpr beyond)
  | failFetch refused =>
    exact absurd refused (answers.candidates _ _ _ _ _ (keeps trivial).good)
  | endLog =>
    refine ⟨?_, spares_concat spares rfl, emptied⟩
    change TableLedger.removable _ _ _ = []
    rw [TableLedger.removable, emptied]
    rfl
  | malformedPage read => exact absurd read (ofPage_ne_error_of_held point.2)
  | keepPage =>
    exact ⟨point.1, spares_concat spares rfl, TableLedger.emptied_keptAll.trans emptied⟩
  | sparePage read some | confirmPage read some =>
    exact absurd (confirmed_eq_nil_of_held point.1 point.2 read) some
  | failDelete | endDelete | repeatDelete => exact point.elim
  | removeDir | failRemove => cases point
  | finish => exact ⟨trivial, spares, emptied⟩

variable {budget : Nat} {world : σ}

/-- A pass whose snapshot holds all of the log is done, deletes nothing, removes no directory, and
leaves the log as it is. -/
theorem quiet_run (good : v.good world) (hstart : v.log world = start)
    (enough : start.toList.length < budget) :
    (run settings env budget world).outcome = .done ∧
      (∀ call ∈ (run settings env budget world).calls, call.spares = true) ∧
      v.log (run settings env budget world).world = start := by
  subst hstart
  obtain ⟨c, ⟨tracked, quiet⟩, ends⟩ := run_invariant settings env
    (fun c => Tracked v cap (v.log world) c ∧ Quiet settings refs marks c) budget world
    ⟨tracked_start good, trivial, nofun, rfl⟩ fun c d h step =>
      ⟨tracked_step logged h.1 step,
        quiet_step answers resolved named logged held h.1 h.2 step⟩
  have done : (run settings env budget world).outcome = .done := by
    cases houtcome : (run settings env budget world).outcome with
    | done => rfl
    | unfinished =>
      exact absurd houtcome (finished_of_draws (draws_run settings logged budget good) enough)
    | failed failure =>
      have point := quiet.point
      rw [(ends.failed _ houtcome).1] at point
      exact point.elim
  have keeps := tracked.keeps (by rw [ends.done done]; trivial)
  rw [ends.calls, ends.world, keeps.log]
  refine ⟨done, quiet.spares, ?_⟩
  rw [deletedTexts_eq_nil_of_spares quiet.spares]
  rfl

end Quiet

/-! ## One pass after another -/

variable {σ' : Type} {env' : Environment σ'} {v' : LogView σ'} {cap' : Nat} {settings' : Settings}
  {entries : List Entry} {blips : List String} {refs : List Reference} {marks : List Key}

/-- References that are read from no fewer entries are no fewer. -/
theorem mem_refs_of_refers
    (resolved : entries.map (Reference.ofEntry settings.tablesDir) = refs.map .ok)
    (more : ∀ items read entry, .references (.ok items) read ∈ calls → .ok entry ∈ items →
      entry ∈ entries) {r : Reference} (refers : Refers settings calls r) : r ∈ refs := by
  obtain ⟨items, read, entry, mem, hentry, hr⟩ := refers
  obtain ⟨r', hr', same⟩ :=
    exists_ok_of_map_eq_map_ok resolved (more items read entry mem hentry)
  cases hr.symm.trans same
  exact hr'

/-- Bulk loads that are read from no fewer blips are no fewer. -/
theorem mem_marks_of_marks
    (named : blips.map (Key.ofPath settings.tablesDir .directory) = marks.map .ok)
    (more : ∀ items read blip, .blips (.ok items) read ∈ calls → .ok blip ∈ items →
      blip ∈ blips) {key : Key} (marked : Marks settings calls key) : key ∈ marks := by
  obtain ⟨items, read, blip, mem, hblip, hkey⟩ := marked
  obtain ⟨key', hkey', same⟩ :=
    exists_ok_of_map_eq_map_ok named (more items read blip mem hblip)
  cases hkey.symm.trans same
  exact hkey'

variable (settings settings') in
/-- Let a pass that deletes be done with a log that is kept in order, and give up no deletion. Then
it has left nothing in the log but what its scans hold, and the empty text if that was there. A pass
over what it has left, in the same or another environment and by the same or other settings, that
reads at least the entries and the blips that the first one has read, and can read them all, is
done, deletes nothing, removes no directory, and leaves the log as it is. -/
theorem settled_log_stays (logged : Logged env v cap) (cap_pos : 1 ≤ cap)
    (some_texts : 1 ≤ settings.batchSize) (deletes : settings.safeMode = false) (budget : Nat)
    (world : σ) (good : v.good world) (done : (run settings env budget world).outcome = .done)
    (complete : (run settings env budget world).counters.deleteFailures = 0)
    (logged' : Logged env' v' cap') (answers : Answers env' v' entries blips)
    (sameDir : settings'.tablesDir = settings.tablesDir)
    (resolved : entries.map (Reference.ofEntry settings.tablesDir) = refs.map .ok)
    (named : blips.map (Key.ofPath settings.tablesDir .directory) = marks.map .ok)
    (moreEntries : ∀ items read entry,
      .references (.ok items) read ∈ (run settings env budget world).calls → .ok entry ∈ items →
        entry ∈ entries)
    (moreBlips : ∀ items read blip,
      .blips (.ok items) read ∈ (run settings env budget world).calls → .ok blip ∈ items →
        blip ∈ blips)
    (budget' : Nat) (world' : σ') (good' : v'.good world')
    (left : v'.log world' = v.log (run settings env budget world).world)
    (enough : (v'.log world').toList.length < budget') :
    (∀ x ∈ v'.log world', x ≠ "" →
        Held settings (Refers settings (run settings env budget world).calls)
          (Marks settings (run settings env budget world).calls) x) ∧
      (run settings' env' budget' world').outcome = .done ∧
      (∀ call ∈ (run settings' env' budget' world').calls, call.spares = true) ∧
      v'.log (run settings' env' budget' world').world = v'.log world' := by
  have held : ∀ x ∈ v'.log world', x ≠ "" →
      Held settings (Refers settings (run settings env budget world).calls)
        (Marks settings (run settings env budget world).calls) x := by
    intro x hx nonempty
    rw [left] at hx
    exact held_of_done done complete deletes logged cap_pos some_texts good hx nonempty
  -- The later pass reads its texts by the same rules, and holds no less.
  have held' : ∀ x ∈ v'.log world', x ≠ "" → Held settings' (· ∈ refs) (· ∈ marks) x := by
    intro x hx nonempty
    rw [Held, sameDir]
    exact (held x hx nonempty).mono (fun _ => mem_refs_of_refers resolved moreEntries)
      fun _ => mem_marks_of_marks named moreBlips
  rw [← sameDir] at resolved named
  exact ⟨held, quiet_run answers resolved named logged' held' good' rfl enough⟩

section Settled

open Simulation

/-- A log with two spellings of a file in use, a file whose deletion fails once, the last tablet
directory of a dropped table, and a file under bulk load. -/
def unsettledWorld : World where
  log := ⟨["", "1/t-1/A.rf", "1/t-1/B.rf", "2/t-2", "3/t-3/C.rf",
    "hdfs://nn:8020/tables/1/t-1/A.rf"], by decide +kernel⟩
  references := [.ofFile "1" none "../1/t-1/A.rf"]
  blips := ["3/t-3"]
  tableIds := ["1", "3"]
  pageCap := some 2
  deleteFailures := [("1/t-1/B.rf", 1)]

/-- What a pass leaves of that log, with one more reference and one more bulk load, and with no
table. -/
def settledWorld : World where
  log := ⟨["", "1/t-1/A.rf", "3/t-3/C.rf", "hdfs://nn:8020/tables/1/t-1/A.rf"], by decide +kernel⟩
  references := [.ofFile "7" none "/t-7/D.rf", .ofFile "1" none "../1/t-1/A.rf"]
  blips := ["3/t-3", "7/t-8"]
  pageCap := some 1

/-- The settings of a pass with pages of two texts. -/
def byTwos : Settings := { batchSize := 2 }

/-- The first pass deletes what can go, with one repetition, and leaves also the other spelling of
the file in use. The second, by other settings, finds nothing to delete, and no directory to remove
although no table exists any more. -/
theorem settled_world_stays :
    removals (run repeatOnce environment 6 unsettledWorld).calls = ["2"] ∧
      (run repeatOnce environment 6 unsettledWorld).world.log = settledWorld.log ∧
      Held repeatOnce (Refers repeatOnce (run repeatOnce environment 6 unsettledWorld).calls)
        (Marks repeatOnce (run repeatOnce environment 6 unsettledWorld).calls)
        "hdfs://nn:8020/tables/1/t-1/A.rf" ∧
      (run byTwos environment 6 settledWorld).outcome = .done ∧
      (∀ call ∈ (run byTwos environment 6 settledWorld).calls, call.spares = true) ∧
      (run byTwos environment 6 settledWorld).world.log = settledWorld.log := by
  have orderly := environment_orderly 2 unsettledWorld.references unsettledWorld.blips
    unsettledWorld.tableIds
  have orderly' := environment_orderly 1 settledWorld.references settledWorld.blips
    settledWorld.tableIds
  have left : settledWorld.log = (run repeatOnce environment 6 unsettledWorld).world.log := by
    have same : settledWorld.log.toList =
        (run repeatOnce environment 6 unsettledWorld).world.log.toList := by decide +kernel
    exact NameSet.ext fun x => by rw [NameSet.mem_def, NameSet.mem_def, same]
  have scans : (run repeatOnce environment 6 unsettledWorld).calls.filter Call.readsSnapshot =
      [.references (.ok [.ok (.ofFile "1" none "../1/t-1/A.rf")]) 1, .blips (.ok [.ok "3/t-3"]) 1,
        .tableIds (.ok ["1", "3"])] := by
    decide +kernel
  have scanned : ∀ {call}, call ∈ (run repeatOnce environment 6 unsettledWorld).calls →
      call.readsSnapshot = true → call ∈ [_, _, _] :=
    fun mem reads => scans ▸ List.mem_filter.mpr ⟨mem, reads⟩
  have entries : ∀ items read entry,
      .references (.ok items) read ∈ (run repeatOnce environment 6 unsettledWorld).calls →
        .ok entry ∈ items → entry ∈ settledWorld.references := by
    intro items read entry mem hentry
    have call := scanned mem rfl
    simp only [List.mem_cons, Call.references.injEq, Except.ok.injEq, reduceCtorEq,
      List.not_mem_nil, or_false] at call
    obtain ⟨rfl, -⟩ := call
    cases List.mem_singleton.mp hentry
    decide
  have blips : ∀ items read blip,
      .blips (.ok items) read ∈ (run repeatOnce environment 6 unsettledWorld).calls →
        .ok blip ∈ items → blip ∈ settledWorld.blips := by
    intro items read blip mem hblip
    have call := scanned mem rfl
    simp only [List.mem_cons, Call.blips.injEq, Except.ok.injEq, reduceCtorEq, List.not_mem_nil,
      or_false, false_or] at call
    obtain ⟨rfl, -⟩ := call
    cases List.mem_singleton.mp hblip
    decide
  have resolved : settledWorld.references.map (Reference.ofEntry repeatOnce.tablesDir) =
      [Reference.file ⟨"7", "t-7", some "D.rf"⟩, .file ⟨"1", "t-1", some "A.rf"⟩].map .ok := by
    decide +kernel
  have named : settledWorld.blips.map (Key.ofPath repeatOnce.tablesDir .directory) =
      [(⟨"3", "t-3", none⟩ : Key), ⟨"7", "t-8", none⟩].map .ok := by
    decide +kernel
  obtain ⟨held, done, spares, log⟩ := settled_log_stays repeatOnce byTwos orderly.logged
    (by decide) (by decide) rfl 6 unsettledWorld
    ⟨rfl, rfl, rfl, rfl, rfl, rfl, rfl, rfl, rfl, rfl, rfl, rfl⟩ (by decide +kernel)
    (by decide +kernel) orderly'.logged orderly'.answers rfl resolved named entries blips 6
    settledWorld ⟨rfl, rfl, rfl, rfl, rfl, rfl, rfl, rfl, rfl, rfl, rfl, rfl⟩
    (by simp only [View.logView, tameView]; exact left) (by decide +kernel)
  simp only [View.logView, tameView] at held log
  exact ⟨by decide +kernel, left.symm, held _ (by decide +kernel) (by decide), done, spares, log⟩

end Settled

end Pass

end TabletSweep
