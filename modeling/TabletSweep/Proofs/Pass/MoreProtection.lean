import TabletSweep.Proofs.Pass.Settlement

/-!
# More protection never deletes more

In an orderly environment it is decided by the entries, the blips and the table ids, and not by
their order or number, what a pass deletes: a candidate `Goes` if everything that was read leaves it
free, and the directory of a table goes (`DirGoes`) if one of its tablet directories goes, none of
its candidates stays, and nothing that was read needs it. An entry or a blip that cannot be read
leaves nothing free. What goes is all that is deleted (`orderly_pass_effect`), in passes of every
kind: those that fail, and those that are to delete nothing.

So whatever an environment has of entries, blips and table ids, with more of them there is less that
goes (`Goes.mono`, `DirGoes.mono`). The two parts of a `DirGoes` that speak of candidates pull in
opposite directions, but both shrink: fewer directories are lost, and more candidates stay.
-/

namespace TabletSweep

namespace Pass

open PassM

/-! ## What goes -/

section Goes

variable (settings : Settings) (entries : List Entry) (blips ids : List String)
  (failures : String → Nat)

/-- A candidate goes: the pass is to delete, every entry is a reference that does not protect the
candidate, every blip names a directory other than that of the candidate, and its deletion is
repeated often enough. -/
structure Goes (c : Candidate) : Prop where
  deletes : settings.safeMode = false
  unreferenced : ∀ e ∈ entries, ∃ r,
    Reference.ofEntry settings.tablesDir e = .ok r ∧ ¬r.Protects c.key
  unmarked : ∀ b ∈ blips, ∃ m,
    Key.ofPath settings.tablesDir .directory b = .ok m ∧ c.key.directory ≠ m.directory
  often : failures c.literal ≤ settings.onFailure.retries

/-- The directory of a table goes: a tablet directory of it goes, it does not exist any more, all
its candidates go, and no reference points into it. -/
structure DirGoes (cs : List Candidate) (table : String) : Prop where
  emptied : ∃ c ∈ cs, Goes settings entries blips failures c ∧ c.key.isDirectory = true ∧
    table = c.key.table
  dropped : table ∉ ids
  unkept : ∀ c ∈ cs, table = c.key.table → Goes settings entries blips failures c
  unreached : ∀ e ∈ entries, ∃ r,
    Reference.ofEntry settings.tablesDir e = .ok r ∧ table ≠ r.key.table

end Goes

section Mono

variable {settings : Settings} {entries entries' : List Entry} {blips blips' ids ids' : List String}
  {failures : String → Nat} (moreEntries : entries ⊆ entries') (moreBlips : blips ⊆ blips')
include moreEntries moreBlips

theorem Goes.mono {c : Candidate} (h : Goes settings entries' blips' failures c) :
    Goes settings entries blips failures c where
  deletes := h.deletes
  unreferenced e he := h.unreferenced e (moreEntries he)
  unmarked b hb := h.unmarked b (moreBlips hb)
  often := h.often

theorem DirGoes.mono (moreIds : ids ⊆ ids') {cs : List Candidate} {table : String}
    (h : DirGoes settings entries' blips' ids' failures cs table) :
    DirGoes settings entries blips ids failures cs table where
  emptied := by
    obtain ⟨c, hc, goes, directory, htable⟩ := h.emptied
    exact ⟨c, hc, goes.mono moreEntries moreBlips, directory, htable⟩
  dropped hmem := h.dropped (moreIds hmem)
  unkept c hc htable := (h.unkept c hc htable).mono moreEntries moreBlips
  unreached e he := h.unreached e (moreEntries he)

end Mono

variable {σ : Type} {v : View σ} {settings : Settings} {env : Environment σ} {cap : Nat}
  {entries : List Entry} {blips ids : List String} {failures : String → Nat}

section Rules

variable {refs : List Reference} {marks : List Key}
  (resolved : entries.map (Reference.ofEntry settings.tablesDir) = refs.map .ok)
  (named : blips.map (Key.ofPath settings.tablesDir .directory) = marks.map .ok)
include resolved named

/-- In a pass that deletes and has read everything, what goes goes by its rules. -/
theorem goes_iff (deletes : settings.safeMode = false) {c : Candidate} :
    Goes settings entries blips failures c ↔
      (Rules.of settings refs marks ids failures).goes c = true := by
  have unreferenced := forall_ok_iff_of_map_eq_map_ok resolved (P := (¬·.Protects c.key))
  have unmarked := forall_ok_iff_of_map_eq_map_ok named (P := (c.key.directory ≠ ·.directory))
  rw [← Bool.not_eq_false, Rules.of_goes_eq_false_iff]
  simp only [not_or, not_exists, not_and, Nat.not_lt]
  rw [← unreferenced, ← unmarked]
  exact ⟨fun h => ⟨h.unreferenced, h.unmarked, h.often⟩, fun h => ⟨deletes, h.1, h.2.1, h.2.2⟩⟩

theorem dirGoes_iff (deletes : settings.safeMode = false) {cs : List Candidate} {table : String} :
    DirGoes settings entries blips ids failures cs table ↔
      table ∈ (Rules.of settings refs marks ids failures).removable cs := by
  let rules : Rules := .of settings refs marks ids failures
  have goes : ∀ c, Goes settings entries blips failures c ↔ rules.goes c = true :=
    fun c => goes_iff resolved named deletes
  have unkept : (¬∃ c ∈ cs, rules.goes c = false ∧ table = c.key.table) ↔
      ∀ c ∈ cs, table = c.key.table → rules.goes c = true := by
    simp only [not_exists, not_and]
    refine forall₂_congr fun c _ => ?_
    rw [← Bool.not_eq_false]
    exact ⟨fun h htable stays => h stays htable, fun h stays htable => h htable stays⟩
  have unreached : rules.snapshot.live.reaches table = false ↔ ∀ e ∈ entries, ∃ r,
      Reference.ofEntry settings.tablesDir e = .ok r ∧ table ≠ r.key.table := by
    rw [forall_ok_iff_of_map_eq_map_ok resolved (P := (table ≠ ·.key.table)), ← Bool.not_eq_true]
    change ¬(LiveKeys.ofList refs).reaches table = true ↔ _
    rw [LiveKeys.reaches_ofList]
    simp only [not_exists, not_and, ne_eq]
  change _ ↔ table ∈ rules.removable cs
  rw [Rules.mem_removable, unkept, unreached]
  simp only [← goes]
  exact ⟨fun h => ⟨h.emptied, h.dropped, h.unkept, h.unreached⟩,
    fun h => ⟨h.1, h.2.1, h.2.2.1, h.2.2.2⟩⟩

end Rules

theorem Goes.exists_refs {c : Candidate} (goes : Goes settings entries blips failures c) :
    ∃ refs : List Reference, entries.map (Reference.ofEntry settings.tablesDir) = refs.map .ok :=
  exists_map_eq_map_ok fun e he => (goes.unreferenced e he).imp fun _ h => h.1

theorem Goes.exists_marks {c : Candidate} (goes : Goes settings entries blips failures c) :
    ∃ marks : List Key,
      blips.map (Key.ofPath settings.tablesDir .directory) = marks.map .ok :=
  exists_map_eq_map_ok fun b hb => (goes.unmarked b hb).imp fun _ h => h.1

/-! ## Passes that delete nothing -/

/-- In an orderly environment a snapshot that cannot be read fails the pass. -/
theorem exec_readSnapshot_unreadable (orderly : Orderly env v cap entries blips ids) {world : σ}
    (good : v.good world)
    (unreadable : ¬∃ (refs : List Reference) (marks : List Key),
      entries.map (Reference.ofEntry settings.tablesDir) = refs.map .ok ∧
        blips.map (Key.ofPath settings.tablesDir .directory) = marks.map .ok) :
    ∃ cause q, exec (readSnapshot settings env) { world } = (.error (.failed cause), q) ∧
      Fresh v world q := by
  obtain ⟨w, hrefs, same⟩ := orderly.references world good
  obtain ⟨w', hblips, same'⟩ := orderly.blips w same.good
  let start : Progress σ := { world }
  let p (read : Nat) := start.noted w (.references (.ok (entries.map .ok)) read)
  let q (read read' : Nat) := (p read).noted w' (.blips (.ok (blips.map .ok)) read')
  rcases hread : readAnswer .references (takeEntry settings) .empty (.ok (entries.map .ok)) with
    ⟨read, cause | live⟩
  · refine ⟨cause, p read, ?_, same, rfl, rfl, rfl, rfl⟩
    exact exec_bind_error (exec_scan hrefs hread)
  rcases hread' : readAnswer .blips (takeBlip settings) .empty (.ok (blips.map .ok)) with
    ⟨read', cause | loads⟩
  · refine ⟨cause, q read read', ?_, same.trans same', rfl, rfl, rfl, rfl⟩
    rw [readSnapshot, exec_bind_ok (exec_scan hrefs hread)]
    exact exec_bind_error (exec_scan hblips hread')
  · obtain ⟨_, refs, hentries, resolved, -⟩ := readEntries_eq_ok_iff.mp hread
    obtain ⟨_, marks, hblips, named, -⟩ := readBlips_eq_ok_iff.mp hread'
    obtain rfl := (List.map_inj_right fun _ _ => Except.ok.inj).mp (Except.ok.inj hentries)
    obtain rfl := (List.map_inj_right fun _ _ => Except.ok.inj).mp (Except.ok.inj hblips)
    exact absurd ⟨refs, marks, resolved, named⟩ unreadable

/-- A pass that is to delete nothing spares the candidates of each page. -/
theorem spared_pagewise (orderly : Orderly env v cap entries blips ids)
    (safe : settings.safeMode = true) (snapshot : Snapshot) (failures : String → Nat) :
    Pagewise settings env v snapshot failures fun _ p q => Spared v p q where
  confined spared := confined_of_same spared.same
  append := Spared.trans
  fetched same := spared_noted same rfl rfl
  processed {page cs p} read good _ _ := by
    let verdict := snapshot.judge cs
    have counted := spared_counted orderly good page
    have judged := counted.trans (spared_judged orderly counted.same.good verdict)
    rw [exec_processPage read]
    by_cases none : verdict.confirmed = []
    · rw [none]
      exact ⟨_, exec_deletePage_nil, judged⟩
    · refine ⟨_, exec_deletePage_safe none safe, judged.trans ?_⟩
      exact ⟨⟨judged.same.good, rfl, rfl⟩, TableLedger.emptied_keptAll, rfl, rfl⟩

/-! ## What a pass comes to -/

variable {budget : Nat} {world : σ}

/-- In an orderly environment a pass that has read its snapshot works through the log, and ends
there if a page cannot be read. -/
theorem Pagewise.along_run {P : List Candidate → Progress σ → Progress σ → Prop}
    {refs : List Reference} {marks : List Key}
    (pagewise : Pagewise settings env v ⟨.ofList refs, .ofKeys marks, ids⟩ (v.left world) P)
    (orderly : Orderly env v cap entries blips ids) (good : v.good world)
    (enough : (v.log world).toList.length < budget)
    (resolved : entries.map (Reference.ofEntry settings.tablesDir) = refs.map .ok)
    (named : blips.map (Key.ofPath settings.tablesDir .directory) = marks.map .ok) :
    ∃ p s, Fresh v world p ∧ P (readLog settings cap (v.log world)).1 p s ∧
      (run settings env budget world).outcome ≠ .unfinished ∧
      v.Same s.world (run settings env budget world).world ∧
      deletedTexts (run settings env budget world).calls = deletedTexts s.calls ∧
      removals (run settings env budget world).calls = removals s.calls ++
        if (readLog settings cap (v.log world)).2.isNone
        then s.ledger.removable ids (.ofList refs) else [] := by
  obtain ⟨p, s, fresh, processed, malformed, done⟩ :=
    pagewise.exec_steps orderly good enough resolved named
  refine ⟨p, s, fresh, processed, ?_⟩
  rcases hstop : (readLog settings cap (v.log world)).2 with _ | ⟨page, e⟩
  · obtain ⟨q, hq, same, -, texts, dirs⟩ := done hstop
    rw [run_of_ok hq]
    exact ⟨nofun, same, texts, dirs⟩
  · rw [run_of_failed (malformed page e hstop)]
    have counted := spared_counted orderly (pagewise.confined processed).good page
    exact ⟨nofun, counted.same, counted.texts, counted.dirs.trans (List.append_nil _).symm⟩

/-- What a pass has done to its log and what it has requested, by what goes. -/
structure Effect (v : View σ) (settings : Settings) (cap : Nat) (entries : List Entry)
    (blips ids : List String) (world : σ) (report : Report σ) : Prop where
  finished : report.outcome ≠ .unfinished
  log : ∀ x, x ∈ v.log report.world ↔ x ∈ v.log world ∧
    ∀ c ∈ (readLog settings cap (v.log world)).1, c.literal = x →
      ¬Goes settings entries blips (v.left world) c
  texts : ∀ x, x ∈ deletedTexts report.calls ↔
    ∃ c ∈ (readLog settings cap (v.log world)).1,
      Goes settings entries blips (v.left world) c ∧ c.literal = x
  ascending : (removals report.calls).Pairwise (· < ·)
  dirs : ∀ table, table ∈ removals report.calls ↔
    (readLog settings cap (v.log world)).2 = none ∧
      DirGoes settings entries blips ids (v.left world)
        (readLog settings cap (v.log world)).1 table

theorem effect_of_nothing {report : Report σ} (finished : report.outcome ≠ .unfinished)
    (nothing : ∀ c, ¬Goes settings entries blips (v.left world) c)
    (log : v.log report.world = v.log world) (texts : deletedTexts report.calls = [])
    (dirs : removals report.calls = []) :
    Effect v settings cap entries blips ids world report where
  finished := finished
  log x := by simp [log, nothing]
  texts x := by simp [texts, nothing]
  ascending := dirs ▸ .nil
  dirs table := by
    rw [dirs]
    refine ⟨fun h => absurd h List.not_mem_nil, fun h => ?_⟩
    obtain ⟨c, -, goes, -⟩ := h.2.emptied
    exact absurd goes (nothing c)

/-- A pass over an orderly environment deletes what goes, requests the removal of the directories
that go unless a page cannot be read, and does nothing else. -/
theorem orderly_pass_effect (orderly : Orderly env v cap entries blips ids) (good : v.good world)
    (enough : (v.log world).toList.length < budget) :
    Effect v settings cap entries blips ids world (run settings env budget world) := by
  by_cases readable : ∃ (refs : List Reference) (marks : List Key),
    entries.map (Reference.ofEntry settings.tablesDir) = refs.map .ok ∧
      blips.map (Key.ofPath settings.tablesDir .directory) = marks.map .ok
  case neg =>
    obtain ⟨cause, q, hq, fresh⟩ := exec_readSnapshot_unreadable orderly good readable
    have hsteps : exec (steps settings env budget) { world } = (.error (.failed cause), q) :=
      exec_bind_error hq
    rw [run_of_failed hsteps]
    refine effect_of_nothing (by simp) (fun c goes => readable ?_) fresh.same.log fresh.texts
      fresh.dirs
    obtain ⟨refs, resolved⟩ := goes.exists_refs
    obtain ⟨marks, named⟩ := goes.exists_marks
    exact ⟨refs, marks, resolved, named⟩
  obtain ⟨refs, marks, resolved, named⟩ := readable
  cases deletes : settings.safeMode with
  | true =>
    obtain ⟨p, s, fresh, spared, finished, same, texts, dirs⟩ :=
      (spared_pagewise orderly deletes _ _).along_run orderly good enough resolved named
    have untouched : s.ledger.removable ids (.ofList refs) = [] := by
      refine List.eq_nil_iff_forall_not_mem.mpr fun table hmem => ?_
      have lost := (TableLedger.mem_removable.mp hmem).1
      rw [spared.emptied, fresh.ledger] at lost
      simp [TableLedger.empty] at lost
    rw [untouched, ite_self, List.append_nil] at dirs
    refine effect_of_nothing finished (fun c goes => ?_)
      (same.log.trans (spared.same.log.trans fresh.same.log))
      (texts.trans (spared.texts.trans fresh.texts)) (dirs.trans (spared.dirs.trans fresh.dirs))
    rw [goes.deletes] at deletes
    cases deletes
  | false =>
    let rules : Rules := .of settings refs marks ids (v.left world)
    have pagewise : Pagewise settings env v rules.snapshot rules.failures (Processed rules v) :=
      processed_pagewise orderly deletes rfl
    obtain ⟨p, s, fresh, processed, finished, same, texts, dirs⟩ :=
      pagewise.along_run orderly good enough resolved named
    have goes : ∀ c, Goes settings entries blips (v.left world) c ↔ rules.goes c = true :=
      fun c => goes_iff resolved named deletes
    have removable : s.ledger.removable ids (.ofList refs) = rules.removable _ :=
      processed.removable_eq fresh.ledger
    rw [processed.dirs, fresh.dirs, List.nil_append, removable] at dirs
    refine ⟨finished, fun x => ?_, fun x => ?_, ?_, fun table => ?_⟩
    · rw [same.log, processed.log, fresh.same.log]
      simp only [goes, Bool.not_eq_true]
    · rw [texts, processed.texts, fresh.texts]
      simp only [goes, List.not_mem_nil, false_or]
    · rw [dirs]
      split
      · exact TableLedger.sorted_removable ..
      · exact .nil
    · rw [dirs, dirGoes_iff resolved named deletes, ← Option.isNone_iff_eq_none]
      split
      · rename_i none
        exact (and_iff_right none).symm
      · rename_i some
        exact ⟨fun h => absurd h List.not_mem_nil, fun h => absurd h.1 some⟩

/-! ## Two passes -/

section Two

variable {σ' : Type} {v' : View σ'} {env' : Environment σ'} {entries' : List Entry}
  {blips' ids' : List String} {world' : σ'} {report : Report σ} {report' : Report σ'}

section More

variable (effect : Effect v settings cap entries blips ids world report)
  (effect' : Effect v' settings cap entries' blips' ids' world' report')
  (log : v'.log world' = v.log world) (left : ∀ x, v'.left world' x = v.left world x)
  (moreEntries : entries ⊆ entries') (moreBlips : blips ⊆ blips')
include effect effect' log left moreEntries moreBlips

/-- With more entries and blips no text is deleted that is not deleted with fewer. -/
theorem Effect.texts_subset : deletedTexts report'.calls ⊆ deletedTexts report.calls := by
  intro x hx
  obtain ⟨c, hc, goes, hlit⟩ := (effect'.texts x).mp hx
  rw [log] at hc
  rw [funext left] at goes
  exact (effect.texts x).mpr ⟨c, hc, goes.mono moreEntries moreBlips, hlit⟩

/-- What the log still holds with fewer entries and blips it still holds with more. -/
theorem Effect.log_subset : ∀ x ∈ v.log report.world, x ∈ v'.log report'.world := by
  intro x hx
  obtain ⟨hmem, stays⟩ := (effect.log x).mp hx
  refine (effect'.log x).mpr ⟨log ▸ hmem, fun c hc hlit goes => ?_⟩
  rw [log] at hc
  rw [funext left] at goes
  exact stays c hc hlit (goes.mono moreEntries moreBlips)

/-- With more entries, blips and table ids no directory is requested to be removed that is not
requested with fewer. -/
theorem Effect.dirs_subset (moreIds : ids ⊆ ids') :
    removals report'.calls ⊆ removals report.calls := by
  intro table htable
  obtain ⟨whole, goes⟩ := (effect'.dirs table).mp htable
  rw [log] at whole goes
  rw [funext left] at goes
  exact (effect.dirs table).mpr ⟨whole, goes.mono moreEntries moreBlips moreIds⟩

end More

variable (settings) in
/-- Of two passes over orderly environments with the same log, the same failing deletions and the
same settings, the one for which there are more entries, blips and table ids deletes no more and
requests no more directories to be removed. If there are the same for both, in whatever order and
number, both delete the same and request the same. -/
theorem more_protection_deletes_less (orderly : Orderly env v cap entries blips ids)
    (orderly' : Orderly env' v' cap entries' blips' ids') (budget budget' : Nat) (world : σ)
    (world' : σ') (good : v.good world) (good' : v'.good world')
    (log : v'.log world' = v.log world) (left : ∀ x, v'.left world' x = v.left world x)
    (enough : (v.log world).toList.length < budget)
    (enough' : (v.log world).toList.length < budget') (moreEntries : entries ⊆ entries')
    (moreBlips : blips ⊆ blips') (moreIds : ids ⊆ ids') :
    (run settings env budget world).outcome ≠ .unfinished ∧
      (run settings env' budget' world').outcome ≠ .unfinished ∧
      deletedTexts (run settings env' budget' world').calls ⊆
        deletedTexts (run settings env budget world).calls ∧
      removals (run settings env' budget' world').calls ⊆
        removals (run settings env budget world).calls ∧
      (∀ x ∈ v.log (run settings env budget world).world,
        x ∈ v'.log (run settings env' budget' world').world) ∧
      (entries' ⊆ entries → blips' ⊆ blips → ids' ⊆ ids →
        (∀ x, x ∈ deletedTexts (run settings env' budget' world').calls ↔
          x ∈ deletedTexts (run settings env budget world).calls) ∧
        removals (run settings env' budget' world').calls =
          removals (run settings env budget world).calls ∧
        v'.log (run settings env' budget' world').world =
          v.log (run settings env budget world).world) := by
  have effect : Effect v settings cap entries blips ids world (run settings env budget world) :=
    orderly_pass_effect orderly good enough
  have effect' : Effect v' settings cap entries' blips' ids' world'
      (run settings env' budget' world') :=
    orderly_pass_effect orderly' good' (log ▸ enough')
  have texts := effect.texts_subset effect' log left moreEntries moreBlips
  have dirs := effect.dirs_subset effect' log left moreEntries moreBlips moreIds
  have stays := effect.log_subset effect' log left moreEntries moreBlips
  refine ⟨effect.finished, effect'.finished, texts, dirs, stays, ?_⟩
  intro fewerEntries fewerBlips fewerIds
  have left' : ∀ x, v.left world x = v'.left world' x := fun x => (left x).symm
  have texts' := effect'.texts_subset effect log.symm left' fewerEntries fewerBlips
  have dirs' := effect'.dirs_subset effect log.symm left' fewerEntries fewerBlips fewerIds
  have stays' := effect'.log_subset effect log.symm left' fewerEntries fewerBlips
  refine ⟨fun x => ⟨(texts ·), (texts' ·)⟩, ?_, NameSet.ext fun x => ⟨stays' x, stays x⟩⟩
  exact eq_of_ascending effect'.ascending effect.ascending fun x => ⟨(dirs ·), (dirs' ·)⟩

end Two

section Guarded

open Simulation

/-- A log with a file in use and tablet directories of dropped tables, one of them with its file. -/
def scarceWorld : World where
  log := ⟨["1/t-1/A.rf", "2/t-2", "2/t-2/B.rf", "3/t-3", "4/t-4"], by decide +kernel⟩
  references := [.ofFile "1" none "../1/t-1/A.rf"]
  tableIds := ["1"]
  pageCap := some 2
  deleteFailures := [("3/t-3", 1)]

/-- The same log with a reference into the second table, and with a third table that exists. -/
def guardedWorld : World := { scarceWorld with
  references := [.ofFile "5" none "../2/t-2/B.rf", .ofFile "1" none "/t-1/C.rf",
    .ofFile "1" none "../1/t-1/A.rf", .ofFile "1" none "../1/t-1/A.rf"]
  blips := ["1/t-1"]
  tableIds := ["3", "1"] }

/-- The reference keeps the file, its directory and that of the table. The third table loses its
tablet directory either way, but keeps its own as long as it exists. -/
theorem guarded_pass_deletes_less :
    deletedTexts (run repeatOnce environment 6 guardedWorld).calls ⊆
        deletedTexts (run repeatOnce environment 6 scarceWorld).calls ∧
      removals (run repeatOnce environment 6 guardedWorld).calls ⊆
        removals (run repeatOnce environment 6 scarceWorld).calls ∧
      deletedTexts (run repeatOnce environment 6 guardedWorld).calls = ["3/t-3", "4/t-4"] ∧
      removals (run repeatOnce environment 6 guardedWorld).calls = ["4"] ∧
      removals (run repeatOnce environment 6 scarceWorld).calls = ["2", "3", "4"] := by
  obtain ⟨-, -, texts, dirs, -⟩ :=
    more_protection_deletes_less repeatOnce
      (environment_orderly 2 scarceWorld.references scarceWorld.blips scarceWorld.tableIds)
      (environment_orderly 2 guardedWorld.references guardedWorld.blips guardedWorld.tableIds)
      6 6 scarceWorld guardedWorld
      ⟨rfl, rfl, rfl, rfl, rfl, rfl, rfl, rfl, rfl, rfl, rfl, rfl⟩
      ⟨rfl, rfl, rfl, rfl, rfl, rfl, rfl, rfl, rfl, rfl, rfl, rfl⟩
      (by simp only [tameView, guardedWorld]) (fun x => by simp only [tameView, guardedWorld])
      (by decide +kernel) (by decide +kernel)
      (by simp [scarceWorld, guardedWorld]) (by simp [scarceWorld, guardedWorld])
      (by simp [scarceWorld, guardedWorld])
  exact ⟨texts, dirs, by decide +kernel, by decide +kernel, by decide +kernel⟩

end Guarded

end Pass

end TabletSweep
