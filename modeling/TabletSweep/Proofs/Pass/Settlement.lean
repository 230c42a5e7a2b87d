import TabletSweep.Proofs.Pass.Tally
import TabletSweep.Proofs.Simulation

/-!
# The result of a pass over an orderly environment

In an orderly environment a pass is done once it may ask for enough pages, and what it leaves is
known from the log, the rules and the table ids alone: which candidates go, what the log still
holds, which directories of tables are to be removed, and all counters but that of the pages
(`orderly_pass_settles`). How many texts are asked for at a time and how many a page has does not
come into it.
-/

namespace TabletSweep

namespace Pass

open PassM

variable {σ : Type} {v : View σ} {settings : Settings} {env : Environment σ} {cap : Nat}
  {entries : List Entry} {blips ids : List String} {p : Progress σ}

/-- The rules of a pass that has read in references, bulk loads and table ids. -/
def Rules.of (settings : Settings) (refs : List Reference) (marks : List Key) (ids : List String)
    (failures : String → Nat) : Rules :=
  ⟨⟨.ofList refs, .ofKeys marks, ids⟩, failures, settings.onFailure.retries⟩

/-- What a ledger has noted once all candidates of a log are settled. -/
def Rules.ledger (rules : Rules) (cs : List Candidate) : TableLedger :=
  (TableLedger.empty.deletedAll (cs.filter rules.goes)).keptAll (cs.filter (!rules.goes ·))

/-- The tables whose directories are to be removed once all candidates of a log are settled. -/
def Rules.removable (rules : Rules) (cs : List Candidate) : List String :=
  (rules.ledger cs).removable rules.snapshot.tables rules.snapshot.live

section Ledger

variable {rules : Rules} {cs : List Candidate} {table : String}

theorem Rules.mem_emptied_ledger :
    table ∈ (rules.ledger cs).emptied ↔
      ∃ c ∈ cs, rules.goes c = true ∧ c.key.isDirectory = true ∧ table = c.key.table := by
  rw [Rules.ledger, TableLedger.emptied_keptAll, TableLedger.mem_emptied_deletedAll]
  simp [TableLedger.empty, and_assoc]

theorem Rules.mem_kept_ledger :
    table ∈ (rules.ledger cs).kept ↔ ∃ c ∈ cs, rules.goes c = false ∧ table = c.key.table := by
  rw [Rules.ledger, TableLedger.mem_kept_keptAll, TableLedger.kept_deletedAll]
  simp [TableLedger.empty, and_assoc]

/-- A table's directory is to be removed once all candidates of a log are settled if one of its
tablet directories goes, none of its candidates stays, it does not exist any more, and no reference
points into it. -/
theorem Rules.mem_removable :
    table ∈ rules.removable cs ↔
      (∃ c ∈ cs, rules.goes c = true ∧ c.key.isDirectory = true ∧ table = c.key.table) ∧
        table ∉ rules.snapshot.tables ∧
        (¬∃ c ∈ cs, rules.goes c = false ∧ table = c.key.table) ∧
        rules.snapshot.live.reaches table = false := by
  rw [Rules.removable, TableLedger.mem_removable, Rules.mem_emptied_ledger, Rules.mem_kept_ledger]

end Ledger

/-- A pass that has read its snapshot has changed nothing that is seen, and has noted and deleted
nothing. -/
structure Fresh (v : View σ) (world : σ) (p : Progress σ) : Prop where
  same : v.Same world p.world
  counters : p.counters = {}
  ledger : p.ledger = .empty
  texts : deletedTexts p.calls = []
  dirs : removals p.calls = []

/-- In an orderly environment the scans are read into the references and the bulk loads that they
name. -/
theorem exec_readSnapshot_orderly (orderly : Orderly env v cap entries blips ids) {world : σ}
    (good : v.good world) {refs : List Reference} {marks : List Key}
    (resolved : entries.map (Reference.ofEntry settings.tablesDir) = refs.map .ok)
    (named : blips.map (Key.ofPath settings.tablesDir .directory) = marks.map .ok) :
    ∃ q, exec (readSnapshot settings env) { world } = (.ok ⟨.ofList refs, .ofKeys marks, ids⟩, q) ∧
      Fresh v world q := by
  obtain ⟨w, hrefs, same⟩ := orderly.references world good
  obtain ⟨w', hblips, same'⟩ := orderly.blips w same.good
  obtain ⟨w'', hids, same''⟩ := orderly.tableIds w' same'.good
  let start : Progress σ := { world }
  refine ⟨((start.noted w (.references (.ok (entries.map .ok)) entries.length)).noted w'
    (.blips (.ok (blips.map .ok)) blips.length)).noted w'' (.tableIds (.ok ids)), ?_,
    (same.trans same').trans same'', rfl, rfl, rfl, rfl⟩
  rw [readSnapshot, exec_bind_ok (exec_scan hrefs (readEntries_ok resolved)),
    exec_bind_ok (exec_scan hblips (readBlips_ok named)), exec_bind_ok (exec_ask_ok hids)]
  rfl

/-- In an orderly environment the removal of each table's directory is requested. -/
theorem exec_removeTableDirs_orderly (orderly : Orderly env v cap entries blips ids)
    (good : v.good p.world) (tables : List String) :
    ∃ q, exec (removeTableDirs env tables) p = (.ok (), q) ∧ v.Same p.world q.world ∧
      q.counters = { p.counters with
        tableDirsRemoved := p.counters.tableDirsRemoved + tables.length } ∧
      deletedTexts q.calls = deletedTexts p.calls ∧
      removals q.calls = removals p.calls ++ tables := by
  induction tables generalizing p with
  | nil => exact ⟨p, rfl, ⟨good, rfl, rfl⟩, rfl, rfl, (List.append_nil _).symm⟩
  | cons table tables ih =>
    obtain ⟨removed, w, answered, same⟩ := orderly.removeTableDir p.world table good
    obtain ⟨q, hq, same', hcounters, htexts, hdirs⟩ :=
      ih (p := removedDir (p.noted w (.removeTableDir table (.ok removed)))) same.good
    refine ⟨q, ?_, same.trans same', ?_, ?_, ?_⟩
    · rw [removeTableDirs, exec_bind_ok (exec_ask_ok answered)]
      exact hq
    · rw [hcounters, List.length_cons, Nat.add_comm tables.length, ← Nat.add_assoc]
      rfl
    · rw [htexts]
      change deletedTexts (p.calls ++ [_]) = _
      rw [deletedTexts_append]
      exact List.append_nil _
    · rw [hdirs]
      change removals (p.calls ++ [_]) ++ _ = _
      rw [removals_append, List.append_assoc]
      rfl

section Steps

variable {refs : List Reference} {marks : List Key} {budget : Nat} {world : σ}

/-- In an orderly environment a pass reads its snapshot, works through the log, and requests the
removal of directories unless the log has a page that cannot be read. -/
theorem Pagewise.exec_steps {P : List Candidate → Progress σ → Progress σ → Prop}
    (pagewise : Pagewise settings env v ⟨.ofList refs, .ofKeys marks, ids⟩ (v.left world) P)
    (orderly : Orderly env v cap entries blips ids) (good : v.good world)
    (enough : (v.log world).toList.length < budget)
    (resolved : entries.map (Reference.ofEntry settings.tablesDir) = refs.map .ok)
    (named : blips.map (Key.ofPath settings.tablesDir .directory) = marks.map .ok) :
    ∃ p s, Fresh v world p ∧ P (readLog settings cap (v.log world)).1 p s ∧
      (∀ page e, (readLog settings cap (v.log world)).2 = some (page, e) →
        exec (steps settings env budget) { world } =
          (.error (.failed (.malformedPath e)), counted env page s)) ∧
      ((readLog settings cap (v.log world)).2 = none →
        ∃ q, exec (steps settings env budget) { world } = (.ok (), q) ∧
          v.Same s.world q.world ∧
          q.counters = { s.counters with
            tableDirsRemoved := s.counters.tableDirsRemoved +
              (s.ledger.removable ids (.ofList refs)).length } ∧
          deletedTexts q.calls = deletedTexts s.calls ∧
          removals q.calls = removals s.calls ++ s.ledger.removable ids (.ofList refs)) := by
  obtain ⟨p, hp, fresh⟩ := exec_readSnapshot_orderly orderly good resolved named
  have same := fresh.same
  have short : ((v.log world).after "").length < budget :=
    Nat.lt_of_le_of_lt (List.length_filter_le ("" < ·) (v.log world).toList) enough
  obtain ⟨s, hs, processed⟩ := pagewise.exec_processLog (p := p) orderly short same.good
    (by rw [same.log]) fun x _ => by rw [same.left]
  refine ⟨p, s, fresh, processed, fun page e hstop => ?_, fun hstop => ?_⟩
  · rw [readLog] at hstop
    rw [steps, exec_bind_ok hp, exec_bind_error]
    rw [hs, hstop]
    rfl
  · rw [readLog] at hstop
    rw [hstop] at hs
    have cleaned := exec_removeTableDirs_orderly (p := { s with phase := .cleaningTableDirs })
      orderly (pagewise.confined processed).good (s.ledger.removable ids (.ofList refs))
    rw [steps, exec_bind_ok hp, exec_bind_ok hs, exec_bind_ok (exec_enter s .cleaningTableDirs),
      exec_bind_ok (exec_get _)]
    exact cleaned

end Steps

/-- A ledger that has noted the same tables lists the same tables as removable. -/
theorem removable_eq_of_mem {a b : TableLedger} {existing : List String} {live : LiveKeys}
    (emptied : ∀ t, t ∈ a.emptied ↔ t ∈ b.emptied) (kept : ∀ t, t ∈ a.kept ↔ t ∈ b.kept) :
    a.removable existing live = b.removable existing live := by
  refine eq_of_ascending (TableLedger.sorted_removable ..) (TableLedger.sorted_removable ..) ?_
  intro t
  rw [TableLedger.mem_removable, TableLedger.mem_removable, emptied, kept]

/-- A ledger that has noted the candidates page by page lists the same tables as removable as if it
had noted all of them at once. -/
theorem Processed.removable_eq {rules : Rules} {cs : List Candidate} {q : Progress σ}
    (processed : Processed rules v cs p q) (fresh : p.ledger = .empty) :
    q.ledger.removable rules.snapshot.tables rules.snapshot.live = rules.removable cs := by
  refine removable_eq_of_mem (fun t => ?_) fun t => ?_
  · rw [processed.emptied, fresh, Rules.mem_emptied_ledger]
    simp [TableLedger.empty]
  · rw [processed.kept, fresh, Rules.mem_kept_ledger]
    simp [TableLedger.empty]

/-- In an orderly environment all steps of a pass are made, and the candidates of its log are
processed on the way. -/
theorem exec_steps_orderly (orderly : Orderly env v cap entries blips ids) (cap_pos : 1 ≤ cap)
    (batch_pos : 1 ≤ settings.batchSize) (deletes : settings.safeMode = false) {budget : Nat}
    {world : σ} (good : v.good world) (enough : (v.log world).toList.length < budget)
    {refs : List Reference} {marks : List Key} {cs : List Candidate}
    (resolved : entries.map (Reference.ofEntry settings.tablesDir) = refs.map .ok)
    (named : blips.map (Key.ofPath settings.tablesDir .directory) = marks.map .ok)
    (read : Candidate.ofPage settings.tablesDir ((v.log world).after "") = .ok cs)
    {rules : Rules} (hrules : rules = .of settings refs marks ids (v.left world)) :
    ∃ q, exec (steps settings env budget) { world } = (.ok (), q) ∧
      (∀ x, x ∈ v.log q.world ↔
        x ∈ v.log world ∧ ∀ c ∈ cs, c.literal = x → rules.goes c = false) ∧
      (∀ x, x ∈ deletedTexts q.calls ↔ ∃ c ∈ cs, rules.goes c = true ∧ c.literal = x) ∧
      removals q.calls = rules.removable cs ∧
      ∃ pages, q.counters =
        { rules.tally pages cs with tableDirsRemoved := (rules.removable cs).length } := by
  subst hrules
  let rules : Rules := .of settings refs marks ids (v.left world)
  have whole : readLog settings cap (v.log world) = (cs, none) :=
    readPages_eq (Nat.le_min.mpr ⟨batch_pos, cap_pos⟩) read
  have pagewise : Pagewise settings env v rules.snapshot rules.failures (Processed rules v) :=
    processed_pagewise orderly deletes rfl
  obtain ⟨p, s, fresh, processed, -, done⟩ :=
    pagewise.exec_steps orderly good enough resolved named
  rw [whole] at processed done
  obtain ⟨q, hq, same, hcounters, htexts, hdirs⟩ := done rfl
  have hremovable : s.ledger.removable ids (.ofList refs) = rules.removable cs :=
    processed.removable_eq fresh.ledger
  rw [hremovable] at hcounters hdirs
  refine ⟨q, hq, fun x => ?_, fun x => ?_, ?_, ?_⟩
  · rw [same.log, processed.log, fresh.same.log]
  · rw [htexts, processed.texts, fresh.texts]
    simp [rules]
  · rw [hdirs, processed.dirs, fresh.dirs, List.nil_append]
  · obtain ⟨pages, hpages⟩ := processed.counters
    refine ⟨pages, ?_⟩
    rw [hcounters, hpages, fresh.counters]
    simp [plus, Rules.tally, rules]

/-- A candidate stays if a reference protects it, if it is under bulk load, or if its deletion fails
more often than it is repeated. -/
theorem Rules.of_goes_eq_false_iff {refs : List Reference} {marks : List Key}
    {failures : String → Nat} {c : Candidate} :
    (Rules.of settings refs marks ids failures).goes c = false ↔
      (∃ r ∈ refs, r.Protects c.key) ∨ (∃ m ∈ marks, c.key.directory = m.directory) ∨
        settings.onFailure.retries < failures c.literal := by
  rw [← LiveKeys.keeps_ofList, ← BulkLoads.covers_ofKeys, Rules.goes, Bool.and_eq_false_iff,
    decide_eq_false_iff_not, Nat.not_le, Snapshot.frees_eq_false_iff, or_assoc]
  rfl

variable (settings) in
/-- In an orderly environment a pass that may ask for enough pages is done. A candidate stays
exactly if it is protected, under bulk load, or fails to be deleted too often. What the log still
holds, what was deleted, which directories of tables are to be removed, and what was counted besides
pages follows from the log, the rules and the table ids, whatever the batch size and the cap of the
pages. -/
theorem orderly_pass_settles (orderly : Orderly env v cap entries blips ids) (cap_pos : 1 ≤ cap)
    (batch_pos : 1 ≤ settings.batchSize) (deletes : settings.safeMode = false) (budget : Nat)
    (world : σ) (good : v.good world) (enough : (v.log world).toList.length < budget)
    (refs : List Reference) (marks : List Key) (cs : List Candidate)
    (resolved : entries.map (Reference.ofEntry settings.tablesDir) = refs.map .ok)
    (named : blips.map (Key.ofPath settings.tablesDir .directory) = marks.map .ok)
    (read : Candidate.ofPage settings.tablesDir ((v.log world).after "") = .ok cs)
    (rules : Rules) (hrules : rules = .of settings refs marks ids (v.left world)) :
    (run settings env budget world).outcome = .done ∧
      (∀ c ∈ cs, c.literal ∈ v.log (run settings env budget world).world ↔
        (∃ r ∈ refs, r.Protects c.key) ∨ (∃ m ∈ marks, c.key.directory = m.directory) ∨
          settings.onFailure.retries < v.left world c.literal) ∧
      v.log (run settings env budget world).world =
        (v.log world).eraseAll ((cs.filter rules.goes).map (·.literal)) ∧
      NameSet.ofList (deletedTexts (run settings env budget world).calls) =
        .ofList ((cs.filter rules.goes).map (·.literal)) ∧
      removals (run settings env budget world).calls = rules.removable cs ∧
      ∃ pages, (run settings env budget world).counters =
        { rules.tally pages cs with tableDirsRemoved := (rules.removable cs).length } := by
  obtain ⟨q, hq, hlog, htexts, hdirs, hcounters⟩ := exec_steps_orderly orderly cap_pos batch_pos
    deletes good enough resolved named read hrules
  rw [run_of_ok hq]
  refine ⟨rfl, fun c hc => ?_, NameSet.ext fun x => ?_, NameSet.ext fun x => ?_, hdirs, hcounters⟩
  · obtain ⟨hrest, -⟩ := ofPage_eq_ok_iff.mp read
    rw [← Rules.of_goes_eq_false_iff, ← hrules]
    change c.literal ∈ v.log q.world ↔ _
    rw [hlog]
    constructor
    · rintro ⟨-, h⟩
      exact h c hc rfl
    · intro hstays
      have hmem : c.literal ∈ (v.log world).after "" := hrest ▸ List.mem_map_of_mem hc
      refine ⟨(NameSet.mem_after.mp hmem).1, fun d hd hlit => ?_⟩
      rw [eq_of_literal_eq read hd hc hlit, hstays]
  · change x ∈ v.log q.world ↔ _
    rw [hlog, NameSet.mem_eraseAll]
    refine and_congr_right fun _ => ?_
    simp only [List.mem_map, List.mem_filter, not_exists, not_and, and_imp]
    exact ⟨fun h c hc hgoes hlit => by simp [h c hc hlit] at hgoes,
      fun h c hc hlit => Bool.eq_false_iff.mpr fun hgoes => h c hc hgoes hlit⟩
  · rw [NameSet.mem_ofList, NameSet.mem_ofList, htexts]
    simp only [List.mem_map, List.mem_filter, and_assoc]

section Tame

open Simulation

/-- A log with a file in use, a file whose deletion fails twice, the last tablet directory of a
dropped table, whose deletion fails once, and a file under bulk load. -/
def tameWorld : World where
  log := ⟨["", "1/t-1/A.rf", "1/t-1/B.rf", "2/t-2", "3/t-3/C.rf"], by decide +kernel⟩
  references := [.ofFile "1" none "../1/t-1/A.rf"]
  blips := ["3/t-3"]
  tableIds := ["1", "3"]
  pageCap := some 2
  deleteFailures := [("1/t-1/B.rf", 2), ("2/t-2", 1)]

/-- The settings of a pass that repeats a deletion once. -/
def repeatOnce : Settings where
  batchSize := 3
  onFailure := .retry 1

/-- The candidates of the log. -/
def tameCandidates : List Candidate :=
  [⟨"1/t-1/A.rf", "1", "t-1", some "A.rf"⟩, ⟨"1/t-1/B.rf", "1", "t-1", some "B.rf"⟩,
    ⟨"2/t-2", "2", "t-2", none⟩, ⟨"3/t-3/C.rf", "3", "t-3", some "C.rf"⟩]

/-- The tablet directory goes after one repetition, and with it the directory of its table. -/
theorem tame_pass_settles :
    (run repeatOnce environment 6 tameWorld).outcome = .done ∧
      (run repeatOnce environment 6 tameWorld).world.log.toList =
        ["", "1/t-1/A.rf", "1/t-1/B.rf", "3/t-3/C.rf"] ∧
      removals (run repeatOnce environment 6 tameWorld).calls = ["2"] ∧
      (run repeatOnce environment 6 tameWorld).counters.deleteRetries = 2 := by
  obtain ⟨done, -, hlog, -, hdirs, pages, hcounters⟩ :=
    orderly_pass_settles repeatOnce
      (environment_orderly 2 [.ofFile "1" none "../1/t-1/A.rf"] ["3/t-3"] ["1", "3"])
      (by decide) (by decide) rfl 6 tameWorld
      ⟨rfl, rfl, rfl, rfl, rfl, rfl, rfl, rfl, rfl, rfl, rfl, rfl⟩ (by decide +kernel)
      [.file ⟨"1", "t-1", some "A.rf"⟩] [⟨"3", "t-3", none⟩] tameCandidates
      (by decide +kernel) (by decide +kernel) (by decide +kernel) _ rfl
  simp only [tameView] at hlog hdirs hcounters
  rw [hlog, hdirs, hcounters]
  refine ⟨done, by decide +kernel, by decide +kernel, ?_⟩
  show (tameCandidates.map (Rules.repeats _)).sum = 2
  decide +kernel

end Tame

end Pass

end TabletSweep
