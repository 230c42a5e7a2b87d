import TabletSweep.Proofs.Pass.Pagewise
import TabletSweep.Proofs.Protection

/-!
# What becomes of the candidates of a log

In an orderly environment three things decide what becomes of a candidate: the snapshot, how often
the deletion of its text fails, and how often a deletion is repeated. `Rules` are the three, and the
`tally` of candidates is what they add to the counters.

`Processed` says of a stretch of candidates what has become of them, and nothing in it tells where
pages began and ended: what is true of two stretches is true of the one made of both
(`Processed.append`). It holds of a page (`exec_processPage_orderly`), and so of the whole log
(`processed_pagewise`).
-/

namespace TabletSweep

namespace Pass

open PassM

/-- What decides about candidates in an orderly environment. -/
structure Rules where
  snapshot : Snapshot
  /-- How many times the deletion of a text fails. -/
  failures : String → Nat
  /-- How many times a failed deletion is repeated at most. -/
  retries : Nat

namespace Rules

variable (rules : Rules)

/-- Whether a candidate goes: nothing is in the way, and its deletion is repeated often enough. -/
def goes (c : Candidate) : Bool :=
  rules.snapshot.frees c.key && rules.failures c.literal ≤ rules.retries

/-- Whether a candidate stays only because its deletion fails too often. -/
def fails (c : Candidate) : Bool :=
  rules.snapshot.frees c.key && rules.retries < rules.failures c.literal

/-- How many times the deletion of a candidate is repeated. -/
def repeats (c : Candidate) : Nat :=
  if rules.snapshot.frees c.key then min (rules.failures c.literal) rules.retries else 0

/-- What candidates on so many pages add to the counters of a pass. -/
def tally (pages : Nat) (cs : List Candidate) : Counters where
  pages
  candidates := cs.length
  inUse := cs.countP (rules.snapshot.live.keeps ·.key)
  blipProtected :=
    cs.countP fun c => !rules.snapshot.live.keeps c.key && rules.snapshot.loads.covers c.key
  confirmed := cs.countP (rules.snapshot.frees ·.key)
  deleted := cs.countP rules.goes
  deleteFailures := cs.countP rules.fails
  deleteRetries := (cs.map rules.repeats).sum

end Rules

/-- The counters with those of another stretch of a pass. -/
def plus (a b : Counters) : Counters where
  pages := a.pages + b.pages
  candidates := a.candidates + b.candidates
  inUse := a.inUse + b.inUse
  blipProtected := a.blipProtected + b.blipProtected
  confirmed := a.confirmed + b.confirmed
  deleted := a.deleted + b.deleted
  deleteFailures := a.deleteFailures + b.deleteFailures
  deleteRetries := a.deleteRetries + b.deleteRetries
  tableDirsRemoved := a.tableDirsRemoved + b.tableDirsRemoved

theorem plus_tally_append (rules : Rules) (a : Counters) (m n : Nat) (cs ds : List Candidate) :
    plus (plus a (rules.tally m cs)) (rules.tally n ds) =
      plus a (rules.tally (m + n) (cs ++ ds)) := by
  simp only [plus, Rules.tally, List.length_append, List.countP_append, List.map_append,
    List.sum_append_nat, Nat.add_assoc]

/-- What has become of candidates, and that nothing else has changed. -/
structure Processed (rules : Rules) {σ : Type} (v : View σ) (cs : List Candidate)
    (p q : Progress σ) : Prop where
  good : v.good q.world
  log : ∀ x, x ∈ v.log q.world ↔
    x ∈ v.log p.world ∧ ∀ c ∈ cs, c.literal = x → rules.goes c = false
  left : ∀ x, x ∉ cs.map (·.literal) → v.left q.world x = v.left p.world x
  emptied : ∀ t, t ∈ q.ledger.emptied ↔ t ∈ p.ledger.emptied ∨
    ∃ c ∈ cs, rules.goes c = true ∧ c.key.isDirectory = true ∧ t = c.key.table
  kept : ∀ t, t ∈ q.ledger.kept ↔ t ∈ p.ledger.kept ∨
    ∃ c ∈ cs, rules.goes c = false ∧ t = c.key.table
  counters : ∃ n, q.counters = plus p.counters (rules.tally n cs)
  texts : ∀ x, x ∈ deletedTexts q.calls ↔ x ∈ deletedTexts p.calls ∨
    ∃ c ∈ cs, rules.goes c = true ∧ c.literal = x
  dirs : removals q.calls = removals p.calls

variable {σ : Type} {v : View σ} {rules : Rules} {cs ds : List Candidate} {p q s : Progress σ}

theorem Processed.append (first : Processed rules v cs p q) (second : Processed rules v ds q s) :
    Processed rules v (cs ++ ds) p s where
  good := second.good
  log x := by
    rw [second.log, first.log, List.forall_mem_append, and_assoc]
  left x hx := by
    rw [List.map_append, List.mem_append, not_or] at hx
    rw [second.left x hx.2, first.left x hx.1]
  emptied t := by
    rw [second.emptied, first.emptied, or_assoc]
    simp only [List.mem_append, or_and_right, exists_or]
  kept t := by
    rw [second.kept, first.kept, or_assoc]
    simp only [List.mem_append, or_and_right, exists_or]
  counters := by
    obtain ⟨m, hm⟩ := first.counters
    obtain ⟨n, hn⟩ := second.counters
    exact ⟨m + n, by rw [hn, hm, plus_tally_append]⟩
  texts x := by
    rw [second.texts, first.texts, or_assoc]
    simp only [List.mem_append, or_and_right, exists_or]
  dirs := second.dirs.trans first.dirs

/-! ## A page -/

theorem sum_map_filter {α : Type} (f : α → Nat) (b : α → Bool) (xs : List α) :
    ((xs.filter b).map f).sum = (xs.map fun x => if b x then f x else 0).sum := by
  induction xs with
  | nil => rfl
  | cons x xs ih =>
    rw [List.filter_cons, List.map_cons, List.sum_cons, ← ih]
    split
    · rw [List.map_cons, List.sum_cons]
    · rw [Nat.zero_add]

section Judge

variable {failures : String → Nat} (same : ∀ c ∈ cs, failures c.literal = rules.failures c.literal)
include same

/-- Of the candidates that a page confirms those go whose deletion does not fail too often. -/
theorem Rules.mem_goes_iff (c : Candidate) :
    c ∈ (rules.snapshot.judge cs).confirmed ∧ failures c.literal ≤ rules.retries ↔
      c ∈ cs ∧ rules.goes c = true := by
  rw [Snapshot.judge_confirmed, List.mem_filter, and_assoc]
  refine and_congr_right fun hc => ?_
  rw [same c hc, Rules.goes, Bool.and_eq_true, decide_eq_true_iff]

theorem Rules.exists_goes_iff (P : Candidate → Prop) :
    (∃ c ∈ (rules.snapshot.judge cs).confirmed, failures c.literal ≤ rules.retries ∧ P c) ↔
      ∃ c ∈ cs, rules.goes c = true ∧ P c := by
  simp only [← and_assoc, Rules.mem_goes_iff same]

/-- What stays of a page is what it keeps at once and what could not be deleted of the rest. -/
theorem Rules.mem_stays_iff (c : Candidate) :
    c ∈ (rules.snapshot.judge cs).kept ∨
        c ∈ (rules.snapshot.judge cs).confirmed.filter (rules.retries < failures ·.literal) ↔
      c ∈ cs ∧ rules.goes c = false := by
  rw [Snapshot.mem_judge_kept, Snapshot.judge_confirmed, List.mem_filter, List.mem_filter,
    and_assoc, ← and_or_left]
  refine and_congr_right fun hc => ?_
  rw [same c hc, Rules.goes]
  cases rules.snapshot.frees c.key <;> simp

theorem Rules.forall_stays_iff {x : String} :
    (∀ c ∈ (rules.snapshot.judge cs).confirmed, c.literal = x → rules.retries < failures x) ↔
      ∀ c ∈ cs, c.literal = x → rules.goes c = false := by
  constructor
  · rintro h c hc rfl
    rw [← Bool.not_eq_true]
    intro hgoes
    obtain ⟨hmem, hle⟩ := (Rules.mem_goes_iff same c).mpr ⟨hc, hgoes⟩
    have hlt := h c hmem rfl
    omega
  · rintro h c hc rfl
    refine Nat.not_le.mp fun hle => ?_
    obtain ⟨hmem, hgoes⟩ := (Rules.mem_goes_iff same c).mp ⟨hc, hle⟩
    rw [h c hmem rfl] at hgoes
    cases hgoes

theorem Rules.countP_goes :
    (rules.snapshot.judge cs).confirmed.countP (failures ·.literal ≤ rules.retries) =
      cs.countP rules.goes := by
  rw [Snapshot.judge_confirmed, List.countP_filter]
  refine List.countP_congr fun c hc => ?_
  rw [same c hc, Rules.goes, Bool.and_comm]

theorem Rules.length_fails :
    ((rules.snapshot.judge cs).confirmed.filter (rules.retries < failures ·.literal)).length =
      cs.countP rules.fails := by
  rw [Snapshot.judge_confirmed, List.filter_filter, ← List.countP_eq_length_filter]
  refine List.countP_congr fun c hc => ?_
  rw [same c hc, Rules.fails, Bool.and_comm]

theorem Rules.sum_repeats :
    ((rules.snapshot.judge cs).confirmed.map fun c =>
      min (failures c.literal) rules.retries).sum = (cs.map rules.repeats).sum := by
  rw [Snapshot.judge_confirmed, sum_map_filter]
  refine congrArg List.sum (List.map_congr_left fun c hc => ?_)
  rw [same c hc, Rules.repeats]

end Judge

variable {settings : Settings} {env : Environment σ} {cap : Nat} {entries : List Entry}
  {blips ids : List String}

theorem exec_deletePage_orderly (orderly : Orderly env v cap entries blips ids)
    (deletes : settings.safeMode = false) (good : v.good p.world)
    (nodup : (cs.map (·.literal)).Nodup) :
    ∃ q, exec (deletePage settings env cs) p =
        (.ok (), givenUp (cs.filter (settings.onFailure.retries < v.left p.world ·.literal)) q) ∧
      Attempted v settings.onFailure.retries cs p q := by
  by_cases some : cs = []
  · subst some
    exact ⟨p, rfl, attempted_nil good⟩
  · obtain ⟨q, hq, attempted⟩ := exec_deleteBatch_orderly (r := settings.onFailure.retries)
      (p := { p with phase := .deleting }) orderly good nodup
    refine ⟨q, ?_, ⟨attempted.good, attempted.log, attempted.left, attempted.emptied,
      attempted.kept, attempted.counters, attempted.texts, attempted.dirs⟩⟩
    rw [exec_deletePage some deletes, exec_bind_ok hq, exec_giveUp]

/-- Working through a page processes its candidates. -/
theorem exec_processPage_orderly (orderly : Orderly env v cap entries blips ids)
    (deletes : settings.safeMode = false) (hretries : rules.retries = settings.onFailure.retries)
    {page : List String} (read : Candidate.ofPage settings.tablesDir page = .ok cs)
    (good : v.good p.world) (nodup : (cs.map (·.literal)).Nodup)
    (left : ∀ c ∈ cs, v.left p.world c.literal = rules.failures c.literal) :
    ∃ q, exec (processPage settings env rules.snapshot page) p = (.ok (), q) ∧
      Processed rules v cs p q := by
  let verdict := rules.snapshot.judge cs
  let p' := judged env verdict (counted env page p)
  have spared : Spared v p p' :=
    have counts := spared_counted orderly good page
    counts.trans (spared_judged orderly counts.same.good verdict)
  have same := spared.same
  have nodup_free : (verdict.confirmed.map (·.literal)).Nodup := by
    rw [Snapshot.judge_confirmed]
    exact (List.filter_sublist.map _).nodup nodup
  obtain ⟨q, hq, attempted⟩ :=
    exec_deletePage_orderly (p := p') orderly deletes same.good nodup_free
  have left' : ∀ c ∈ cs, v.left p'.world c.literal = rules.failures c.literal := by
    intro c hc
    rw [same.left, left c hc]
  rw [← hretries] at hq attempted
  refine ⟨_, (exec_processPage read).trans hq, attempted.good, fun x => ?_, fun x hx => ?_,
    fun t => ?_, fun t => ?_, ⟨1, ?_⟩, fun x => ?_, ?_⟩
  · change x ∈ v.log q.world ↔ _
    rw [attempted.log, same.log, Rules.forall_stays_iff left']
  · change v.left q.world x = _
    rw [attempted.left, if_neg, same.left]
    intro hmem
    obtain ⟨c, hc, rfl⟩ := List.mem_map.mp hmem
    rw [Snapshot.judge_confirmed] at hc
    exact hx (List.mem_map_of_mem (List.mem_filter.mp hc).1)
  · change t ∈ (q.ledger.keptAll _).emptied ↔ _
    rw [TableLedger.emptied_keptAll, attempted.emptied, Rules.exists_goes_iff left',
      spared.emptied]
  · change t ∈ (q.ledger.keptAll _).kept ↔ _
    rw [TableLedger.mem_kept_keptAll, attempted.kept]
    change t ∈ (p.ledger.keptAll verdict.kept).kept ∨ _ ↔ _
    rw [TableLedger.mem_kept_keptAll, or_assoc, ← exists_or]
    simp only [← or_and_right, verdict, Rules.mem_stays_iff left', and_assoc]
  · have hlength : page.length = cs.length := by
      rw [← (ofPage_eq_ok_iff.mp read).1, List.length_map]
    simp only [givenUp]
    rw [Rules.length_fails left', attempted.counters, Rules.countP_goes left',
      Rules.sum_repeats left']
    simp only [p', judged, counted, verdict, Snapshot.judge_inUse,
      Snapshot.judge_blipProtected, Snapshot.judge_confirmed, hlength,
      ← List.countP_eq_length_filter]
    rfl
  · change x ∈ deletedTexts q.calls ↔ _
    rw [attempted.texts, Rules.exists_goes_iff left', spared.texts]
  · exact attempted.dirs.trans spared.dirs

/-! ## The log -/

theorem Processed.confined (processed : Processed rules v cs p q) : Confined v cs p q where
  good := processed.good
  log x hx := ((processed.log x).mp hx).1
  rest x hx hnot := by
    refine (processed.log x).mpr ⟨hx, ?_⟩
    rintro c hc rfl
    exact absurd (List.mem_map_of_mem hc) hnot
  left := processed.left

/-- A call that changes nothing that is seen, and is no deletion, processes nothing. -/
theorem processed_noted {world : σ} {call : Call} (same : v.Same p.world world)
    (texts : call.deletedTexts = []) (dir : call.removal? = none) :
    Processed rules v [] p ({ p with phase := .fetching }.noted world call) where
  good := same.good
  log x := by simp [same.log]
  left x _ := by simp [same.left]
  emptied t := by simp
  kept t := by simp
  counters := ⟨0, rfl⟩
  texts x := by simp [deletedTexts, texts]
  dirs := by simp [removals, dir]

/-- A pass that deletes processes the candidates of each page. -/
theorem processed_pagewise (orderly : Orderly env v cap entries blips ids)
    (deletes : settings.safeMode = false) (hretries : rules.retries = settings.onFailure.retries) :
    Pagewise settings env v rules.snapshot rules.failures (Processed rules v) where
  confined := Processed.confined
  append := Processed.append
  fetched same := processed_noted same rfl rfl
  processed read good nodup left := by
    obtain ⟨rfl, -⟩ := ofPage_eq_ok_iff.mp read
    exact exec_processPage_orderly orderly deletes hretries read good nodup
      fun c hc => left c.literal (List.mem_map_of_mem hc)

end Pass

end TabletSweep
