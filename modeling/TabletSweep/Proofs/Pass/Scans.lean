import TabletSweep.Proofs.Ledger
import TabletSweep.Proofs.Pass.Machine
import TabletSweep.Proofs.Reading

/-!
# The scans behind the deletions of a pass

A pass asks for its two scans first, each once, and a snapshot is what they were read into
(`ReadIn`). The calls of the pass tell what is protected: `Refers` and `Marks` say what the answers
to the scans name, whatever else was asked, and a call is `Unreadable` if it is a scan in which
something cannot be read. A snapshot that was read in keeps all that the scans name
(`ReadIn.keeps`, `ReadIn.covers`), and there is none where a scan is unreadable
(`ReadIn.readable`).

`Justified` says what is known of a call from those before it, above all why a batch was handed out
for deletion and why the directory of a table was to be removed, and `Grounded` what is known in
each configuration of the machine. Every step keeps the two (`grounded_step`), so they hold wherever
a run ends.
-/

namespace TabletSweep

/-- Whether a call is a scan in which something cannot be read: an error, an entry that does not
resolve, or a blip that names no directory. -/
def Call.Unreadable (settings : Settings) : Call → Prop
  | .references (.error _) _ | .blips (.error _) _ => True
  | .references (.ok items) _ => ∃ item ∈ items, ∀ entry r, item = .ok entry →
    Reference.ofEntry settings.tablesDir entry ≠ .ok r
  | .blips (.ok items) _ => ∃ item ∈ items, ∀ blip key, item = .ok blip →
    Key.ofPath settings.tablesDir .directory blip ≠ .ok key
  | _ => False

namespace Pass

open PassM

variable {σ : Type} (settings : Settings)

/-! ## What the scans name -/

/-- An entry of a metadata scan resolves to the reference. -/
def Refers (calls : List Call) (r : Reference) : Prop :=
  ∃ items read entry, .references (.ok items) read ∈ calls ∧ .ok entry ∈ items ∧
    Reference.ofEntry settings.tablesDir entry = .ok r

/-- A blip of a scan names the tablet directory. -/
def Marks (calls : List Call) (key : Key) : Prop :=
  ∃ items read blip, .blips (.ok items) read ∈ calls ∧ .ok blip ∈ items ∧
    Key.ofPath settings.tablesDir .directory blip = .ok key

/-- The calls begin with the scans that the snapshot was read from. -/
def ReadIn (snapshot : Snapshot) (calls : List Call) : Prop :=
  ∃ answer read answer' read' rest,
    calls = .references answer read :: .blips answer' read' :: rest ∧
    readAnswer .references (takeEntry settings) .empty answer = (read, .ok snapshot.live) ∧
    readAnswer .blips (takeBlip settings) .empty answer' = (read', .ok snapshot.loads)

/-- A batch may be deleted: its candidates are of the page that was served last, each with the key
that its literal spells out, and nothing is in the way of deleting them. -/
structure Cleared (snapshot : Snapshot) (calls : List Call) (batch : List Candidate) : Prop where
  served : ∃ page, (pages calls).getLast? = some page ∧ ∀ c ∈ batch, c.literal ∈ page
  read : ∀ c ∈ batch, Key.ofPath settings.tablesDir .any c.literal = .ok c.key
  free : ∀ c ∈ batch, snapshot.frees c.key = true

/-- A tablet directory of the table was handed out for deletion. -/
def HandedOut (calls : List Call) (table : String) : Prop :=
  ∃ batch answer c, .delete batch answer ∈ calls ∧ c ∈ batch ∧ c.key.isDirectory = true ∧
    table = c.key.table

/-- The directory of a table may be removed: the table has lost a tablet directory, does not exist
any more, and is not pointed into. -/
structure Vacated (snapshot : Snapshot) (calls : List Call) (table : String) : Prop where
  handedOut : HandedOut calls table
  dropped : table ∉ snapshot.tables
  unreached : snapshot.live.reaches table = false

/-- What is known of a call from the calls before it: each scan is asked for once, and by a snapshot
that was read in, a batch may be deleted, and the directory of a table may be removed. -/
def Justified (before : List Call) : Call → Prop
  | .references .. => before = []
  | .blips .. => before.length = 1
  | .delete batch _ => ∃ snapshot, ReadIn settings snapshot before ∧
    Cleared settings snapshot before batch
  | .removeTableDir table _ => ∃ snapshot, ReadIn settings snapshot before ∧
    Vacated snapshot before table
  | _ => True

variable {settings} {calls more : List Call} {snapshot : Snapshot}

theorem ReadIn.append (h : ReadIn settings snapshot calls) :
    ReadIn settings snapshot (calls ++ more) := by
  obtain ⟨answer, read, answer', read', rest, rfl, hlive, hloads⟩ := h
  exact ⟨answer, read, answer', read', rest ++ more, rfl, hlive, hloads⟩

/-- Part of a batch that may be deleted may be deleted later, as long as no page is served. -/
theorem Cleared.append {batch part : List Candidate} (h : Cleared settings snapshot calls batch)
    (sub : part ⊆ batch) (hmore : pages more = []) :
    Cleared settings snapshot (calls ++ more) part := by
  obtain ⟨page, hpage, hserved⟩ := h.served
  refine ⟨⟨page, ?_, fun c hc => hserved c (sub hc)⟩, fun c hc => h.read c (sub hc),
    fun c hc => h.free c (sub hc)⟩
  rw [pages_append, hmore, List.append_nil, hpage]

theorem HandedOut.append {table : String} (h : HandedOut calls table) :
    HandedOut (calls ++ more) table := by
  obtain ⟨batch, answer, c, mem, hc⟩ := h
  exact ⟨batch, answer, c, List.mem_append_left more mem, hc⟩

theorem Vacated.append {table : String} (h : Vacated snapshot calls table) :
    Vacated snapshot (calls ++ more) table :=
  ⟨h.handedOut.append, h.dropped, h.unreached⟩

/-- In a metadata scan from which all references were gathered everything can be read. -/
theorem references_readable {answer : Except ServiceError (Scan Entry)} {read n : Nat}
    {live : LiveKeys}
    (gathered : readAnswer .references (takeEntry settings) .empty answer = (read, .ok live)) :
    ¬(Call.references answer n).Unreadable settings := by
  obtain ⟨entries, refs, rfl, hrefs, -⟩ := readEntries_eq_ok_iff.mp gathered
  rintro ⟨item, hitem, hnone⟩
  obtain ⟨entry, hentry, rfl⟩ := List.mem_map.mp hitem
  obtain ⟨r, -, hr⟩ := exists_ok_of_map_eq_map_ok hrefs hentry
  exact hnone entry r rfl hr

/-- In a scan of blips from which all bulk loads were gathered everything can be read. -/
theorem blips_readable {answer : Except ServiceError (Scan String)} {read n : Nat}
    {loads : BulkLoads}
    (gathered : readAnswer .blips (takeBlip settings) .empty answer = (read, .ok loads)) :
    ¬(Call.blips answer n).Unreadable settings := by
  obtain ⟨blips, keys, rfl, hkeys, -⟩ := readBlips_eq_ok_iff.mp gathered
  rintro ⟨item, hitem, hnone⟩
  obtain ⟨blip, hblip, rfl⟩ := List.mem_map.mp hitem
  obtain ⟨key, -, hkey⟩ := exists_ok_of_map_eq_map_ok hkeys hblip
  exact hnone blip key rfl hkey

/-- The references are asked for once. -/
theorem references_once (each : EachCall (Justified settings) calls)
    {answer answer' : Except ServiceError (Scan Entry)} {n n' : Nat}
    (mem : .references answer n ∈ calls) (mem' : .references answer' n' ∈ calls) :
    answer = answer' := by
  obtain ⟨before, after, h⟩ := List.append_of_mem mem
  obtain ⟨before', after', h'⟩ := List.append_of_mem mem'
  obtain rfl : before = [] := each before _ after h
  obtain rfl : before' = [] := each before' _ after' h'
  cases h.symm.trans h'
  rfl

/-- The blips are asked for once. -/
theorem blips_once (each : EachCall (Justified settings) calls)
    {answer answer' : Except ServiceError (Scan String)} {n n' : Nat}
    (mem : .blips answer n ∈ calls) (mem' : .blips answer' n' ∈ calls) : answer = answer' := by
  obtain ⟨before, after, h⟩ := List.append_of_mem mem
  obtain ⟨before', after', h'⟩ := List.append_of_mem mem'
  obtain ⟨x, rfl⟩ := List.length_eq_one_iff.mp (each before _ after h)
  obtain ⟨x', rfl⟩ := List.length_eq_one_iff.mp (each before' _ after' h')
  cases h.symm.trans h'
  rfl

/-- A snapshot that was read in was read from a metadata scan. -/
theorem ReadIn.exists_references (read : ReadIn settings snapshot calls) :
    ∃ answer n, .references answer n ∈ calls ∧
      readAnswer .references (takeEntry settings) .empty answer = (n, .ok snapshot.live) := by
  obtain ⟨answer, n, _, _, _, rfl, live, -⟩ := read
  exact ⟨answer, n, List.mem_cons_self .., live⟩

/-- A snapshot that was read in was read from a scan of blips. -/
theorem ReadIn.exists_blips (read : ReadIn settings snapshot calls) :
    ∃ answer n, .blips answer n ∈ calls ∧
      readAnswer .blips (takeBlip settings) .empty answer = (n, .ok snapshot.loads) := by
  obtain ⟨_, _, answer, n, _, rfl, -, loads⟩ := read
  exact ⟨answer, n, List.mem_cons_of_mem _ (List.mem_cons_self ..), loads⟩

section ReadIn

variable (read : ReadIn settings snapshot calls) (each : EachCall (Justified settings) calls)
include read each

/-- The one metadata scan of a pass is what the references were read from. -/
theorem ReadIn.references_mem {answer : Except ServiceError (Scan Entry)} {n : Nat}
    (mem : .references answer n ∈ calls) :
    ∃ (entries : List Entry) (refs : List Reference), answer = .ok (entries.map .ok) ∧
      entries.map (Reference.ofEntry settings.tablesDir) = refs.map .ok ∧
      snapshot.live = .ofList refs := by
  obtain ⟨first, n', mem', gathered⟩ := read.exists_references
  obtain ⟨entries, refs, rfl, hrefs, hlive, -⟩ := readEntries_eq_ok_iff.mp gathered
  exact ⟨entries, refs, references_once each mem mem', hrefs, hlive⟩

/-- The one scan of blips of a pass is what the bulk loads were read from. -/
theorem ReadIn.blips_mem {answer : Except ServiceError (Scan String)} {n : Nat}
    (mem : .blips answer n ∈ calls) :
    ∃ (blips : List String) (keys : List Key), answer = .ok (blips.map .ok) ∧
      blips.map (Key.ofPath settings.tablesDir .directory) = keys.map .ok ∧
      snapshot.loads = .ofKeys keys := by
  obtain ⟨first, n', mem', gathered⟩ := read.exists_blips
  obtain ⟨blips, keys, rfl, hkeys, hloads, -⟩ := readBlips_eq_ok_iff.mp gathered
  exact ⟨blips, keys, blips_once each mem mem', hkeys, hloads⟩

/-- What is read in is the references that the metadata scan names, all of them and no others. -/
theorem ReadIn.exists_refs :
    ∃ refs, snapshot.live = .ofList refs ∧ ∀ r, r ∈ refs ↔ Refers settings calls r := by
  obtain ⟨first, n, mem, gathered⟩ := read.exists_references
  obtain ⟨entries, refs, rfl, hrefs, hlive, -⟩ := readEntries_eq_ok_iff.mp gathered
  refine ⟨refs, hlive, fun r => ⟨fun hr => ?_, fun refers => ?_⟩⟩
  · obtain ⟨entry, hentry, e⟩ := exists_eq_ok_of_map_eq_map_ok hrefs hr
    exact ⟨_, n, entry, mem, List.mem_map_of_mem hentry, e⟩
  · obtain ⟨items, _, entry, hcall, hentry, hr⟩ := refers
    obtain rfl := Except.ok.inj (references_once each hcall mem)
    obtain ⟨_, hmem, ⟨⟩⟩ := List.mem_map.mp hentry
    obtain ⟨r', hr', e⟩ := exists_ok_of_map_eq_map_ok hrefs hmem
    obtain rfl := Except.ok.inj (hr.symm.trans e)
    exact hr'

/-- What is read in is the directories that the blips name, all of them and no others. -/
theorem ReadIn.exists_marks :
    ∃ keys, snapshot.loads = .ofKeys keys ∧ ∀ key, key ∈ keys ↔ Marks settings calls key := by
  obtain ⟨first, n, mem, gathered⟩ := read.exists_blips
  obtain ⟨blips, keys, rfl, hkeys, hloads, -⟩ := readBlips_eq_ok_iff.mp gathered
  refine ⟨keys, hloads, fun key => ⟨fun hkey => ?_, fun marks => ?_⟩⟩
  · obtain ⟨blip, hblip, e⟩ := exists_eq_ok_of_map_eq_map_ok hkeys hkey
    exact ⟨_, n, blip, mem, List.mem_map_of_mem hblip, e⟩
  · obtain ⟨items, _, blip, hcall, hblip, hkey⟩ := marks
    obtain rfl := Except.ok.inj (blips_once each hcall mem)
    obtain ⟨_, hmem, ⟨⟩⟩ := List.mem_map.mp hblip
    obtain ⟨key', hkey', e⟩ := exists_ok_of_map_eq_map_ok hkeys hmem
    obtain rfl := Except.ok.inj (hkey.symm.trans e)
    exact hkey'

/-- A snapshot keeps what a reference of the scan protects, and nothing else. -/
theorem ReadIn.keeps_iff {key : Key} :
    snapshot.live.keeps key = true ↔ ∃ r, Refers settings calls r ∧ r.Protects key := by
  obtain ⟨refs, hlive, hrefs⟩ := read.exists_refs each
  rw [hlive, LiveKeys.keeps_ofList]
  simp only [hrefs]

/-- A snapshot knows the tables that the references of the scan point into, and no others. -/
theorem ReadIn.reaches_iff {table : String} :
    snapshot.live.reaches table = true ↔ ∃ r, Refers settings calls r ∧ table = r.key.table := by
  obtain ⟨refs, hlive, hrefs⟩ := read.exists_refs each
  rw [hlive, LiveKeys.reaches_ofList]
  simp only [hrefs]

/-- A snapshot covers the directories that the blips of the scan name, with all that is in them, and
nothing else. -/
theorem ReadIn.covers_iff {key : Key} :
    snapshot.loads.covers key = true ↔
      ∃ marked, Marks settings calls marked ∧ key.directory = marked.directory := by
  obtain ⟨keys, hloads, hkeys⟩ := read.exists_marks each
  rw [hloads, BulkLoads.covers_ofKeys]
  simp only [hkeys]

/-- A snapshot that was read in does not free what the scans protect, and nothing else. -/
theorem ReadIn.frees_eq_false_iff {key : Key} :
    snapshot.frees key = false ↔ (∃ r, Refers settings calls r ∧ r.Protects key) ∨
      ∃ marked, Marks settings calls marked ∧ key.directory = marked.directory := by
  rw [← read.keeps_iff each, ← read.covers_iff each, Snapshot.frees_eq_false_iff]

/-- A snapshot keeps what a reference of the scan protects. -/
theorem ReadIn.keeps {r : Reference} (refers : Refers settings calls r) {key : Key}
    (protects : r.Protects key) : snapshot.live.keeps key = true :=
  (read.keeps_iff each).mpr ⟨r, refers, protects⟩

/-- A snapshot knows the tables that the references of the scan point into. -/
theorem ReadIn.reaches {r : Reference} (refers : Refers settings calls r) :
    snapshot.live.reaches r.key.table = true :=
  (read.reaches_iff each).mpr ⟨r, refers, rfl⟩

/-- A snapshot covers the directories that the blips of the scan name, with all that is in them. -/
theorem ReadIn.covers {marked key : Key} (marks : Marks settings calls marked)
    (inside : key.directory = marked.directory) : snapshot.loads.covers key = true :=
  (read.covers_iff each).mpr ⟨marked, marks, inside⟩

/-- No snapshot is read in where something in a scan cannot be read. -/
theorem ReadIn.readable {call : Call} (mem : call ∈ calls) : ¬call.Unreadable settings := by
  match call, mem with
  | .references answer n, mem =>
    obtain ⟨first, n', mem', gathered⟩ := read.exists_references
    rw [references_once each mem mem']
    exact references_readable gathered
  | .blips answer n, mem =>
    obtain ⟨first, n', mem', gathered⟩ := read.exists_blips
    rw [blips_once each mem mem']
    exact blips_readable gathered
  | .tableIds _, _ | .candidates .., _ | .countCandidates _, _ | .countInUse _, _ | .delete .., _
  | .removeTableDir .., _ => exact id

end ReadIn

section Each

variable (each : EachCall (Justified settings) calls) {before after : List Call}
include each

/-- A batch is handed out only by a snapshot that was read from the scans of the whole pass. -/
theorem cleared_of_delete {batch : List Candidate} {answer : Except ServiceError DeleteReport}
    (h : calls = before ++ .delete batch answer :: after) :
    ∃ snapshot, ReadIn settings snapshot calls ∧ Cleared settings snapshot before batch := by
  obtain ⟨snapshot, read, cleared⟩ := each before _ after h
  refine ⟨snapshot, ?_, cleared⟩
  rw [h]
  exact read.append

/-- The directory of a table is to be removed only by a snapshot that was read from the scans of the
whole pass. -/
theorem vacated_of_removeTableDir {table : String} {answer : Except ServiceError Bool}
    (h : calls = before ++ .removeTableDir table answer :: after) :
    ∃ snapshot, ReadIn settings snapshot calls ∧ Vacated snapshot calls table := by
  obtain ⟨snapshot, read, vacated⟩ := each before _ after h
  refine ⟨snapshot, ?_, ?_⟩ <;> rw [h]
  · exact read.append
  · exact vacated.append

end Each

/-! ## Along the steps -/

variable (settings) in
/-- What is known of the calls so far at a point of a pass. -/
def Point.Grounded (calls : List Call) : Point → Prop
  | .references => calls = []
  | .blips live => ∃ answer read, calls = [.references answer read] ∧
    readAnswer .references (takeEntry settings) .empty answer = (read, .ok live)
  | .tableIds live loads => ∀ tables, ReadIn settings ⟨live, loads, tables⟩ calls
  | .fetch snapshot _ => ReadIn settings snapshot calls
  | .judge snapshot page _ => ReadIn settings snapshot calls ∧ (pages calls).getLast? = some page
  | .delete snapshot _ _ batch => ReadIn settings snapshot calls ∧
    Cleared settings snapshot calls batch
  | .clean snapshot tables => ReadIn settings snapshot calls ∧
    ∀ table ∈ tables, Vacated snapshot calls table
  | .done | .failed _ => True

/-- A ledger notes only tables of which a tablet directory was handed out. -/
def LedgerGrounded (calls : List Call) (ledger : TableLedger) : Prop :=
  ∀ table ∈ ledger.emptied, HandedOut calls table

variable (settings) in
/-- All calls of a configuration are justified, and its ledger and its point are grounded in
them. -/
structure Grounded (c : Config σ) : Prop where
  calls : EachCall (Justified settings) c.progress.calls
  ledger : LedgerGrounded c.progress.calls c.progress.ledger
  point : c.point.Grounded settings c.progress.calls

theorem LedgerGrounded.append {ledger ledger' : TableLedger} (h : LedgerGrounded calls ledger)
    (same : ledger'.emptied = ledger.emptied) : LedgerGrounded (calls ++ more) ledger' := by
  intro table hmem
  rw [same] at hmem
  exact (h table hmem).append

/-- What is noted as deleted was handed out. -/
theorem LedgerGrounded.deleted {ledger ledger' : TableLedger} {batch : List Candidate}
    {report : DeleteReport} (h : LedgerGrounded calls ledger)
    (noted : ledger'.emptied = (ledger.deletedAll (deletedOf report batch)).emptied) :
    LedgerGrounded (calls ++ [.delete batch (.ok report)]) ledger' := by
  intro table hmem
  rw [noted, TableLedger.mem_emptied_deletedAll] at hmem
  rcases hmem with hmem | ⟨c, hc, hdirectory, htable⟩
  · exact (h table hmem).append
  · exact ⟨batch, .ok report, c, List.mem_append_right _ (List.mem_singleton_self _),
      (List.mem_filter.mp hc).1, hdirectory, htable⟩

variable {env : Environment σ} {c d : Config σ}

theorem grounded_start (world : σ) : Grounded settings ⟨.references, { world }⟩ := by
  refine ⟨eachCall_nil, fun table hmem => ?_, rfl⟩
  cases hmem

/-- The confirmed candidates of the page that was served last may be deleted. -/
theorem cleared_confirmed {page : List String} {cs : List Candidate}
    (hpage : (pages calls).getLast? = some page)
    (hcs : Candidate.ofPage settings.tablesDir page = .ok cs) :
    Cleared settings snapshot calls (snapshot.judge cs).confirmed := by
  obtain ⟨rfl, hkeys⟩ := ofPage_eq_ok_iff.mp hcs
  rw [Snapshot.judge_confirmed]
  refine ⟨⟨_, hpage, fun c hc => ?_⟩, fun c hc => ?_, fun c hc => (List.mem_filter.mp hc).2⟩
  · exact List.mem_map_of_mem (List.mem_filter.mp hc).1
  · exact hkeys c (List.mem_filter.mp hc).1

/-- Every step justifies the calls that it makes, and leads to a point that they ground. -/
theorem grounded_step (h : Grounded settings c) (step : Step settings env c d) :
    Grounded settings d := by
  obtain ⟨each, ledger, point⟩ := h
  -- Each step adds at most two calls at the end, so the calls before are justified as they were.
  cases step with
  | @readReferences p answer world read live answered gathered =>
    have hnil : p.calls = [] := point
    refine ⟨eachCall_concat.mpr ⟨each, hnil⟩, ledger.append rfl, answer, read, ?_, gathered⟩
    simp [hnil]
  | failReferences =>
    exact ⟨eachCall_concat.mpr ⟨each, point⟩, ledger.append rfl, trivial⟩
  | readBlips answered gathered =>
    obtain ⟨first, n, hcalls, hlive⟩ := point
    refine ⟨eachCall_concat.mpr ⟨each, congrArg List.length hcalls⟩, ledger.append rfl,
      fun tables => ?_⟩
    refine ⟨first, n, _, _, [], ?_, hlive, gathered⟩
    rw [Progress.noted_calls, hcalls]
    rfl
  | failBlips =>
    obtain ⟨first, n, hcalls, -⟩ := point
    exact ⟨eachCall_concat.mpr ⟨each, congrArg List.length hcalls⟩, ledger.append rfl, trivial⟩
  | readTableIds =>
    exact ⟨eachCall_concat.mpr ⟨each, trivial⟩, ledger.append rfl, (point _).append⟩
  | failTableIds | failFetch | stall =>
    exact ⟨eachCall_concat.mpr ⟨each, trivial⟩, ledger.append rfl, trivial⟩
  | fetchPage =>
    refine ⟨eachCall_concat.mpr ⟨eachCall_concat.mpr ⟨each, trivial⟩, trivial⟩, ?_, ?_, ?_⟩
    · exact LedgerGrounded.append (ledger.append rfl) rfl
    · exact ReadIn.append (ReadIn.append point)
    · simp [counted, Call.page?]
  | endLog =>
    refine ⟨eachCall_concat.mpr ⟨each, trivial⟩, ledger.append rfl, ReadIn.append point, ?_⟩
    intro table hmem
    obtain ⟨emptied, dropped, -, unreached⟩ := TableLedger.mem_removable.mp hmem
    exact ⟨(ledger table emptied).append, dropped, unreached⟩
  | malformedPage => exact ⟨each, ledger, trivial⟩
  | keepPage =>
    exact ⟨eachCall_concat.mpr ⟨each, trivial⟩, ledger.append TableLedger.emptied_keptAll,
      point.1.append⟩
  | sparePage =>
    exact ⟨eachCall_concat.mpr ⟨each, trivial⟩,
      ledger.append (TableLedger.emptied_keptAll.trans TableLedger.emptied_keptAll), point.1.append⟩
  | confirmPage read some deletes =>
    refine ⟨eachCall_concat.mpr ⟨each, trivial⟩, ledger.append TableLedger.emptied_keptAll,
      point.1.append, ?_⟩
    exact (cleared_confirmed point.2 read).append (List.Subset.refl _) rfl
  | failDelete =>
    exact ⟨eachCall_concat.mpr ⟨each, _, point⟩, ledger.append rfl, trivial⟩
  | endDelete =>
    exact ⟨eachCall_concat.mpr ⟨each, _, point⟩, ledger.deleted TableLedger.emptied_keptAll,
      point.1.append⟩
  | repeatDelete =>
    refine ⟨eachCall_concat.mpr ⟨each, _, point⟩, ledger.deleted rfl, point.1.append, ?_⟩
    exact point.2.append List.filter_sublist.subset rfl
  | removeDir =>
    obtain ⟨read, vacated⟩ := point
    obtain ⟨first, rest⟩ := List.forall_mem_cons.mp vacated
    exact ⟨eachCall_concat.mpr ⟨each, _, read, first⟩, ledger.append rfl, ReadIn.append read,
      fun table hmem => (rest table hmem).append⟩
  | failRemove =>
    obtain ⟨read, vacated⟩ := point
    exact ⟨eachCall_concat.mpr ⟨each, _, read, vacated _ (List.mem_cons_self ..)⟩,
      ledger.append rfl, trivial⟩
  | finish => exact ⟨each, ledger, trivial⟩

variable (settings env) in
/-- The calls of every pass are justified. -/
theorem justified_calls_run (budget : Nat) (world : σ) :
    EachCall (Justified settings) (run settings env budget world).calls := by
  obtain ⟨c, grounded, ends⟩ := run_invariant settings env (Grounded settings) budget world
    (grounded_start world) fun c d h step => grounded_step h step
  rw [ends.calls]
  exact grounded.calls

end Pass

end TabletSweep
