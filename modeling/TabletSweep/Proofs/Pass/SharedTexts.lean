import TabletSweep.Proofs.EntryPaths
import TabletSweep.Proofs.Pass.Scans
import TabletSweep.Simulation.Environment

/-!
# Candidates that share their text with a live directory

A candidate is read as the path of a file or of a directory, while the value of a directory entry
and a blip are read as the path of a directory. Where the two readings agree, a candidate with the
very text of such an entry or blip is protected by it. They disagree on a path that has the tables
directory twice, and such a candidate is handed out for deletion although the directory that its
text names is alive (`nested_directory_is_handed_out`).
-/

namespace TabletSweep

/-- An absolute directory entry refers to the directory that its value is read as. -/
theorem Reference.ofEntry_directory {tablesDir : String} {e : Entry} {r : Reference}
    (directory : e.namesDirectory = true) (absolute : hasScheme e.value = true)
    (h : ofEntry tablesDir e = .ok r) :
    ∃ key, Key.ofPath tablesDir .directory e.value = .ok key ∧ r = .directory key := by
  obtain ⟨path, key, hpath, hkey, rfl⟩ := (ofEntry_eq_ok_iff_of_namesDirectory directory).mp h
  rw [Entry.directoryPath, if_pos absolute] at hpath
  cases hpath
  exact ⟨key, hkey, rfl⟩

namespace Pass

variable {σ : Type} (settings : Settings)

/-- A directory entry of the metadata scan has the text as its value, or the text is a blip. -/
def NamesDirectory (calls : List Call) (text : String) : Prop :=
  (∃ items read entry, .references (.ok items) read ∈ calls ∧ .ok entry ∈ items ∧
      entry.namesDirectory = true ∧ entry.value = text) ∨
    ∃ items read, .blips (.ok items) read ∈ calls ∧ .ok text ∈ items

variable {settings} {calls : List Call} {snapshot : Snapshot}

/-- By a snapshot that was read in, a candidate whose text is read as the same key in every shape is
not free if a directory entry or a blip has its text. -/
theorem ReadIn.not_free_of_namesDirectory (read : ReadIn settings snapshot calls)
    (each : EachCall (Justified settings) calls) {c : Candidate}
    (hkey : Key.ofPath settings.tablesDir .any c.literal = .ok c.key)
    (absolute : hasScheme c.literal = true) (once : ¬EndsNested settings.tablesDir c.literal)
    (named : NamesDirectory calls c.literal) : snapshot.frees c.key = false := by
  rw [read.frees_eq_false_iff each]
  have same : ∀ key, Key.ofPath settings.tablesDir .directory c.literal = .ok key →
      key = c.key := by
    intro key hdirectory
    have any := Key.ofPath_any_of_directory hdirectory once
    exact Except.ok.inj (any.symm.trans hkey)
  rcases named with ⟨items, n, entry, hcall, hentry, hnames, hvalue⟩ | ⟨items, n, hcall, hblip⟩
  · obtain ⟨entries, refs, hitems, hrefs, -⟩ := read.references_mem each hcall
    obtain rfl := Except.ok.inj hitems
    obtain ⟨_, hmem, ⟨⟩⟩ := List.mem_map.mp hentry
    obtain ⟨r, -, hr⟩ := exists_ok_of_map_eq_map_ok hrefs hmem
    obtain ⟨key, hdirectory, rfl⟩ := Reference.ofEntry_directory hnames (hvalue ▸ absolute) hr
    have refers : Refers settings calls (.directory key) := ⟨_, n, entry, hcall, hentry, hr⟩
    exact .inl ⟨_, refers, .inl (same key (hvalue ▸ hdirectory)).symm⟩
  · obtain ⟨blips, keys, hitems, hkeys, -⟩ := read.blips_mem each hcall
    obtain rfl := Except.ok.inj hitems
    obtain ⟨_, hmem, ⟨⟩⟩ := List.mem_map.mp hblip
    obtain ⟨key, -, hdirectory⟩ := exists_ok_of_map_eq_map_ok hkeys hmem
    have marks : Marks settings calls key := ⟨_, n, c.literal, hcall, hblip, hdirectory⟩
    exact .inr ⟨key, marks, congrArg Key.directory (same key hdirectory).symm⟩

variable (settings) (env : Environment σ) (budget : Nat) (world : σ)

/-- What a path is read as in one shape it is read as where any shape will do, unless it was read as
a directory and has the tables directory twice; then it is read as a file of the table that is named
like the tables directory. So of the candidates that have the very text of a live directory entry or
of a blip, and an absolute path for it, only those with the tables directory twice are handed out
for deletion. -/
theorem same_text_same_key_unless_nested :
    (∀ shape path key, Key.ofPath settings.tablesDir shape path = .ok key →
        (Key.ofPath settings.tablesDir .any path = .ok key ↔
          ¬(shape = .directory ∧ EndsNested settings.tablesDir path))) ∧
      (∀ path key, Key.ofPath settings.tablesDir .directory path = .ok key →
        EndsNested settings.tablesDir path → isDots settings.tablesDir = false →
          Key.ofPath settings.tablesDir .any path =
            .ok ⟨settings.tablesDir, key.table, some key.tablet⟩) ∧
      ∀ batch answer, .delete batch answer ∈ (run settings env budget world).calls →
        ∀ c ∈ batch, hasScheme c.literal = true →
          NamesDirectory (run settings env budget world).calls c.literal →
            EndsNested settings.tablesDir c.literal := by
  refine ⟨fun shape path key h => Key.ofPath_any_iff h,
    fun path key h nested plain => Key.ofPath_any_of_nested h nested plain, ?_⟩
  intro batch answer hdelete c hc absolute named
  have each := justified_calls_run settings env budget world
  obtain ⟨before, after, h⟩ := List.append_of_mem hdelete
  obtain ⟨snapshot, read, cleared⟩ := cleared_of_delete each h
  refine Classical.byContradiction fun once => ?_
  have kept := read.not_free_of_namesDirectory each (cleared.read c hc) absolute once named
  rw [cleared.free c hc] at kept
  cases kept

section Nested

open Simulation

/-- The path of a tablet directory on a volume whose root is named like the tables directory. -/
def nestedPath : String := "hdfs://nn:8020/tables/tables/4/t-0"

/-- A log that holds the directory of a live tablet, written as the tablet itself writes it. -/
def nestedWorld : World where
  log := ⟨[nestedPath], by decide +kernel⟩
  references := [.ofDirectory "4" none nestedPath]
  tableIds := ["4"]

/-- The candidate that the log is read as. -/
def nestedCandidate : Candidate := ⟨nestedPath, ⟨"tables", "4", some "t-0"⟩⟩

/-- The one path has two keys, and the live directory that it names is handed out for deletion. -/
theorem nested_directory_is_handed_out :
    Key.ofPath "tables" .directory nestedPath = .ok ⟨"4", "t-0", none⟩ ∧
      Key.ofPath "tables" .any nestedPath = .ok ⟨"tables", "4", some "t-0"⟩ ∧
      .references (.ok [.ok (.ofDirectory "4" none nestedPath)]) 1 ∈
        (runPass {} nestedWorld).calls ∧
      .delete [nestedCandidate] (.ok ⟨[]⟩) ∈ (runPass {} nestedWorld).calls := by
  refine ⟨by decide +kernel, by decide +kernel, by decide +kernel, by decide +kernel⟩

/-- What was handed out has the tables directory twice, and is read as a file because of that. -/
theorem handed_out_path_is_nested :
    EndsNested "tables" nestedPath ∧
      Key.ofPath "tables" .any nestedPath = .ok ⟨"tables", "4", some "t-0"⟩ := by
  have directory : Key.ofPath "tables" .directory nestedPath = .ok ⟨"4", "t-0", none⟩ := by
    decide +kernel
  obtain ⟨-, read, handedOut⟩ :=
    same_text_same_key_unless_nested {} environment nestedWorld.pageBudget nestedWorld.beginPass
  have nested : EndsNested "tables" nestedPath := by
    refine handedOut [nestedCandidate] (.ok ⟨[]⟩) (by decide +kernel) nestedCandidate
      (List.mem_singleton_self _) (by decide +kernel) (.inl ?_)
    exact ⟨[.ok (.ofDirectory "4" none nestedPath)], 1, _, by decide +kernel,
      List.mem_singleton_self _, by decide +kernel, rfl⟩
  exact ⟨nested, read nestedPath _ directory nested (by decide +kernel)⟩

end Nested

end Pass

end TabletSweep
