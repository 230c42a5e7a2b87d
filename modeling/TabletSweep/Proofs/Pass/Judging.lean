import TabletSweep.Proofs.Pass.Program
import TabletSweep.Proofs.Reading
import TabletSweep.Proofs.References
import TabletSweep.Simulation.Environment

/-!
# How a page is divided

Directories come to be marked one by one, by a key or by a blip, and a blip that names no directory
marks nothing. In whatever order that went, a key is covered exactly if some marking named a key
with its directory (`covers_ofMarkings`).

A page is cut in two and what nothing refers to is cut in two again. So every candidate ends up in
one of three lists: it is in use if it is referred to, whether or not it is covered as well; of the
others, those that are covered are protected, and the rest is confirmed. `Verdict.Divides` says so
without the two cuts. A verdict divides its page (`judge_divides`), and no other does (`eq_judge`);
judging a page gives that division, counts its parts and notes what stays (`judging_divides_page`).
-/

namespace TabletSweep

namespace BulkLoads

/-! ## What is marked -/

/-- One marking of a directory: by a key in it, or by a blip, which is read with the name of a
tables directory. -/
inductive Marking
  | key (key : Key)
  | blip (tablesDir path : String)
  deriving DecidableEq, Repr

/-- The key that a marking names. A blip may name none. -/
def Marking.key? : Marking → Option Key
  | .key k => some k
  | .blip tablesDir path => (Key.ofPath tablesDir .directory path).toOption

/-- What is marked after one more marking. A blip that names no directory changes nothing. -/
def takeMarking (loads : BulkLoads) : Marking → BulkLoads
  | .key key => loads.insert key
  | .blip tablesDir path =>
    match loads.mark tablesDir path with
    | .ok marked => marked
    | .error _ => loads

/-- What is marked by some markings, made in order. -/
def ofMarkings (markings : List Marking) : BulkLoads := markings.foldl takeMarking empty

variable {markings : List Marking} {key : Key}

theorem takeMarking_eq (loads : BulkLoads) (marking : Marking) :
    loads.takeMarking marking = marking.key?.elim loads loads.insert := by
  cases marking with
  | key k => rfl
  | blip tablesDir path =>
    rw [takeMarking, mark, Marking.key?]
    cases Key.ofPath tablesDir .directory path <;> rfl

/-- Only the keys that are named count. -/
theorem ofMarkings_eq (markings : List Marking) :
    ofMarkings markings = ofKeys (markings.filterMap Marking.key?) := by
  rw [ofMarkings, ofKeys, List.foldl_filterMap]
  congr 1
  funext loads marking
  rw [takeMarking_eq]
  cases marking.key? <;> rfl

/-- A key is covered if some marking names a key of its tablet directory. -/
theorem covers_ofMarkings :
    (ofMarkings markings).covers key = true ↔
      ∃ k ∈ markings.filterMap Marking.key?, k.table = key.table ∧ k.tablet = key.tablet := by
  rw [ofMarkings_eq, covers_ofKeys]
  simp only [← Key.directory_eq_directory_iff, eq_comm]

/-- No directory is marked if no marking names a key. -/
theorem isEmpty_ofMarkings :
    (ofMarkings markings).isEmpty = true ↔ markings.filterMap Marking.key? = [] := by
  constructor
  · intro none
    refine List.eq_nil_iff_forall_not_mem.mpr fun k hk => ?_
    have covered : (ofMarkings markings).covers k = true :=
      covers_ofMarkings.mpr ⟨k, hk, rfl, rfl⟩
    rw [covers_of_isEmpty none] at covered
    cases covered
  · intro none
    rw [ofMarkings_eq, none]
    rfl

/-- Nothing is lost or doubled when covered candidates are taken out. -/
theorem split_perm (loads : BulkLoads) (cs : List Candidate) :
    ((loads.split cs).1 ++ (loads.split cs).2).Perm cs := by
  rw [split_eq]
  exact List.perm_append_comm.trans (List.filter_append_perm (loads.covers ·.key) cs)

end BulkLoads

/-! ## The three parts of a page -/

/-- A part of a list is a filter of it if it is in the order of the list and has all of its members
with some property and no others. -/
theorem eq_filter_of_sublist {α : Type} {p : α → Bool} {part others page : List α}
    (ordered : part.Sublist page) (whole : (part ++ others).Perm page)
    (inside : ∀ x ∈ part, p x = true) (outside : ∀ x ∈ others, p x = false) :
    part = page.filter p := by
  have own : part.filter p = part := List.filter_eq_self.mpr inside
  have foreign : others.filter p = [] := List.filter_eq_nil_iff.mpr (by simpa using outside)
  have kept : part.Sublist (page.filter p) := by
    rw [← own]
    exact ordered.filter p
  refine kept.eq_of_length ?_
  rw [← (whole.filter p).length_eq, List.filter_append, own, foreign, List.append_nil]

/-- A verdict divides a page: its lists hold the candidates of the page in their order, each of them
in the one list that it belongs to, and together they make up the page. -/
structure Verdict.Divides (verdict : Verdict) (snapshot : Snapshot) (page : List Candidate) :
    Prop where
  inUse_sublist : verdict.inUse.Sublist page
  blipProtected_sublist : verdict.blipProtected.Sublist page
  confirmed_sublist : verdict.confirmed.Sublist page
  perm : (verdict.inUse ++ verdict.blipProtected ++ verdict.confirmed).Perm page
  mem_inUse : ∀ c ∈ page, c ∈ verdict.inUse ↔ snapshot.live.keeps c.key = true
  mem_blipProtected : ∀ c ∈ page, c ∈ verdict.blipProtected ↔
    snapshot.live.keeps c.key = false ∧ snapshot.loads.covers c.key = true
  mem_confirmed : ∀ c ∈ page, c ∈ verdict.confirmed ↔
    snapshot.live.keeps c.key = false ∧ snapshot.loads.covers c.key = false

namespace Snapshot

variable (snapshot : Snapshot) (cs : List Candidate)

/-- The parts of a page make it up, since neither of the two cuts loses a candidate. -/
theorem judge_perm :
    ((snapshot.judge cs).inUse ++ (snapshot.judge cs).blipProtected ++
      (snapshot.judge cs).confirmed).Perm cs := by
  have first : ((snapshot.live.split cs).2 ++ (snapshot.live.split cs).1).Perm cs :=
    List.perm_append_comm.trans (LiveKeys.split_perm snapshot.live cs)
  have second : ((snapshot.judge cs).blipProtected ++ (snapshot.judge cs).confirmed).Perm
      (snapshot.live.split cs).1 :=
    List.perm_append_comm.trans (BulkLoads.split_perm snapshot.loads _)
  rw [List.append_assoc]
  exact (second.append_left _).trans first

/-- A snapshot's verdict divides the page. -/
theorem judge_divides : (snapshot.judge cs).Divides snapshot cs where
  inUse_sublist := by
    rw [judge_inUse]
    exact List.filter_sublist
  blipProtected_sublist := by
    rw [judge_blipProtected]
    exact List.filter_sublist
  confirmed_sublist := by
    rw [judge_confirmed]
    exact List.filter_sublist
  perm := judge_perm snapshot cs
  mem_inUse := by
    intro c hc
    rw [judge_inUse, List.mem_filter, and_iff_right hc]
  mem_blipProtected := by
    intro c hc
    rw [judge_blipProtected, List.mem_filter, and_iff_right hc, Bool.and_eq_true,
      Bool.not_eq_true']
  mem_confirmed := by
    intro c hc
    rw [judge_confirmed, List.mem_filter, and_iff_right hc, frees_eq_true_iff]

end Snapshot

namespace Verdict.Divides

variable {verdict : Verdict} {snapshot : Snapshot} {page : List Candidate} {c : Candidate}
  (divides : verdict.Divides snapshot page)
include divides

theorem used (hc : c ∈ verdict.inUse) : snapshot.live.keeps c.key = true :=
  (divides.mem_inUse c (divides.inUse_sublist.subset hc)).mp hc

theorem covered (hc : c ∈ verdict.blipProtected) :
    snapshot.live.keeps c.key = false ∧ snapshot.loads.covers c.key = true :=
  (divides.mem_blipProtected c (divides.blipProtected_sublist.subset hc)).mp hc

theorem free (hc : c ∈ verdict.confirmed) :
    snapshot.live.keeps c.key = false ∧ snapshot.loads.covers c.key = false :=
  (divides.mem_confirmed c (divides.confirmed_sublist.subset hc)).mp hc

theorem inUse_eq : verdict.inUse = page.filter (snapshot.live.keeps ·.key) := by
  have whole := divides.perm
  rw [List.append_assoc] at whole
  refine eq_filter_of_sublist divides.inUse_sublist whole (fun c => divides.used) fun c hc => ?_
  rcases List.mem_append.mp hc with hc | hc
  · exact (divides.covered hc).1
  · exact (divides.free hc).1

theorem blipProtected_eq :
    verdict.blipProtected =
      page.filter fun c => !snapshot.live.keeps c.key && snapshot.loads.covers c.key := by
  have whole := (List.perm_append_comm.append_right verdict.confirmed).trans divides.perm
  rw [List.append_assoc] at whole
  refine eq_filter_of_sublist divides.blipProtected_sublist whole (fun c hc => ?_) fun c hc => ?_
  · simp [divides.covered hc]
  · rcases List.mem_append.mp hc with hc | hc
    · simp [divides.used hc]
    · simp [divides.free hc]

theorem confirmed_eq : verdict.confirmed = page.filter (snapshot.frees ·.key) := by
  have whole := List.perm_append_comm.trans divides.perm
  refine eq_filter_of_sublist divides.confirmed_sublist whole (fun c hc => ?_) fun c hc => ?_
  · exact Snapshot.frees_eq_true_iff.mpr (divides.free hc)
  · rcases List.mem_append.mp hc with hc | hc
    · exact Snapshot.frees_eq_false_iff.mpr (.inl (divides.used hc))
    · exact Snapshot.frees_eq_false_iff.mpr (.inr (divides.covered hc).2)

/-- A page can be divided in one way only. -/
theorem eq_judge : verdict = snapshot.judge page := by
  have inUse := divides.inUse_eq.trans (snapshot.judge_inUse page).symm
  have blipProtected := divides.blipProtected_eq.trans (snapshot.judge_blipProtected page).symm
  have confirmed := divides.confirmed_eq.trans (snapshot.judge_confirmed page).symm
  cases verdict
  cases inUse
  cases blipProtected
  cases confirmed
  rfl

end Verdict.Divides

/-! ## Judging a page -/

namespace Pass

open PassM

variable {σ : Type}

/-- A page of texts that all have keys can be read. -/
theorem exists_ofPage {tablesDir : String} {page : List String}
    (legible : ∀ literal ∈ page, ∃ key, Key.ofPath tablesDir .any literal = .ok key) :
    ∃ cs, Candidate.ofPage tablesDir page = .ok cs := by
  have each : ∀ literal ∈ page, ∃ c, Candidate.ofLiteral tablesDir literal = .ok c := by
    intro literal hliteral
    obtain ⟨key, hkey⟩ := legible literal hliteral
    exact ⟨⟨literal, key⟩, ofLiteral_eq_ok_iff.mpr ⟨rfl, hkey⟩⟩
  obtain ⟨cs, hcs⟩ := exists_map_eq_map_ok each
  exact ⟨cs, mapM_eq_ok_iff.mpr hcs⟩

/-- A key is covered exactly if some marking named a key with its table and tablet, nothing is
marked if no marking named a key, and candidates are split by what is covered in either case. A page
of texts with keys is judged: its candidates are divided, in the one way there is, into those in
use, those that only a bulk load protects and those confirmed for deletion. The last are the result,
and the progress takes up the other two as kept. -/
theorem judging_divides_page (settings : Settings) (env : Environment σ) :
    (∀ markings key, (BulkLoads.ofMarkings markings).covers key = true ↔
        ∃ k ∈ markings.filterMap BulkLoads.Marking.key?,
          k.table = key.table ∧ k.tablet = key.tablet) ∧
      (∀ markings, (BulkLoads.ofMarkings markings).isEmpty = true ↔
        markings.filterMap BulkLoads.Marking.key? = []) ∧
      (∀ (loads : BulkLoads) cs, loads.split cs = cs.partition (!loads.covers ·.key)) ∧
      ∀ snapshot page p,
        (∀ literal ∈ page, ∃ key, Key.ofPath settings.tablesDir .any literal = .ok key) →
          ∃ (cs : List Candidate) (verdict : Verdict), cs.map (·.literal) = page ∧
            (∀ c ∈ cs, Key.ofPath settings.tablesDir .any c.literal = .ok c.key) ∧
            verdict.Divides snapshot cs ∧
            (∀ other : Verdict, other.Divides snapshot cs → other = verdict) ∧
            exec (judgePage settings env snapshot page) p =
              (.ok verdict.confirmed, judged env verdict p) := by
  refine ⟨fun _ _ => BulkLoads.covers_ofMarkings, fun _ => BulkLoads.isEmpty_ofMarkings,
    BulkLoads.split_eq_partition, fun snapshot page p legible => ?_⟩
  obtain ⟨cs, read⟩ := exists_ofPage legible
  obtain ⟨texts, keys⟩ := ofPage_eq_ok_iff.mp read
  exact ⟨cs, snapshot.judge cs, texts, keys, snapshot.judge_divides cs,
    fun other divides => divides.eq_judge, exec_judgePage read⟩

section Loading

open Simulation

/-- A blip for a directory, one that names none, and the key of a file. -/
def loadMarkings : List BulkLoads.Marking :=
  [.blip "tables" "/4/b-0", .blip "tables" "/4", .key ⟨"5", "b-1", some "A.rf"⟩]

/-- A file in a directory under bulk load that is referred to counts as in use, another file there
as protected. A directory whose name only starts like that one is confirmed. -/
theorem loading_divides_page :
    let snapshot : Snapshot :=
      ⟨.ofList [.file ⟨"4", "b-0", some "A.rf"⟩], .ofMarkings loadMarkings, ["4"]⟩
    let cs : List Candidate := [⟨"/4/b-0/A.rf", "4", "b-0", some "A.rf"⟩,
      ⟨"4/b-0/B.rf", "4", "b-0", some "B.rf"⟩, ⟨"hdfs://nn/tables/4/b-01", "4", "b-01", none⟩]
    let start : Progress World := { world := {} }
    (∀ literal ∈ cs.map (·.literal), ∃ key, Key.ofPath "tables" .any literal = .ok key) ∧
      ∃ verdict : Verdict, verdict.Divides snapshot cs ∧
        verdict.inUse = cs.take 1 ∧ verdict.blipProtected = (cs.drop 1).take 1 ∧
        verdict.confirmed = cs.drop 2 ∧
        exec (judgePage {} environment snapshot (cs.map (·.literal))) start =
          (.ok verdict.confirmed, judged environment verdict start) := by
  intro snapshot cs start
  have read : Candidate.ofPage "tables" (cs.map (·.literal)) = .ok cs := by decide +kernel
  have legible : ∀ literal ∈ cs.map (·.literal),
      ∃ key, Key.ofPath "tables" .any literal = .ok key := by
    intro literal hliteral
    obtain ⟨c, hc, rfl⟩ := List.mem_map.mp hliteral
    exact ⟨c.key, (ofPage_eq_ok_iff.mp read).2 c hc⟩
  obtain ⟨-, -, -, divided⟩ := judging_divides_page {} environment
  obtain ⟨cs', verdict, texts, keys, divides, unique, run⟩ := divided snapshot _ start legible
  obtain rfl : cs' = cs := by
    have read' := ofPage_eq_ok_iff.mpr ⟨texts, keys⟩
    exact Except.ok.inj (read'.symm.trans read)
  refine ⟨legible, verdict, divides, ?_, ?_, ?_, run⟩
  all_goals
    rw [← unique _ (snapshot.judge_divides cs)]
    decide +kernel

end Loading

end Pass

end TabletSweep
