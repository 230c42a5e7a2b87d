import TabletSweep.Pass.Snapshot

/-!
# What a snapshot protects

The references of a scan keep a key exactly when one of them protects it (`keeps_ofList`), and bulk
loads cover a key exactly when one of them writes into its directory (`covers_ofKeys`). A page is
judged candidate by candidate: each of the three lists of a verdict is a filter of the page
(`judge_confirmed`, `judge_inUse`, `judge_blipProtected`), so how candidates are spread over pages
does not matter to any of them.
-/

namespace TabletSweep

/-- Whether a reference keeps a key alive: it is the key that the reference points to, or the
directory of the file that it points to. -/
def Reference.Protects (r : Reference) (key : Key) : Prop :=
  key = r.key ∨ ∃ k, r = .file k ∧ key = k.directory

namespace LiveKeys

theorem keeps_foldl_insert {rs : List Reference} {live : LiveKeys} {key : Key} :
    (rs.foldl insert live).keeps key = true ↔
      live.keeps key = true ∨ ∃ r ∈ rs, r.Protects key := by
  induction rs generalizing live with
  | nil => simp
  | cons r rs ih =>
    rw [List.foldl_cons, ih, keeps_insert, or_assoc]
    simp only [List.mem_cons, exists_eq_or_imp]
    rfl

/-- The references of a list keep what one of them protects, and nothing else. -/
theorem keeps_ofList {rs : List Reference} {key : Key} :
    (ofList rs).keeps key = true ↔ ∃ r ∈ rs, r.Protects key := by
  rw [ofList, keeps_foldl_insert]
  simp

theorem reaches_foldl_insert {rs : List Reference} {live : LiveKeys} {table : String} :
    (rs.foldl insert live).reaches table = true ↔
      live.reaches table = true ∨ ∃ r ∈ rs, table = r.key.table := by
  induction rs generalizing live with
  | nil => simp
  | cons r rs ih =>
    rw [List.foldl_cons, ih, reaches_insert]
    simp only [List.mem_cons, exists_eq_or_imp, or_assoc]

/-- The references of a list point into the tables of their keys, and no others. -/
theorem reaches_ofList {rs : List Reference} {table : String} :
    (ofList rs).reaches table = true ↔ ∃ r ∈ rs, table = r.key.table := by
  rw [ofList, reaches_foldl_insert]
  simp

end LiveKeys

namespace BulkLoads

/-- Bulk loads into the directories of some keys. -/
def ofKeys (keys : List Key) : BulkLoads := keys.foldl insert empty

theorem covers_foldl_insert {keys : List Key} {loads : BulkLoads} {key : Key} :
    (keys.foldl insert loads).covers key = true ↔
      loads.covers key = true ∨ ∃ k ∈ keys, key.directory = k.directory := by
  induction keys generalizing loads with
  | nil => simp
  | cons k keys ih =>
    rw [List.foldl_cons, ih, covers_insert]
    simp only [List.mem_cons, exists_eq_or_imp, or_assoc]

/-- Bulk loads into some directories cover what lies in these, and nothing else. -/
theorem covers_ofKeys {keys : List Key} {key : Key} :
    (ofKeys keys).covers key = true ↔ ∃ k ∈ keys, key.directory = k.directory := by
  rw [ofKeys, covers_foldl_insert]
  simp

/-- Where no directory is marked, no key is covered. -/
theorem covers_of_isEmpty {loads : BulkLoads} (none : loads.isEmpty = true) (key : Key) :
    loads.covers key = false := by
  rw [covers, List.isEmpty_iff.mp none]
  rfl

/-- Candidates are split as if each were looked at, also where no directory is marked and none
is. -/
theorem split_eq_partition (loads : BulkLoads) (cs : List Candidate) :
    loads.split cs = cs.partition (!loads.covers ·.key) := by
  unfold split
  split
  · rename_i none
    have free : ∀ c ∈ cs, (!loads.covers c.key) = true := by
      intro c _
      rw [covers_of_isEmpty none]
      rfl
    rw [List.partition_eq_filter_filter, List.filter_eq_self.mpr free,
      List.filter_eq_nil_iff.mpr (by simpa using free)]
  · rfl

theorem split_eq (loads : BulkLoads) (cs : List Candidate) :
    loads.split cs = (cs.filter (!loads.covers ·.key), cs.filter (loads.covers ·.key)) := by
  rw [split_eq_partition, List.partition_eq_filter_filter]
  simp only [Function.comp_def, Bool.not_not]

end BulkLoads

namespace Snapshot

/-- Whether neither a reference nor a bulk load is in the way of deleting the target of a key. -/
def frees (snapshot : Snapshot) (key : Key) : Bool :=
  !snapshot.live.keeps key && !snapshot.loads.covers key

theorem frees_eq_true_iff {snapshot : Snapshot} {key : Key} :
    snapshot.frees key = true ↔
      snapshot.live.keeps key = false ∧ snapshot.loads.covers key = false := by
  simp [frees]

theorem frees_eq_false_iff {snapshot : Snapshot} {key : Key} :
    snapshot.frees key = false ↔
      snapshot.live.keeps key = true ∨ snapshot.loads.covers key = true := by
  rw [← Bool.not_eq_true, frees_eq_true_iff, Classical.not_and_iff_not_or_not, Bool.not_eq_false,
    Bool.not_eq_false]

variable (snapshot : Snapshot) (cs : List Candidate)

theorem judge_eq :
    snapshot.judge cs =
      ⟨(cs.filter (!snapshot.live.keeps ·.key)).filter (!snapshot.loads.covers ·.key),
        cs.filter (snapshot.live.keeps ·.key),
        (cs.filter (!snapshot.live.keeps ·.key)).filter (snapshot.loads.covers ·.key)⟩ := by
  simp only [judge, LiveKeys.split, List.partition_eq_filter_filter, BulkLoads.split_eq,
    Function.comp_def, Bool.not_not]

theorem judge_confirmed : (snapshot.judge cs).confirmed = cs.filter (snapshot.frees ·.key) := by
  rw [judge_eq, List.filter_filter]
  exact List.filter_congr fun c _ => Bool.and_comm ..

theorem judge_inUse : (snapshot.judge cs).inUse = cs.filter (snapshot.live.keeps ·.key) := by
  rw [judge_eq]

theorem judge_blipProtected :
    (snapshot.judge cs).blipProtected =
      cs.filter fun c => !snapshot.live.keeps c.key && snapshot.loads.covers c.key := by
  rw [judge_eq]
  change (cs.filter _).filter _ = _
  rw [List.filter_filter]
  exact List.filter_congr fun c _ => Bool.and_comm ..

/-- A page keeps the candidates that it does not confirm. -/
theorem mem_judge_kept {c : Candidate} :
    c ∈ (snapshot.judge cs).kept ↔ c ∈ cs ∧ snapshot.frees c.key = false := by
  rw [Verdict.kept, judge_inUse, judge_blipProtected, List.mem_append, List.mem_filter,
    List.mem_filter, ← and_or_left]
  refine and_congr_right fun _ => ?_
  rw [frees]
  cases snapshot.live.keeps c.key <;> cases snapshot.loads.covers c.key <;> decide

end Snapshot

end TabletSweep
