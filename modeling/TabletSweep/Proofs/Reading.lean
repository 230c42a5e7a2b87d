import TabletSweep.Proofs.Pass.Exec
import TabletSweep.Proofs.Protection

/-!
# Reading lists whose items may be refused

Entries of the metadata, blips and the texts of a page are read one by one, and the first that is
refused ends the reading. A reading that succeeds has taken every item: this module says so for each
of the three, as an equation between the list of what was read and the list that was there
(`readEntries_eq_ok_iff`, `readBlips_eq_ok_iff`, `ofPage_eq_ok_iff`).
-/

namespace TabletSweep

variable {α β γ ε δ : Type}

/-! ## Lists -/

theorem map_eq_map_ok_cons {f : α → Except ε γ} {a : α} {as : List α} {cs : List γ} :
    (a :: as).map f = cs.map .ok ↔
      ∃ c cs', cs = c :: cs' ∧ f a = .ok c ∧ as.map f = cs'.map .ok := by
  constructor
  · intro h
    cases cs with
    | nil => simp at h
    | cons c cs' =>
      obtain ⟨hc, hcs⟩ := List.cons.inj h
      exact ⟨c, cs', rfl, hc, hcs⟩
  · rintro ⟨c, cs', rfl, hc, hcs⟩
    simp [hc, hcs]

theorem exists_ok_of_map_eq_map_ok {f : α → Except ε γ} {as : List α} {cs : List γ}
    (h : as.map f = cs.map .ok) {a : α} (ha : a ∈ as) : ∃ c ∈ cs, f a = .ok c := by
  have hmem : f a ∈ cs.map Except.ok := h ▸ List.mem_map_of_mem ha
  obtain ⟨c, hc, e⟩ := List.mem_map.mp hmem
  exact ⟨c, hc, e.symm⟩

theorem exists_eq_ok_of_map_eq_map_ok {f : α → Except ε γ} {as : List α} {cs : List γ}
    (h : as.map f = cs.map .ok) {c : γ} (hc : c ∈ cs) : ∃ a ∈ as, f a = .ok c := by
  have hmem : .ok c ∈ as.map f := h ▸ List.mem_map_of_mem hc
  exact List.mem_map.mp hmem

/-- What is taken of a list of which every item is taken satisfies what each of them does. -/
theorem forall_ok_iff_of_map_eq_map_ok {f : α → Except ε γ} {as : List α} {cs : List γ}
    (h : as.map f = cs.map .ok) {P : γ → Prop} :
    (∀ a ∈ as, ∃ c, f a = .ok c ∧ P c) ↔ ∀ c ∈ cs, P c := by
  constructor
  · intro each c hc
    obtain ⟨a, ha, e⟩ := exists_eq_ok_of_map_eq_map_ok h hc
    obtain ⟨c', e', hP⟩ := each a ha
    obtain rfl := Except.ok.inj (e.symm.trans e')
    exact hP
  · intro each a ha
    obtain ⟨c, hc, e⟩ := exists_ok_of_map_eq_map_ok h ha
    exact ⟨c, e, each c hc⟩

theorem exists_map_eq_map_ok {f : α → Except ε γ} {as : List α}
    (each : ∀ a ∈ as, ∃ c, f a = .ok c) : ∃ cs : List γ, as.map f = cs.map .ok := by
  induction as with
  | nil => exact ⟨[], rfl⟩
  | cons a as ih =>
    obtain ⟨⟨c, hc⟩, rest⟩ := List.forall_mem_cons.mp each
    obtain ⟨cs, hcs⟩ := ih rest
    exact ⟨c :: cs, map_eq_map_ok_cons.mpr ⟨c, cs, rfl, hc, hcs⟩⟩

theorem mapM_eq_ok_iff {f : α → Except ε γ} {as : List α} {cs : List γ} :
    as.mapM f = .ok cs ↔ as.map f = cs.map .ok := by
  induction as generalizing cs with
  | nil =>
    rw [List.mapM_nil]
    constructor
    · rintro ⟨⟩
      rfl
    · intro h
      obtain rfl := List.map_eq_nil_iff.mp h.symm
      rfl
  | cons a as ih =>
    rw [List.mapM_cons, map_eq_map_ok_cons]
    cases ha : f a with
    | error e => exact ⟨nofun, by rintro ⟨_, _, _, ⟨⟩, _⟩⟩
    | ok c =>
      cases has : as.mapM f with
      | error e =>
        refine ⟨nofun, ?_⟩
        rintro ⟨_, cs', -, -, hcs⟩
        cases has.symm.trans (ih.mpr hcs)
      | ok cs' =>
        constructor
        · rintro ⟨⟩
          exact ⟨c, cs', rfl, rfl, ih.mp has⟩
        · rintro ⟨_, cs'', rfl, ⟨⟩, hcs⟩
          obtain rfl := Except.ok.inj (has.symm.trans (ih.mpr hcs))
          rfl

/-! ## Scans -/

open PassM

theorem readItems_cons_eq_ok_iff {request : Request} {take : β → α → Except Cause β}
    {item : Except ServiceError α} {items : Scan α} {start gathered : β} {read : Nat} :
    readItems request take (item :: items) start = (read, .ok gathered) ↔
      ∃ a next rest, item = .ok a ∧ take start a = .ok next ∧
        readItems request take items next = (rest, .ok gathered) ∧ read = rest + 1 := by
  constructor
  · intro h
    cases item with
    | error e => cases h
    | ok a =>
      cases htake : take start a with
      | error cause =>
        simp only [readItems, htake] at h
        cases h
      | ok next =>
        simp only [readItems, htake] at h
        obtain ⟨rfl, hrest⟩ := Prod.mk.inj h
        exact ⟨a, next, _, rfl, htake, Prod.ext rfl hrest, rfl⟩
  · rintro ⟨a, next, rest, rfl, htake, hrest, rfl⟩
    simp only [readItems, htake, hrest]

/-- A scan is gathered when each of its items is a value that can be taken; then all of it is read,
and what it is gathered into holds all that was taken. -/
theorem readItems_eq_ok_iff {f : α → Except ε γ} {insert : β → γ → β} {wrap : ε → Cause}
    {request : Request} {items : Scan α} {start gathered : β} {read : Nat} :
    readItems request (fun b a => ((f a).map (insert b)).mapError wrap) items start =
        (read, .ok gathered) ↔
      read = items.length ∧ ∃ (as : List α) (cs : List γ),
        items = as.map .ok ∧ as.map f = cs.map .ok ∧ gathered = cs.foldl insert start := by
  induction items generalizing start read with
  | nil =>
    constructor
    · rintro ⟨⟩
      exact ⟨rfl, [], [], rfl, rfl, rfl⟩
    · rintro ⟨rfl, as, cs, has, hcs, rfl⟩
      obtain rfl := List.map_eq_nil_iff.mp has.symm
      obtain rfl := List.map_eq_nil_iff.mp hcs.symm
      rfl
  | cons item items ih =>
    rw [readItems_cons_eq_ok_iff]
    constructor
    · rintro ⟨a, next, rest, rfl, htake, hrest, rfl⟩
      obtain ⟨rfl, as, cs, rfl, hcs, rfl⟩ := ih.mp hrest
      cases ha : f a with
      | error e =>
        rw [ha] at htake
        cases htake
      | ok c =>
        rw [ha] at htake
        cases htake
        exact ⟨rfl, a :: as, c :: cs, rfl, map_eq_map_ok_cons.mpr ⟨c, cs, rfl, ha, hcs⟩, rfl⟩
    · rintro ⟨rfl, as, cs, has, hcs, rfl⟩
      obtain ⟨a, as, rfl⟩ := List.exists_cons_of_ne_nil (l := as) (by rintro rfl; cases has)
      obtain ⟨rfl, rfl⟩ := List.cons.inj has
      obtain ⟨c, cs, rfl, ha, hcs⟩ := map_eq_map_ok_cons.mp hcs
      exact ⟨a, insert start c, _, rfl, by rw [ha]; rfl, ih.mpr ⟨rfl, as, cs, rfl, hcs, rfl⟩, rfl⟩

theorem readAnswer_eq_ok_iff {request : Request} {take : β → α → Except Cause β} {start : β}
    {answer : Except ServiceError (Scan α)} {read : Nat} {gathered : β} :
    readAnswer request take start answer = (read, .ok gathered) ↔
      ∃ items, answer = .ok items ∧ readItems request take items start = (read, .ok gathered) := by
  cases answer with
  | error e => simp [readAnswer]
  | ok items => simp [readAnswer]

/-- A scan is not gathered because of an error of the environment, or of an item that cannot be
taken. -/
theorem readItems_error {request : Request} {take : β → α → Except Cause β} {items : Scan α}
    {start : β} {read : Nat} {cause : Cause}
    (h : readItems request take items start = (read, .error cause)) :
    (∃ e, cause = .environment request e) ∨ ∃ gathered a, take gathered a = .error cause := by
  induction items generalizing start read with
  | nil => cases h
  | cons item items ih =>
    cases item with
    | error e =>
      cases h
      exact .inl ⟨e, rfl⟩
    | ok a =>
      cases htake : take start a with
      | error cause' =>
        simp only [readItems, htake] at h
        cases h
        exact .inr ⟨start, a, htake⟩
      | ok next =>
        simp only [readItems, htake] at h
        obtain ⟨-, hrest⟩ := Prod.mk.inj h
        exact ih (Prod.ext rfl hrest)

theorem readAnswer_error {request : Request} {take : β → α → Except Cause β} {start : β}
    {answer : Except ServiceError (Scan α)} {read : Nat} {cause : Cause}
    (h : readAnswer request take start answer = (read, .error cause)) :
    (∃ e, cause = .environment request e) ∨ ∃ gathered a, take gathered a = .error cause := by
  cases answer with
  | error e =>
    cases h
    exact .inl ⟨e, rfl⟩
  | ok items => exact readItems_error h

theorem takeEntry_error {settings : Settings} {live : LiveKeys} {entry : Entry} {cause : Cause}
    (h : Pass.takeEntry settings live entry = .error cause) : ∃ e, cause = .malformedEntry e := by
  cases hr : Reference.ofEntry settings.tablesDir entry with
  | error e =>
    simp only [Pass.takeEntry, hr] at h
    cases h
    exact ⟨e, rfl⟩
  | ok r =>
    simp only [Pass.takeEntry, hr] at h
    cases h

theorem takeBlip_error {settings : Settings} {loads : BulkLoads} {blip : String} {cause : Cause}
    (h : Pass.takeBlip settings loads blip = .error cause) : ∃ e, cause = .malformedPath e := by
  cases hk : Key.ofPath settings.tablesDir .directory blip with
  | error e =>
    simp only [Pass.takeBlip, BulkLoads.mark, hk] at h
    cases h
    exact ⟨e, rfl⟩
  | ok key =>
    simp only [Pass.takeBlip, BulkLoads.mark, hk] at h
    cases h

/-- The references are gathered when every item of the scan is an entry that resolves, and then they
are the references that the entries resolve to. -/
theorem readEntries_eq_ok_iff {settings : Settings} {answer : Except ServiceError (Scan Entry)}
    {read : Nat} {live : LiveKeys} :
    readAnswer .references (Pass.takeEntry settings) .empty answer = (read, .ok live) ↔
      ∃ (entries : List Entry) (refs : List Reference), answer = .ok (entries.map .ok) ∧
        entries.map (Reference.ofEntry settings.tablesDir) = refs.map .ok ∧
        live = .ofList refs ∧ read = entries.length := by
  rw [readAnswer_eq_ok_iff]
  constructor
  · rintro ⟨items, rfl, h⟩
    obtain ⟨rfl, entries, refs, rfl, hrefs, rfl⟩ := readItems_eq_ok_iff.mp h
    exact ⟨entries, refs, rfl, hrefs, rfl, List.length_map _⟩
  · rintro ⟨entries, refs, rfl, hrefs, rfl, rfl⟩
    exact ⟨_, rfl, readItems_eq_ok_iff.mpr
      ⟨(List.length_map _).symm, entries, refs, rfl, hrefs, rfl⟩⟩

/-- Entries that all resolve are gathered into the references that they resolve to. -/
theorem readEntries_ok {settings : Settings} {entries : List Entry} {refs : List Reference}
    (resolved : entries.map (Reference.ofEntry settings.tablesDir) = refs.map .ok) :
    readAnswer .references (Pass.takeEntry settings) .empty (.ok (entries.map .ok)) =
      (entries.length, .ok (.ofList refs)) :=
  readEntries_eq_ok_iff.mpr ⟨entries, refs, rfl, resolved, rfl, rfl⟩

/-- The bulk loads are gathered when every item of the scan is a blip that names a directory, and
then they are the directories that the blips name. -/
theorem readBlips_eq_ok_iff {settings : Settings} {answer : Except ServiceError (Scan String)}
    {read : Nat} {loads : BulkLoads} :
    readAnswer .blips (Pass.takeBlip settings) .empty answer = (read, .ok loads) ↔
      ∃ (blips : List String) (keys : List Key), answer = .ok (blips.map .ok) ∧
        blips.map (Key.ofPath settings.tablesDir .directory) = keys.map .ok ∧
        loads = .ofKeys keys ∧ read = blips.length := by
  rw [readAnswer_eq_ok_iff]
  constructor
  · rintro ⟨items, rfl, h⟩
    obtain ⟨rfl, blips, keys, rfl, hkeys, rfl⟩ := readItems_eq_ok_iff.mp h
    exact ⟨blips, keys, rfl, hkeys, rfl, List.length_map _⟩
  · rintro ⟨blips, keys, rfl, hkeys, rfl, rfl⟩
    exact ⟨_, rfl, readItems_eq_ok_iff.mpr
      ⟨(List.length_map _).symm, blips, keys, rfl, hkeys, rfl⟩⟩

/-- Blips that all name directories are gathered into the loads of these. -/
theorem readBlips_ok {settings : Settings} {blips : List String} {keys : List Key}
    (named : blips.map (Key.ofPath settings.tablesDir .directory) = keys.map .ok) :
    readAnswer .blips (Pass.takeBlip settings) .empty (.ok (blips.map .ok)) =
      (blips.length, .ok (.ofKeys keys)) :=
  readBlips_eq_ok_iff.mpr ⟨blips, keys, rfl, named, rfl, rfl⟩

/-! ## Pages -/

theorem ofLiteral_eq_ok_iff {tablesDir literal : String} {c : Candidate} :
    Candidate.ofLiteral tablesDir literal = .ok c ↔
      c.literal = literal ∧ Key.ofPath tablesDir .any literal = .ok c.key := by
  cases h : Key.ofPath tablesDir .any literal with
  | error e => simp [Candidate.ofLiteral, h, Except.map]
  | ok key =>
    rcases c with ⟨literal', key'⟩
    simp [Candidate.ofLiteral, h, Except.map, eq_comm]

/-- A page is read when each of its texts has a key, and then it is read as the candidates with
these texts and keys. -/
theorem ofPage_eq_ok_iff {tablesDir : String} {page : List String} {cs : List Candidate} :
    Candidate.ofPage tablesDir page = .ok cs ↔
      cs.map (·.literal) = page ∧ ∀ c ∈ cs, Key.ofPath tablesDir .any c.literal = .ok c.key := by
  rw [Candidate.ofPage, mapM_eq_ok_iff]
  induction page generalizing cs with
  | nil =>
    constructor
    · intro h
      obtain rfl := List.map_eq_nil_iff.mp h.symm
      simp
    · rintro ⟨h, -⟩
      obtain rfl := List.map_eq_nil_iff.mp h
      rfl
  | cons literal page ih =>
    rw [map_eq_map_ok_cons]
    constructor
    · rintro ⟨c, cs', rfl, hc, hcs⟩
      obtain ⟨rfl, hkey⟩ := ofLiteral_eq_ok_iff.mp hc
      obtain ⟨rfl, hkeys⟩ := ih.mp hcs
      exact ⟨rfl, List.forall_mem_cons.mpr ⟨hkey, hkeys⟩⟩
    · rintro ⟨hpage, hkeys⟩
      obtain ⟨c, cs', rfl, rfl, rfl⟩ := List.map_eq_cons_iff.mp hpage
      obtain ⟨hkey, hkeys⟩ := List.forall_mem_cons.mp hkeys
      exact ⟨c, cs', rfl, ofLiteral_eq_ok_iff.mpr ⟨rfl, hkey⟩, ih.mpr ⟨rfl, hkeys⟩⟩

/-- A text has one key, so a page that was read has one candidate with it. -/
theorem eq_of_literal_eq {tablesDir : String} {page : List String} {cs : List Candidate}
    (read : Candidate.ofPage tablesDir page = .ok cs) {c d : Candidate} (hc : c ∈ cs) (hd : d ∈ cs)
    (same : c.literal = d.literal) : c = d := by
  obtain ⟨-, keys⟩ := ofPage_eq_ok_iff.mp read
  have key_c := keys c hc
  have key_d := keys d hd
  rw [same, key_d] at key_c
  cases c
  cases d
  cases same
  cases key_c
  rfl

end TabletSweep
