import TabletSweep.Proofs.Ascending
import TabletSweep.Proofs.Pass.Orderly
import TabletSweep.Proofs.Reading

/-!
# Working through a log page by page

In an orderly environment the pages of a pass are consecutive pieces of the log: what a page has
taken out of the log was on that page, and so the next one is what it would have been. Which pages
there are is therefore known from the log alone, up to the first that cannot be read (`readPages`).

What becomes of the candidates differs with the settings of a pass. A relation between candidates
and the progress before and after them is `Pagewise` if it says so of each page and can be put
together from page to page; it then holds of the whole log (`Pagewise.exec_processLog`).
-/

namespace TabletSweep

namespace Pass

open PassM

/-! ## Reading a log -/

/-- What texts come to that are read page by page, each page with up to so many of them: the
candidates of all pages before the first that cannot be read, and that page with the reason. -/
def readPages (tablesDir : String) (n : Nat) (texts : List String) :
    List Candidate × Option (List String × PathError) :=
  if texts.take n = [] then ([], none)
  else
    match Candidate.ofPage tablesDir (texts.take n) with
    | .error e => ([], some (texts.take n, e))
    | .ok cs =>
      let rest := readPages tablesDir n (texts.drop n)
      (cs ++ rest.1, rest.2)
termination_by texts.length
decreasing_by
  rename_i some
  rw [List.take_eq_nil_iff, not_or] at some
  have := List.length_pos_iff.mpr some.2
  rw [List.length_drop]
  omega

/-- What a pass reads of a log with pages that are cut off at a cap. -/
def readLog (settings : Settings) (cap : Nat) (log : NameSet) :
    List Candidate × Option (List String × PathError) :=
  readPages settings.tablesDir (min settings.batchSize cap) (log.after "")

section ReadPages

variable {tablesDir : String} {n : Nat} {texts : List String} {cs : List Candidate}

theorem readPages_of_take_eq_nil (none : texts.take n = []) :
    readPages tablesDir n texts = ([], .none) := by
  rw [readPages, if_pos none]

theorem readPages_of_error {e : PathError} (some : texts.take n ≠ [])
    (read : Candidate.ofPage tablesDir (texts.take n) = .error e) :
    readPages tablesDir n texts = ([], .some (texts.take n, e)) := by
  rw [readPages, if_neg some, read]

theorem readPages_of_ok (some : texts.take n ≠ [])
    (read : Candidate.ofPage tablesDir (texts.take n) = .ok cs) :
    readPages tablesDir n texts =
      (cs ++ (readPages tablesDir n (texts.drop n)).1,
        (readPages tablesDir n (texts.drop n)).2) := by
  rw [readPages, if_neg some, read]

/-- Texts that all have keys are read to the end, whatever the size of the pages. -/
theorem readPages_eq (n_pos : 1 ≤ n) (read : Candidate.ofPage tablesDir texts = .ok cs) :
    readPages tablesDir n texts = (cs, .none) := by
  obtain ⟨rfl, keys⟩ := ofPage_eq_ok_iff.mp read
  clear read
  induction hlength : cs.length using Nat.strongRecOn generalizing cs with
  | ind length ih =>
    by_cases none : (cs.map (·.literal)).take n = []
    · rw [readPages_of_take_eq_nil none]
      rcases List.take_eq_nil_iff.mp none with hzero | hnil
      · omega
      · rw [List.map_eq_nil_iff.mp hnil]
    · have page : Candidate.ofPage tablesDir ((cs.map (·.literal)).take n) = .ok (cs.take n) :=
        ofPage_eq_ok_iff.mpr ⟨List.map_take .., fun c hc => keys c (List.mem_of_mem_take hc)⟩
      have shorter : (cs.drop n).length < length := by
        rw [List.take_eq_nil_iff, not_or] at none
        have := List.length_pos_iff.mpr none.2
        rw [List.length_map] at this
        rw [List.length_drop]
        omega
      have rest := ih _ shorter (fun c hc => keys c (List.mem_of_mem_drop hc)) rfl
      rw [readPages_of_ok none page, ← List.map_drop, rest, List.take_append_drop]

end ReadPages

variable {σ : Type} {v : View σ} {cs ds : List Candidate} {p q s : Progress σ}
  {settings : Settings} {env : Environment σ} {cap : Nat} {entries : List Entry}
  {blips ids : List String}

/-! ## Steps that delete nothing -/

/-- Nothing that is seen has changed, and nothing was deleted. -/
structure Spared (v : View σ) (p q : Progress σ) : Prop where
  same : v.Same p.world q.world
  emptied : q.ledger.emptied = p.ledger.emptied
  texts : deletedTexts q.calls = deletedTexts p.calls
  dirs : removals q.calls = removals p.calls

theorem Spared.trans (first : Spared v p q) (second : Spared v q s) : Spared v p s where
  same := first.same.trans second.same
  emptied := second.emptied.trans first.emptied
  texts := second.texts.trans first.texts
  dirs := second.dirs.trans first.dirs

theorem spared_noted {world : σ} {call : Call} {phase : Phase} {counters : Counters}
    (same : v.Same p.world world) (texts : call.deletedTexts = []) (dir : call.removal? = none) :
    Spared v p { p.noted world call with phase, counters } where
  same := same
  emptied := rfl
  texts := by simp [deletedTexts, texts]
  dirs := by simp [removals, dir]

theorem spared_counted (orderly : Orderly env v cap entries blips ids) (good : v.good p.world)
    (page : List String) : Spared v p (counted env page p) :=
  spared_noted (orderly.countCandidates p.world page.length good) rfl rfl

theorem spared_judged (orderly : Orderly env v cap entries blips ids) (good : v.good p.world)
    (verdict : Verdict) : Spared v p (judged env verdict p) where
  same := orderly.countInUse p.world verdict.kept.length good
  emptied := TableLedger.emptied_keptAll
  texts := by simp [judged, deletedTexts, Call.deletedTexts]
  dirs := by simp [judged, removals, Call.removal?]

/-! ## Working through a log -/

/-- Nothing that is seen has changed but for some candidates: their texts may be gone from the log,
and their deletions may fail less often. -/
structure Confined (v : View σ) (cs : List Candidate) (p q : Progress σ) : Prop where
  good : v.good q.world
  log : ∀ x, x ∈ v.log q.world → x ∈ v.log p.world
  rest : ∀ x, x ∈ v.log p.world → x ∉ cs.map (·.literal) → x ∈ v.log q.world
  left : ∀ x, x ∉ cs.map (·.literal) → v.left q.world x = v.left p.world x

theorem confined_of_same (same : v.Same p.world q.world) : Confined v cs p q where
  good := same.good
  log x := by simp [same.log]
  rest x := by simp +contextual [same.log]
  left x _ := by rw [same.left]

/-- What follows a page in the log is what followed it before the page was worked through. -/
theorem Confined.after_eq (confined : Confined v cs p q) {texts : List String} {n : Nat}
    {cursor last : String} (rest : (v.log p.world).after cursor = texts)
    (page : cs.map (·.literal) = texts.take n) (hlast : (texts.take n).getLast? = some last)
    (beyond : cursor < last) : (v.log q.world).after last = texts.drop n := by
  have ascending : texts.Pairwise (· < ·) := rest ▸ NameSet.sorted_after ..
  refine eq_of_ascending (NameSet.sorted_after ..) ascending.drop fun x => ?_
  rw [NameSet.mem_after, mem_drop_iff ascending hlast, ← rest, NameSet.mem_after]
  constructor
  · rintro ⟨hx, hlt⟩
    exact ⟨⟨confined.log x hx, Std.lt_trans beyond hlt⟩, hlt⟩
  · rintro ⟨⟨hx, -⟩, hlt⟩
    refine ⟨confined.rest x hx fun hpage => ?_, hlt⟩
    -- The texts of the page do not follow its last one.
    rw [page] at hpage
    exact absurd hlt (String.not_lt.mpr (le_getLast_of_ascending ascending.take hlast hpage))

/-- How the work on a log ends: after the last page, or with a page that cannot be read once that is
counted. -/
def ended (env : Environment σ) (stop : Option (List String × PathError)) (p : Progress σ) :
    Except Stop Unit × Progress σ :=
  match stop with
  | none => (.ok (), p)
  | some (page, e) => (.error (.failed (.malformedPath e)), counted env page p)

/-- A relation that says of each page what becomes of its candidates, and that can be put together
from page to page. The deletions of texts fail a known number of times. -/
structure Pagewise (settings : Settings) (env : Environment σ) (v : View σ) (snapshot : Snapshot)
    (failures : String → Nat) (P : List Candidate → Progress σ → Progress σ → Prop) : Prop where
  confined : ∀ {cs p q}, P cs p q → Confined v cs p q
  append : ∀ {cs ds p q s}, P cs p q → P ds q s → P (cs ++ ds) p s
  fetched : ∀ {p world cursor page}, v.Same p.world world →
    P [] p ({ p with phase := .fetching }.noted world
      (.candidates cursor settings.batchSize (.ok page)))
  processed : ∀ {page cs p}, Candidate.ofPage settings.tablesDir page = .ok cs →
    v.good p.world → page.Nodup → (∀ x ∈ page, v.left p.world x = failures x) →
    ∃ q, exec (processPage settings env snapshot page) p = (.ok (), q) ∧ P cs p q

variable {snapshot : Snapshot} {failures : String → Nat}
  {P : List Candidate → Progress σ → Progress σ → Prop}

/-- Working through the log after a cursor does to its candidates what it does page by page, up to
the first page that cannot be read, given as many pages as there are texts and one more. -/
theorem Pagewise.exec_processLog (pagewise : Pagewise settings env v snapshot failures P)
    (orderly : Orderly env v cap entries blips ids) {budget : Nat} {cursor : String}
    {texts : List String} (enough : texts.length < budget) (good : v.good p.world)
    (rest : (v.log p.world).after cursor = texts)
    (left : ∀ x ∈ texts, v.left p.world x = failures x) :
    ∃ q, exec (processLog settings env snapshot budget cursor) p =
        ended env (readPages settings.tablesDir (min settings.batchSize cap) texts).2 q ∧
      P (readPages settings.tablesDir (min settings.batchSize cap) texts).1 p q := by
  induction budget generalizing texts cursor p with
  | zero => omega
  | succ budget ih =>
    obtain ⟨w, answered, same⟩ := orderly.candidates p.world cursor settings.batchSize good
    rw [rest] at answered
    let n := min settings.batchSize cap
    let page := texts.take n
    let p' := { p with phase := .fetching }.noted w
      (.candidates cursor settings.batchSize (.ok page))
    have fetched : P [] p p' := pagewise.fetched same
    rcases hlast : page.getLast? with _ | last
    · rw [readPages_of_take_eq_nil (List.getLast?_eq_none_iff.mp hlast)]
      exact ⟨p', exec_processLog_end answered hlast, fetched⟩
    have some : page ≠ [] := fun none => by simp [none] at hlast
    have ascending : texts.Pairwise (· < ·) := rest ▸ NameSet.sorted_after ..
    have beyond : cursor < last := by
      have hmem : last ∈ texts := List.mem_of_mem_take (List.mem_of_getLast? hlast)
      rw [← rest] at hmem
      exact (NameSet.mem_after.mp hmem).2
    have moves : ¬(cursor ≠ "" ∧ last ≤ cursor) := fun h => String.not_le.mpr beyond h.2
    rw [exec_processLog_page answered hlast moves]
    cases read : Candidate.ofPage settings.tablesDir page with
    | error e =>
      rw [readPages_of_error some read, exec_bind_error (exec_processPage_malformed read)]
      exact ⟨p', rfl, fetched⟩
    | ok cs =>
      rw [readPages_of_ok some read]
      have hpage : cs.map (·.literal) = page := (ofPage_eq_ok_iff.mp read).1
      have whole : page ++ texts.drop n = texts := List.take_append_drop n texts
      have distinct : (page ++ texts.drop n).Nodup :=
        whole.symm ▸ ascending.imp fun hlt => String.ne_of_lt hlt
      obtain ⟨nodup, -, apart⟩ := List.nodup_append.mp distinct
      have left' : ∀ x ∈ texts, v.left p'.world x = failures x := by
        intro x hx
        rw [← left x hx]
        exact congrFun same.left x
      obtain ⟨q, hq, processed⟩ := pagewise.processed (p := p') read same.good nodup
        fun x hx => left' x (List.mem_of_mem_take hx)
      have confined := pagewise.confined processed
      have rest' : (v.log p'.world).after cursor = texts := by
        rw [← rest]
        exact congrArg (NameSet.after · cursor) same.log
      have shorter : (texts.drop n).length < budget := by
        have hlength := congrArg List.length whole
        have hpos := List.length_pos_iff.mpr some
        rw [List.length_append] at hlength
        omega
      -- What is left of the log follows where the page ended, and has at least one text less.
      obtain ⟨s, hs, further⟩ := ih shorter confined.good
        (confined.after_eq rest' hpage hlast beyond) fun x hx => by
          have elsewhere : x ∉ cs.map (·.literal) :=
            hpage ▸ fun hmem => apart x hmem x hx rfl
          rw [confined.left x elsewhere, left' x (List.mem_of_mem_drop hx)]
      have both := pagewise.append fetched (pagewise.append processed further)
      exact ⟨s, by rw [exec_bind_ok hq, hs], both⟩

end Pass

end TabletSweep
