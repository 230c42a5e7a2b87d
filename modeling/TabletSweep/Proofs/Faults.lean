import TabletSweep.Proofs.Reading

/-!
# What stops the reading of a list

A list that is read item by item is read up to its first item at fault, and that item says why no
more is read. `FirstFault` tells the item by its number. So it is known of a scan that cannot be
gathered how many items of it were read and what its failure is (`readItems_eq_error`), and of a
page that cannot be read whose error it is (`ofPage_eq_error`).
-/

namespace TabletSweep

variable {α β γ ε : Type}

/-- The first item at fault in a list is the one of the number, counted from 0, and this is its
fault. -/
def FirstFault (fault : α → Option Cause) (items : List α) (n : Nat) (cause : Cause) : Prop :=
  ∃ item, items[n]? = some item ∧ fault item = some cause ∧
    ∀ other ∈ items.take n, fault other = none

section FirstFault

variable {fault : α → Option Cause} {item : α} {items : List α} {n : Nat} {cause : Cause}

theorem firstFault_head (h : fault item = some cause) : FirstFault fault (item :: items) 0 cause :=
  ⟨item, rfl, h, by simp⟩

theorem FirstFault.cons (h : FirstFault fault items n cause) (none : fault item = none) :
    FirstFault fault (item :: items) (n + 1) cause := by
  obtain ⟨x, hx, hfault, others⟩ := h
  refine ⟨x, hx, hfault, ?_⟩
  rw [List.take_succ_cons]
  exact List.forall_mem_cons.mpr ⟨none, others⟩

end FirstFault

/-! ## What an item is at fault for -/

/-- The fault of what could not be read. -/
def faultOf (wrap : ε → Cause) : Except ε γ → Option Cause
  | .error e => some (wrap e)
  | .ok _ => none

/-- An entry of the metadata is at fault if it does not resolve. -/
def entryFault (settings : Settings) (entry : Entry) : Option Cause :=
  faultOf .malformedEntry (Reference.ofEntry settings.tablesDir entry)

/-- A blip is at fault if it names no directory. -/
def blipFault (settings : Settings) (blip : String) : Option Cause :=
  faultOf .malformedPath (Key.ofPath settings.tablesDir .directory blip)

/-- A text of the log is at fault if it has no key. -/
def textFault (settings : Settings) (text : String) : Option Cause :=
  faultOf .malformedPath (Key.ofPath settings.tablesDir .any text)

/-- An item of a scan is at fault if it is an error, or as the value that it is. -/
def itemFault (request : Request) (fault : α → Option Cause) : Except ServiceError α → Option Cause
  | .error e => some (.environment request e)
  | .ok a => fault a

/-! ## Lists that cannot be read -/

section Lists

variable {f : α → Except ε γ} {wrap : ε → Cause}

theorem mapM_eq_error {as : List α} {e : ε} (h : as.mapM f = .error e) :
    ∃ n, FirstFault (fun a => faultOf wrap (f a)) as n (wrap e) := by
  induction as with
  | nil => cases h
  | cons a as ih =>
    rw [List.mapM_cons] at h
    cases ha : f a with
    | error e' =>
      rw [ha] at h
      cases h
      exact ⟨0, firstFault_head (by rw [ha]; rfl)⟩
    | ok c =>
      rw [ha] at h
      cases has : as.mapM f with
      | error e' =>
        rw [has] at h
        cases h
        obtain ⟨n, first⟩ := ih has
        exact ⟨n + 1, first.cons (by rw [ha]; rfl)⟩
      | ok cs =>
        rw [has] at h
        cases h

open PassM

/-- A scan that is not gathered has an item at fault, and is read up to that one. -/
theorem readItems_eq_error {insert : β → γ → β} {request : Request} {items : Scan α} {start : β}
    {read : Nat} {cause : Cause}
    (h : readItems request (fun b a => ((f a).map (insert b)).mapError wrap) items start =
      (read, .error cause)) :
    ∃ n, read = n + 1 ∧
      FirstFault (itemFault request fun a => faultOf wrap (f a)) items n cause := by
  induction items generalizing start read with
  | nil => cases h
  | cons item items ih =>
    cases item with
    | error e =>
      cases h
      exact ⟨0, rfl, firstFault_head rfl⟩
    | ok a =>
      cases ha : f a with
      | error e =>
        simp only [readItems, ha] at h
        cases h
        exact ⟨0, rfl, firstFault_head (by simp only [itemFault, ha, faultOf])⟩
      | ok c =>
        simp only [readItems, ha] at h
        obtain ⟨rfl, hrest⟩ := Prod.mk.inj h
        obtain ⟨n, hread, first⟩ := ih (Prod.ext rfl hrest)
        exact ⟨n + 1, congrArg (· + 1) hread, first.cons (by simp only [itemFault, ha, faultOf])⟩

end Lists

/-- A page that cannot be read is at fault for its first text without a key. -/
theorem ofPage_eq_error {settings : Settings} {page : List String} {e : PathError}
    (h : Candidate.ofPage settings.tablesDir page = .error e) :
    ∃ n, FirstFault (textFault settings) page n (.malformedPath e) := by
  have same : (fun text => faultOf Cause.malformedPath
      (Candidate.ofLiteral settings.tablesDir text)) = textFault settings := by
    funext text
    rw [textFault, Candidate.ofLiteral]
    cases Key.ofPath settings.tablesDir .any text <;> rfl
  rw [← same]
  exact mapM_eq_error h

end TabletSweep
