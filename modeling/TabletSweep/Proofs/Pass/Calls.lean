import Mathlib.Control.Monad.Basic
import TabletSweep.Pass.Call

/-!
# Looking back along the calls of a pass

What a pass may ask for depends on what it was answered before. `EachCall R` says of a list of calls
that each stands in the relation `R` to the calls before it; such a statement grows with the list
(`eachCall_concat`), so a pass keeps it by keeping it at every call.

`pages` are the pages of the log that were served, and `fetches` counts the requests for one.
-/

namespace TabletSweep

deriving instance DecidableEq for Call

/-- The page that a call was answered with. -/
def Call.page? : Call → Option (List String)
  | .candidates _ _ (.ok page) => some page
  | _ => none

/-- Whether a call requests a page. -/
def Call.isFetch : Call → Bool
  | .candidates .. => true
  | _ => false

namespace Pass

/-- Each of the calls stands in the relation to those before it. -/
def EachCall (R : List Call → Call → Prop) (calls : List Call) : Prop :=
  ∀ before call after, calls = before ++ call :: after → R before call

variable {R : List Call → Call → Prop}

theorem eachCall_nil : EachCall R [] := by
  intro before call after h
  simp at h

theorem eachCall_concat {calls : List Call} {last : Call} :
    EachCall R (calls ++ [last]) ↔ EachCall R calls ∧ R calls last := by
  constructor
  · intro h
    refine ⟨fun before call after e => ?_, h calls last [] rfl⟩
    exact h before call (after ++ [last]) (by simp [e])
  · rintro ⟨h, hlast⟩ before call after e
    rcases List.eq_nil_or_concat after with rfl | ⟨init, x, rfl⟩
    · obtain ⟨rfl, hx⟩ := List.append_inj' e rfl
      obtain rfl := List.singleton_inj.mp hx
      exact hlast
    · have e' : calls ++ [last] = (before ++ call :: init) ++ [x] := by simpa using e
      exact h before call init (List.append_inj' e' rfl).1

theorem EachCall.imp {S : List Call → Call → Prop} {calls : List Call} (h : EachCall R calls)
    (imp : ∀ before call, R before call → S before call) : EachCall S calls :=
  fun before call after e => imp before call (h before call after e)

theorem EachCall.of_append {calls more : List Call} (h : EachCall R (calls ++ more)) :
    EachCall R calls := by
  intro before call after e
  exact h before call (after ++ more) (by simp [e])

/-- Calls may be added of which there is nothing to be said from those before them. -/
theorem EachCall.append {calls more : List Call} (h : EachCall R calls)
    (holds : ∀ call ∈ more, ∀ before, R before call) : EachCall R (calls ++ more) := by
  induction more generalizing calls with
  | nil =>
    rw [List.append_nil]
    exact h
  | cons call more ih =>
    obtain ⟨first, others⟩ := List.forall_mem_cons.mp holds
    rw [List.append_cons]
    exact ih (eachCall_concat.mpr ⟨h, first calls⟩) others

theorem eachCall_iff_forall_fin {calls : List Call} :
    EachCall R calls ↔ ∀ i : Fin calls.length, R (calls.take i) (calls.get i) := by
  constructor
  · intro h i
    refine h _ _ (calls.drop (i + 1)) ?_
    rw [List.get_eq_getElem, List.getElem_cons_drop, List.take_append_drop]
  · rintro h before call after rfl
    have at_call := h ⟨before.length, by simp⟩
    simpa using at_call

instance {calls : List Call} [∀ before call, Decidable (R before call)] :
    Decidable (EachCall R calls) :=
  decidable_of_iff _ eachCall_iff_forall_fin.symm

/-- The pages that were served, in order. -/
def pages (calls : List Call) : List (List String) := calls.filterMap Call.page?

@[simp] theorem pages_nil : pages [] = [] := rfl

@[simp] theorem pages_append (cs ds : List Call) : pages (cs ++ ds) = pages cs ++ pages ds :=
  List.filterMap_append

@[simp] theorem pages_cons (call : Call) (cs : List Call) :
    pages (call :: cs) = call.page?.toList ++ pages cs := by
  cases h : call.page? <;> simp [pages, h]

/-- The number of requests for a page. -/
def fetches (calls : List Call) : Nat := calls.countP Call.isFetch

@[simp] theorem fetches_nil : fetches [] = 0 := rfl

@[simp] theorem fetches_append (cs ds : List Call) :
    fetches (cs ++ ds) = fetches cs + fetches ds := List.countP_append

@[simp] theorem fetches_cons (call : Call) (cs : List Call) :
    fetches (call :: cs) = (if call.isFetch then 1 else 0) + fetches cs := by
  rw [fetches, List.countP_cons, Nat.add_comm, fetches]

end Pass

end TabletSweep
