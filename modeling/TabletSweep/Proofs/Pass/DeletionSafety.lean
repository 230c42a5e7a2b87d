import TabletSweep.Proofs.Pass.Scans
import TabletSweep.Simulation.Environment

/-!
# What a pass hands out for deletion

Whatever an environment answers, a pass hands out for deletion only candidates of the page that was
served last, under the keys that their texts spell out, and none that the scans of the pass protect;
where a scan cannot be read to its end, it hands out nothing (`delete_spares_protected`). Batches
that are handed out again are no exception, and neither are passes that fail.
-/

namespace TabletSweep

namespace Pass

variable {σ : Type} (settings : Settings) (env : Environment σ) (budget : Nat) (world : σ)

/-- No candidate that is handed out for deletion has a key that a reference of the pass points to,
is the directory of a file that one points to, or is or lies in a directory that a blip of the pass
names; and nothing is handed out in a pass with a scan in which something cannot be read. -/
theorem delete_spares_protected :
    (∀ before batch answer after,
      (run settings env budget world).calls = before ++ .delete batch answer :: after →
        ∃ page, (pages before).getLast? = some page ∧ ∀ c ∈ batch,
          c.literal ∈ page ∧ Key.ofPath settings.tablesDir .any c.literal = .ok c.key ∧
          (∀ r, Refers settings (run settings env budget world).calls r → r.key ≠ c.key) ∧
          (∀ file, Refers settings (run settings env budget world).calls (.file file) →
            file.directory ≠ c.key) ∧
          ∀ marked, Marks settings (run settings env budget world).calls marked →
            marked.directory ≠ c.key.directory) ∧
      ∀ call ∈ (run settings env budget world).calls, call.Unreadable settings →
        ∀ batch answer, .delete batch answer ∉ (run settings env budget world).calls := by
  have each := justified_calls_run settings env budget world
  constructor
  · intro before batch answer after h
    obtain ⟨snapshot, read, cleared⟩ := cleared_of_delete each h
    obtain ⟨page, hpage, hserved⟩ := cleared.served
    refine ⟨page, hpage, fun c hc => ⟨hserved c hc, cleared.read c hc, ?_⟩⟩
    obtain ⟨hkeeps, hcovers⟩ := Snapshot.frees_eq_true_iff.mp (cleared.free c hc)
    refine ⟨fun r refers e => ?_, fun file refers e => ?_, fun marked marks e => ?_⟩
    · have kept := read.keeps each refers (.inl e.symm)
      rw [hkeeps] at kept
      cases kept
    · have kept := read.keeps each refers (.inr ⟨file, rfl, e.symm⟩)
      rw [hkeeps] at kept
      cases kept
    · have covered := read.covers each marks e.symm
      rw [hcovers] at covered
      cases covered
  · intro call mem unreadable batch answer hdelete
    obtain ⟨before, after, h⟩ := List.append_of_mem hdelete
    obtain ⟨snapshot, read, -⟩ := cleared_of_delete each h
    exact read.readable each mem unreadable

section Retry

open Simulation

/-- A log with a file in use and its directory, a file that can go although its deletion fails once,
and a file in a directory under bulk load. -/
def sparingWorld : World where
  log := ⟨["1/t-1", "1/t-1/A.rf", "1/t-1/B.rf", "2/t-2/C.rf"], by decide +kernel⟩
  references := [.ofFile "1" none "../1/t-1/A.rf"]
  blips := ["2/t-2"]
  deleteFailures := [("1/t-1/B.rf", 1)]

/-- The second deletion of a pass that repeats one spares the file in use and the bulk load. -/
theorem repeated_delete_spares_protected :
    ∃ before after,
      (runPass { onFailure := .retry 1 } sparingWorld).calls =
        before ++ .delete [⟨"1/t-1/B.rf", ⟨"1", "t-1", some "B.rf"⟩⟩] (.ok ⟨[]⟩) :: after ∧
      (∃ failed, .delete [⟨"1/t-1/B.rf", ⟨"1", "t-1", some "B.rf"⟩⟩] (.ok ⟨failed⟩) ∈ before) ∧
      ∃ page, (pages before).getLast? = some page ∧ "1/t-1/B.rf" ∈ page ∧
        ∀ r, Refers {} (runPass { onFailure := .retry 1 } sparingWorld).calls r →
          r.key ≠ ⟨"1", "t-1", some "B.rf"⟩ := by
  have split : (runPass { onFailure := .retry 1 } sparingWorld).calls =
      (runPass { onFailure := .retry 1 } sparingWorld).calls.take 7 ++
        .delete [⟨"1/t-1/B.rf", ⟨"1", "t-1", some "B.rf"⟩⟩] (.ok ⟨[]⟩) ::
          (runPass { onFailure := .retry 1 } sparingWorld).calls.drop 8 := by
    decide +kernel
  refine ⟨_, _, split, ⟨["1/t-1/B.rf"], by decide +kernel⟩, ?_⟩
  obtain ⟨page, hpage, spares⟩ :=
    (delete_spares_protected { onFailure := .retry 1 } environment sparingWorld.pageBudget
      sparingWorld.beginPass).1 _ _ _ _ split
  obtain ⟨served, -, refs, -⟩ := spares _ (List.mem_singleton_self _)
  exact ⟨page, hpage, served, refs⟩

end Retry

end Pass

end TabletSweep
