import TabletSweep.Pass.Cause

/-!
# The calls of a pass

What a pass asked of the environment and told it, in order, with the answers. The calls are all that
the environment can see of a pass.
-/

namespace TabletSweep

/-- One call of a pass to the environment, with its answer. -/
inductive Call
  /-- The metadata scan, and how many of its items were read. -/
  | references (answer : Except ServiceError (Scan Entry)) (read : Nat)
  /-- The scan of blips, and how many of its items were read. -/
  | blips (answer : Except ServiceError (Scan String)) (read : Nat)
  /-- The ids of the tables. -/
  | tableIds (answer : Except ServiceError (List String))
  /-- A page of the candidate log. -/
  | candidates (cursor : String) (limit : Nat) (answer : Except ServiceError (List String))
  /-- The number of candidates on a page. -/
  | countCandidates (n : Nat)
  /-- The number of candidates on a page that are kept. -/
  | countInUse (n : Nat)
  /-- The deletion of a batch. -/
  | delete (batch : List Candidate) (answer : Except ServiceError DeleteReport)
  /-- The removal of the directory of a table, if it is empty. -/
  | removeTableDir (table : String) (answer : Except ServiceError Bool)

end TabletSweep
