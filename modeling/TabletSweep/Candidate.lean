import TabletSweep.Key.OfPath

/-!
# Candidates for deletion

A candidate is a path from the candidate log: the literal text, by which the log knows it, and the
key that the text spells out, by which it is judged.
-/

namespace TabletSweep

/-- A path from the candidate log, with its key. -/
structure Candidate where
  literal : String
  key : Key
  deriving DecidableEq, Repr, Inhabited

namespace Candidate

/-- Reads a text of the log as a candidate for a file or a tablet directory. -/
def ofLiteral (tablesDir literal : String) : Except PathError Candidate :=
  (Key.ofPath tablesDir .any literal).map (⟨literal, ·⟩)

/-- Reads a page of the log. The error is that of the first text without a key. -/
def ofPage (tablesDir : String) (page : List String) : Except PathError (List Candidate) :=
  page.mapM (ofLiteral tablesDir)

end Candidate

end TabletSweep
