import TabletSweep.Pass.Run

/-!
# The collector

A collector holds settings that were accepted, and counts the passes it starts. Nothing else is kept
from one pass to the next: each reads its own snapshot.
-/

namespace TabletSweep

/-- A collector with accepted settings. -/
structure Collector where
  settings : Settings
  accepted : settings.check = .ok ()
  /-- The number of passes started. -/
  passes : Nat := 0

namespace Collector

/-- A collector with the given settings, if they are accepted. -/
def ofSettings (settings : Settings) : Except SettingsError Collector :=
  match accepted : settings.check with
  | .ok () => .ok { settings, accepted }
  | .error e => .error e

/-- Runs a pass that may ask for so many pages. -/
def runPass {σ : Type} (collector : Collector) (env : Environment σ) (budget : Nat) (world : σ) :
    Collector × Report σ :=
  ({ collector with passes := collector.passes + 1 },
    Pass.run collector.settings env budget world)

end Collector

end TabletSweep
