import TabletSweep.Filesystem.Create
import TabletSweep.Simulation.Environment
import TabletSweep.Proofs.Pass.Calls
import TabletSweep.Proofs.Pass.Exec
import TabletSweep.Proofs.Pass.Machine
import TabletSweep.Proofs.Protection
import TabletSweep.Proofs.Reading
import TabletSweep.Proofs.Pass.Scans
import TabletSweep.Proofs.Pass.DeletionSafety
import TabletSweep.Proofs.Pass.Paging
import TabletSweep.Proofs.Ledger
import TabletSweep.Proofs.Pass.Orderly
import TabletSweep.Proofs.Pass.Tally
import TabletSweep.Proofs.Pass.Settlement
import TabletSweep.Proofs.Key
import TabletSweep.Proofs.Linkless
import TabletSweep.Proofs.Volume
import TabletSweep.Proofs.Pass.Storage
import TabletSweep.Proofs.Pass.LiveData
import TabletSweep.Proofs.Key.Shapes
import TabletSweep.Proofs.Pass.SharedTexts
import TabletSweep.Proofs.Pass.Rounds
import TabletSweep.Proofs.Pass.Protocol
import TabletSweep.Proofs.Pass.TableDirs
import TabletSweep.Proofs.Pass.Interruption
import TabletSweep.Proofs.Key.Spellings
import TabletSweep.Proofs.EntryPaths
import TabletSweep.Proofs.Pass.Pagewise
import TabletSweep.Proofs.Pass.MoreProtection
import TabletSweep.Proofs.Pass.Termination
import TabletSweep.Proofs.Faults
import TabletSweep.Proofs.Pass.Logged
import TabletSweep.Proofs.Pass.Malformed
import TabletSweep.Proofs.Pass.SafeMode
import TabletSweep.Proofs.Pass.Reruns
import TabletSweep.Proofs.Pass.Accounts
import TabletSweep.Proofs.Pass.Retries
import TabletSweep.Proofs.Key.Text
import TabletSweep.Proofs.VolumePaths
import TabletSweep.Proofs.Shrinking
import TabletSweep.Proofs.Volume.Removal
import TabletSweep.Proofs.Volume.Repeats
import TabletSweep.Proofs.Volume.Targets
import TabletSweep.Proofs.Volume.Orders
import TabletSweep.Proofs.Pass.Delegation
import TabletSweep.Proofs.Simulation.Disk
import TabletSweep.Proofs.Pass.Absences
import TabletSweep.Proofs.Row
import TabletSweep.Proofs.References
import TabletSweep.Proofs.Volume.Vacancy
import TabletSweep.Proofs.Pass.Cleanup
import TabletSweep.Proofs.Pass.Judging
import TabletSweep.Proofs.Key.Order
