import Userland.Proofs.Arguments
import Userland.Proofs.Bookkeeping
import Userland.Proofs.Boundaries
import Userland.Proofs.CallResults
import Userland.Proofs.ChannelRuns
import Userland.Proofs.Decoding
import Userland.Proofs.Delivery
import Userland.Proofs.FailedLoads
import Userland.Proofs.Lifecycle
import Userland.Proofs.RangeFaults
import Userland.Proofs.RoundTrip
import Userland.Proofs.SegmentPages
import Userland.Proofs.StackLayout
import Userland.Proofs.TableHistories
import Userland.Proofs.Teardown
import Userland.Proofs.UserStrings
import Userland.Script.Boot
import Userland.Script.Descriptors
import Userland.Script.Entries
import Userland.Script.Frames
import Userland.Script.Lines
import Userland.Script.Load
import Userland.Script.Slot
import Userland.Script.Trial
