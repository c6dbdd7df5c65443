import Yinshi.Reconcile.Placement
import Yinshi.Reconcile.Rearranged
import Yinshi.Prompt.Polling
import Yinshi.Prompt.Closing
import Yinshi.Terminal.Buffer
import Yinshi.Terminal.Admission
import Yinshi.Rpc.Reassembly
import Yinshi.Relay.Delivery
import Yinshi.Relay.Quiescence
import Yinshi.Threads.Drafts
import Yinshi.Threads.Capacity
import Yinshi.Threads.Spawning
import Yinshi.History.Pages
import Yinshi.Replica.Interleaving
import Yinshi.Admission.Exclusion
import Yinshi.Backup.Truth
import Yinshi.Backup.Retention
import Yinshi.Capability.OneUse
import Yinshi.Migration.Runs
import Yinshi.Guest.RoundTrip
import Yinshi.DataKey.Progress
import Yinshi.Launch.Startup
import Yinshi.Materialization.Resumption
import Yinshi.Publication.Outcomes
import Yinshi.Stopping.Found
import Yinshi.Owners.Guarantees
import Yinshi.Orchestration.Schedules
import Yinshi.AgentStream.Guarantees
import Yinshi.Workspace.Changes
import Yinshi.Sidecar.Finalizing
