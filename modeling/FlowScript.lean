import FlowScript.Ron.Config
import FlowScript.Proofs.Safety
import FlowScript.Proofs.Reload
import FlowScript.Proofs.Ending
import FlowScript.Proofs.Chains
import FlowScript.Proofs.EventOrder
import FlowScript.Proofs.Reloadable
import FlowScript.Proofs.Stale
import FlowScript.Proofs.Withdrawal
import FlowScript.Proofs.Refusals
import FlowScript.Proofs.Inventory
import FlowScript.Proofs.Watching
import FlowScript.Proofs.Timing
import FlowScript.Proofs.Iteration
import FlowScript.Proofs.Frames
import FlowScript.Proofs.Laps
import FlowScript.Proofs.Switching
import FlowScript.Proofs.Overflow
import FlowScript.Proofs.Stranded
import FlowScript.Proofs.Elapsed
import FlowScript.Proofs.Delivery
import FlowScript.Proofs.Removal
import FlowScript.Proofs.Search
import FlowScript.Proofs.Unforced
import FlowScript.Proofs.Depth
import FlowScript.Proofs.ReadingBack
import FlowScript.Proofs.Regrouping
import FlowScript.Proofs.Undoing
import FlowScript.Proofs.Walk
import FlowScript.Proofs.Counted
import FlowScript.Proofs.Senders
