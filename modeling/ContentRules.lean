import ContentRules.Value.Json
import ContentRules.NodeStore.Outline
import ContentRules.Engine.Workbench
import ContentRules.Engine.Report
import ContentRules.Engine.Inspect
import ContentRules.Trial
import ContentRules.Proofs.NodeStore.Places
import ContentRules.Proofs.NodeStore.Steps
import ContentRules.Proofs.NodeStore.Forest
import ContentRules.Proofs.NodeStore.Additions
import ContentRules.Proofs.NodeStore.Furnishing
import ContentRules.Proofs.NodeStore.Recorded
import ContentRules.Proofs.NodeStore.Removal
import ContentRules.Proofs.NodeStore.Logs
import ContentRules.Proofs.NodeStore.Copying
import ContentRules.Proofs.NodeStore.Atomic
import ContentRules.Proofs.NodeStore.Peers
import ContentRules.Proofs.NodeStore.Replay
import ContentRules.Proofs.NodeStore.Types
import ContentRules.Proofs.NodeStore.Assignments
import ContentRules.Proofs.NodeStore.Checks
import ContentRules.Proofs.NodeStore.Stores
import ContentRules.Proofs.NodeStore.Deletions
import ContentRules.Proofs.NodeStore.Levels
import ContentRules.Proofs.NodeStore.Moves
import ContentRules.Proofs.NodeStore.Preorder
import ContentRules.Proofs.NodeStore.CopyPlans
import ContentRules.Proofs.NodeStore.DeepCopies
import ContentRules.Proofs.NodeStore.Failures
import ContentRules.Proofs.Rule.Copies
import ContentRules.Proofs.Rule.Lookup
import ContentRules.Proofs.Rule.Tables
import ContentRules.Proofs.Rule.Inheritance
import ContentRules.Proofs.Rule.Queues
import ContentRules.Proofs.Rule.Parameters
import ContentRules.Proofs.Engine.Runs
import ContentRules.Proofs.Engine.Acts
import ContentRules.Proofs.Engine.Keeps
import ContentRules.Proofs.Engine.Undo
import ContentRules.Proofs.Engine.Commit
import ContentRules.Proofs.Engine.Budget
import ContentRules.Proofs.Engine.Rounds
import ContentRules.Proofs.Engine.Scripts
import ContentRules.Proofs.Engine.Growth
import ContentRules.Proofs.Engine.Interleaving
import ContentRules.Proofs.Engine.Actionable
import ContentRules.Proofs.Engine.Observed
import ContentRules.Proofs.Engine.Accounts
import ContentRules.Proofs.Engine.ObservedEngine
import ContentRules.Proofs.Engine.Deliveries
import ContentRules.Proofs.Engine.ObservedKeeps
import ContentRules.Proofs.Engine.Tellings
import ContentRules.Proofs.Engine.Sources
import ContentRules.Proofs.Engine.Removals
import ContentRules.Proofs.Engine.WorkList
import ContentRules.Proofs.Engine.Requeues
import ContentRules.Proofs.Engine.SelfTriggers
import ContentRules.Proofs.Engine.Failures
import ContentRules.Proofs.Engine.Waiting
import ContentRules.Proofs.Engine.Switches
import ContentRules.Proofs.Engine.Successes
import ContentRules.Proofs.Engine.Newness
import ContentRules.Proofs.Engine.ConfigurationFolders
import ContentRules.Proofs.Builtin.Triggers
import ContentRules.Proofs.Builtin.RuleCopies
import ContentRules.Proofs.Builtin.Handlers
import ContentRules.Proofs.Builtin.Flushes
import ContentRules.Proofs.Builtin.Content
import ContentRules.Proofs.Builtin.LiveCopies
import ContentRules.Proofs.Builtin.Failures
import ContentRules.Proofs.Builtin.SelfTriggers
import ContentRules.Proofs.Builtin.Parameters
import ContentRules.Proofs.Reference.TextForms
import ContentRules.Proofs.Json.RoundTrip
import ContentRules.Proofs.Value.RoundTrip
