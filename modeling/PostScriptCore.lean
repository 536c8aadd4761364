import PostScriptCore.Demo.CommandLine
import PostScriptCore.Hex
import PostScriptCore.HostOperator
import PostScriptCore.Main
import PostScriptCore.Memory.Save
import PostScriptCore.Transfer
import PostScriptCore.Proofs.Memory.Collection
import PostScriptCore.Proofs.Memory.History
import PostScriptCore.Proofs.Memory.Files
import PostScriptCore.Proofs.Machine.Dispatch
import PostScriptCore.Proofs.Builtin.Storage
import PostScriptCore.Proofs.Memory.Placement
import PostScriptCore.Proofs.Memory.FreeList
import PostScriptCore.Proofs.Memory.Recycling
import PostScriptCore.Proofs.Memory.Handles
import PostScriptCore.Proofs.Transfer.Objects
import PostScriptCore.Proofs.Transfer.Target
import PostScriptCore.Proofs.Transfer.Copying
import PostScriptCore.Proofs.Transfer.Isomorphism
import PostScriptCore.Proofs.Transfer.Faults
import PostScriptCore.Proofs.Context.Deadlock
import PostScriptCore.Proofs.Context.Registry
import PostScriptCore.Proofs.Builtin.Personal
import PostScriptCore.Proofs.Machine.Effect
import PostScriptCore.Proofs.Machine.Schedule
import PostScriptCore.Proofs.Builtin.Delivery
import PostScriptCore.Proofs.Transfer.Signals
import PostScriptCore.Proofs.Builtin.Forking
import PostScriptCore.Proofs.Machine.Permanence
import PostScriptCore.Proofs.Machine.Retirement
import PostScriptCore.Proofs.Machine.Rendezvous
import PostScriptCore.Proofs.Memory.SystemStorage
import PostScriptCore.Proofs.Operator.Signature
import PostScriptCore.Proofs.Operator.Storage
import PostScriptCore.Proofs.Operator.Registration
import PostScriptCore.Proofs.Operator.Registry
import PostScriptCore.Proofs.Operator.Matching
import PostScriptCore.Proofs.Machine.Invocation
import PostScriptCore.Proofs.Builtin.Failing
import PostScriptCore.Proofs.Machine.Failure
import PostScriptCore.Proofs.Memory.Upkeep
import PostScriptCore.Proofs.Memory.Pins
import PostScriptCore.Proofs.Memory.Pacing
import PostScriptCore.Proofs.Memory.Exhaustion
import PostScriptCore.Proofs.Memory.Failures
import PostScriptCore.Proofs.Context.Reachability
import PostScriptCore.Proofs.Machine.Reclaim
import PostScriptCore.Proofs.Machine.SavedReferences
import PostScriptCore.Proofs.Memory.Capacity
import PostScriptCore.Proofs.Memory.Invariants
import PostScriptCore.Proofs.Memory.Custody
import PostScriptCore.Proofs.Memory.Sheltered
import PostScriptCore.Proofs.Memory.Openings
import PostScriptCore.Proofs.Memory.Emptied
import PostScriptCore.Proofs.Transfer.Ownership
import PostScriptCore.Proofs.Builtin.Privacy
import PostScriptCore.Proofs.Machine.Execution
import PostScriptCore.Proofs.Machine.Isolation
import PostScriptCore.Proofs.Machine.Lifecycle
import PostScriptCore.Proofs.Stack.Refinement
import PostScriptCore.Proofs.Machine.StackEffect
import PostScriptCore.Proofs.Machine.Termination
import PostScriptCore.Proofs.Machine.Procedures
import PostScriptCore.Proofs.Machine.Upkeep
import PostScriptCore.Proofs.Demo.Sums
import PostScriptCore.Proofs.Memory.FreshStorage
import PostScriptCore.Proofs.Memory.Relocation
import PostScriptCore.Proofs.Memory.Stranding
import PostScriptCore.Proofs.Memory.Dictionary
import PostScriptCore.Proofs.Arena.Pages
import PostScriptCore.Proofs.Memory.Addressing
import PostScriptCore.Proofs.Memory.Exited
import PostScriptCore.Proofs.Names
import PostScriptCore.Proofs.Object.Codec
import PostScriptCore.MarkWord
import PostScriptCore.Proofs.MarkWord
import PostScriptCore.Proofs.Object.Views
import PostScriptCore.Proofs.Memory.Dating
import PostScriptCore.Proofs.Transfer.Receiving
import PostScriptCore.Proofs.Memory.MarkLimits
