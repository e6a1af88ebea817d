import DryRun.Main
import DryRun.Chain.View
import DryRun.Script.Builder
import DryRun.Proofs.Node.Answers
import DryRun.Proofs.Run.Destruction
import DryRun.Proofs.Run.GasLimit
import DryRun.Proofs.Run.Height
import DryRun.Proofs.Run.Isolation
import DryRun.Proofs.Run.Limits
import DryRun.Proofs.Run.Nesting
import DryRun.Proofs.Run.Order
import DryRun.Proofs.Run.Packing
import DryRun.Proofs.Run.Rights
import DryRun.Proofs.Run.Termination
import DryRun.Proofs.Syscall.Charge
import DryRun.Proofs.World.Snapshot
import DryRun.Proofs.Chain.Block
import DryRun.Proofs.Run.Records
import DryRun.Proofs.Machine.Commutes
import DryRun.Proofs.Run.Independence
import DryRun.Proofs.Script.Builder
import DryRun.Proofs.Chain.Strict
import DryRun.Proofs.Run.Dynamic
import DryRun.Proofs.Run.Imports
import DryRun.Proofs.Syscall.Failure
import DryRun.Proofs.Run.Structs
import DryRun.Proofs.Run.Migration
import DryRun.Proofs.Script.Repeat
import DryRun.Proofs.Heap.Walk
import DryRun.Proofs.Syscall.Objects
import DryRun.Proofs.Run.Iterators
import DryRun.Proofs.Run.Renewals
import DryRun.Proofs.Machine.Arithmetic
import DryRun.Proofs.Machine.Rearrangement
import DryRun.Proofs.Machine.Maps
import DryRun.Proofs.Script.Standard
import DryRun.Proofs.Syscall.Registration
import DryRun.Proofs.Run.Amounts
import DryRun.Proofs.Run.Witnesses
import DryRun.Proofs.Run.Creators
import DryRun.Proofs.Wire.VarUint
