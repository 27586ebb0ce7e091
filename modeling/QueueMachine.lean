import QueueMachine.Main
import QueueMachine.Proofs.CommandLine.Replay
import QueueMachine.Proofs.Compiler
import QueueMachine.Proofs.Concatenation
import QueueMachine.Proofs.Machine.Labels
import QueueMachine.Proofs.Machine.Listed
import QueueMachine.Proofs.Spelling
import QueueMachine.Proofs.Provenance
import QueueMachine.Proofs.Machine.Run
import QueueMachine.Proofs.Machine.Bounded
import QueueMachine.Proofs.Machine.Trace
import QueueMachine.Proofs.Machine.Calls
import QueueMachine.Proofs.Machine.Reset
import QueueMachine.Proofs.Machine.Streamed
import QueueMachine.Proofs.Machine.Underway
import QueueMachine.Proofs.Viewer.Terminal
import QueueMachine.Proofs.Viewer.Window
import QueueMachine.Proofs.Machine.History
import QueueMachine.Proofs.Machine.Renaming
import QueueMachine.Proofs.Machine.Output
import QueueMachine.Proofs.Execution
import QueueMachine.Proofs.Numeral.Canonical
import QueueMachine.Proofs.Machine.Fault
import QueueMachine.Proofs.Span
import QueueMachine.Proofs.Machine.Forward
import QueueMachine.Proofs.Machine.Growth
import QueueMachine.Proofs.Complaint
import QueueMachine.Proofs.CommandLine.Outcome
import QueueMachine.Proofs.Machine.Reachable
import QueueMachine.Proofs.Viewer.Excerpt
import QueueMachine.Proofs.Viewer.Screen
import QueueMachine.Proofs.Viewer.Section
import QueueMachine.Proofs.Viewer.Registers
import QueueMachine.Proofs.Machine.Operators
import QueueMachine.Proofs.Machine.Storage
