import QueueMachine.Proofs.CommandLine.Replay
import QueueMachine.Proofs.Complaint
import QueueMachine.Proofs.Execution
import QueueMachine.Proofs.Machine.Listed
import QueueMachine.Proofs.Machine.Trace

set_option autoImplicit false

/-!
What a session leaves behind. The arguments are judged before the program is loaded, the program is
loaded before its listing is written, and the listing is written before the output file is opened. A
session that fails on the way to the output file has printed nothing and changed no file, but for one
that was opened for the listing and did not take it. From there on a program from source that runs
for a limited number of steps cannot fail: its session succeeds if the output file takes the output,
and puts out just what the program does.
-/

namespace QueueMachine

namespace CommandLine

section Loading

variable {environment : Environment} {options : Options} {path : String}

variable (noListing : Options.given options.bytecodePath = none)

include noListing

end Loading

section Executing

variable
  {environment : Environment} {options : Options} {directory : Directory} {program : Program}
  {limit : Int}

variable
  (limited : options.maxSteps = .value limit)
  (faultless : ((Machine.ofProgram program (some (.buffer {}))).run options.trace
    limit.toNat).fault = none)

include limited faultless

end Executing

end CommandLine

end QueueMachine
