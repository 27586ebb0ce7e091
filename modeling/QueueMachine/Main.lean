import QueueMachine.CommandLine.Session

set_option autoImplicit false

/-!
The command line on a real system. The files that the options name are looked up before the
session, and those that the session has changed are written after it. There is no terminal or
window for a viewer here.
-/

namespace QueueMachine.CommandLine

def systemPatience : Nat := 1000000000000000000

def noteEntry (directory : Directory) (place : Place) (path : String) : IO Directory := do
  try
    if ← (← IO.FS.realPath path).isDir then return directory.put place .folder
    else return directory.put place (.file (← IO.FS.readBinFile path))
  catch _ => return directory

def notePath (directory : Directory) (path : String) : IO Directory := do
  let mut directory := directory
  let mut place := Place.start path
  let mut passed : List String := []
  for component in Path.components path do
    passed := passed ++ [component]
    place := place.next component
    directory ← noteEntry directory place ("/".intercalate passed)
  return directory

/-- Writes the file at a path if the session has changed it. -/
def writeBack (before after : Directory) (path : String) : IO Unit := do
  if let .ok place := before.openForWriting path then
    if let some (.file contents) := after.entry? place then
      if before.entry? place ≠ some (.file contents) then
        IO.FS.writeBinFile path contents

def runOnSystem (arguments : List String) : IO UInt32 := do
  let read := (Options.ofArguments .later arguments).toOption
  let options := read.getD {}
  let directory ← options.paths.foldlM notePath .empty
  let bytes ←
    if read.isSome && options.readsInput then (← IO.getStdin).readBinToEnd else pure .empty
  let environment : Environment :=
    { directory
      input := Text.decodeUtf8 bytes
      terminal := .error "no terminal to draw on"
      window := .error "no window system"
      patience := systemPatience }
  match run? environment arguments with
  | none =>
      IO.eprintln "quack execution failed: the program does not end"
      return 1
  | some outcome =>
      IO.print outcome.output
      IO.eprint outcome.errors
      outcome.breakdown.forM fun message => IO.eprintln message
      options.paths.forM (writeBack directory outcome.directory)
      return outcome.code.toUInt32

end QueueMachine.CommandLine

def main (arguments : List String) : IO UInt32 :=
  QueueMachine.CommandLine.runOnSystem arguments
