import QueueMachine.Fault

set_option autoImplicit false

/-!
Where a program's output goes: into a buffer that can be read back, or through to a text stream. A
sink is closed at most once. Closing a stream sink flushes the stream, and closes it only if the
sink owns it; a closed stream takes no more text and cannot be flushed, while a closed buffer still
takes text.
-/

namespace QueueMachine

structure Buffer where
  text : String := ""
  closed : Bool := false
  closeCount : Nat := 0
  deriving DecidableEq, Repr

namespace Buffer

def write (buffer : Buffer) (text : String) : Buffer :=
  { buffer with text := buffer.text ++ text }

def close (buffer : Buffer) : Buffer :=
  if buffer.closed then buffer
  else { buffer with closed := true, closeCount := buffer.closeCount + 1 }

end Buffer

/-- A text stream, with a record of how often it was flushed and closed. -/
structure Stream where
  text : String := ""
  closed : Bool := false
  flushes : Nat := 0
  closes : Nat := 0
  deriving DecidableEq, Repr

namespace Stream

def write (stream : Stream) (text : String) : Except Fault Stream :=
  if stream.closed then .error .closedStream
  else .ok { stream with text := stream.text ++ text }

def flush (stream : Stream) : Except Fault Stream :=
  if stream.closed then .error .closedStream
  else .ok { stream with flushes := stream.flushes + 1 }

def close (stream : Stream) : Stream :=
  if stream.closed then stream
  else { stream with closed := true, closes := stream.closes + 1 }

end Stream

structure StreamSink where
  stream : Stream := {}
  ownsStream : Bool
  closed : Bool := false
  deriving DecidableEq, Repr

namespace StreamSink

def write (sink : StreamSink) (text : String) : Except Fault StreamSink := do
  let stream ← sink.stream.write text
  return { sink with stream }

/-- The sink counts as closed even if its stream cannot be flushed, which is then left alone. -/
def close (sink : StreamSink) : StreamSink :=
  if sink.closed then sink
  else
    match sink.stream.flush with
    | .error _ => { sink with closed := true }
    | .ok flushed =>
        { sink with
          closed := true
          stream := if sink.ownsStream then flushed.close else flushed }

def closingFault? (sink : StreamSink) : Option Fault :=
  if sink.closed then none
  else
    match sink.stream.flush with
    | .error fault => some fault
    | .ok _ => none

end StreamSink

inductive Sink where
  | buffer (buffer : Buffer)
  | stream (sink : StreamSink)
  deriving DecidableEq, Repr

namespace Sink

def write : Sink → String → Except Fault Sink
  | .buffer target, text => .ok (.buffer (target.write text))
  | .stream target, text => do return .stream (← target.write text)

def close : Sink → Sink
  | .buffer target => .buffer target.close
  | .stream target => .stream target.close

def closingFault? : Sink → Option Fault
  | .buffer _ => none
  | .stream target => target.closingFault?

/-- What was written, where it can be read back. -/
def value? : Sink → Option String
  | .buffer target => some target.text
  | .stream _ => none

def written : Sink → String
  | .buffer target => target.text
  | .stream target => target.stream.text

def closed : Sink → Bool
  | .buffer target => target.closed
  | .stream target => target.closed

end Sink

end QueueMachine
