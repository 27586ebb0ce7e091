import QueueMachine.Sink

set_option autoImplicit false

/-!
Sinks over their lifetime. Writing adds text and nothing else, closing adds none. For a sink that was
only ever written to and closed, all its counters follow from whether it is closed: a buffer counts
one closing, a stream one flush, and one closing if the sink owns it.
-/

namespace QueueMachine

namespace StreamSink

theorem close_of_closed
    {sink : StreamSink}
    (closed : sink.closed = true) :
    sink.close = sink := by
  rw [close, if_pos closed]

/-- Closing for the first time flushes an open stream, and closes it if it is the sink's own. -/
theorem exists_close_eq
    {sink : StreamSink}
    (unclosed : sink.closed = false) :
    ∃ stream, sink.close = { sink with closed := true, stream } ∧
      stream.text = sink.stream.text ∧
      (sink.stream.closed = true → stream = sink.stream) ∧
      (sink.stream.closed = false →
        stream.flushes = sink.stream.flushes + 1 ∧
          stream.closed = sink.ownsStream ∧
          stream.closes = sink.stream.closes + sink.ownsStream.toNat) := by
  obtain ⟨⟨text, closed, flushes, closes⟩, ownsStream, marked⟩ := sink
  cases unclosed
  cases closed with
  | true => exact ⟨_, rfl, rfl, fun _ => rfl, nofun⟩
  | false =>
      cases ownsStream with
      | true => exact ⟨_, rfl, rfl, nofun, fun _ => ⟨rfl, rfl, rfl⟩⟩
      | false => exact ⟨_, rfl, rfl, nofun, fun _ => ⟨rfl, rfl, rfl⟩⟩

/-- Only a stream that was closed before its sink keeps the sink from being closed well. -/
theorem closingFault?_eq
    (sink : StreamSink) :
    sink.closingFault? = if !sink.closed && sink.stream.closed then some .closedStream else none := by
  obtain ⟨⟨text, closed, flushes, closes⟩, ownsStream, marked⟩ := sink
  cases marked <;> cases closed <;> rfl

end StreamSink

namespace Sink

def isOpen : Sink → Bool
  | .buffer _ => true
  | .stream target => !target.stream.closed

def accept : Sink → String → Sink
  | .buffer target, text => .buffer (target.write text)
  | .stream target, text =>
      .stream { target with stream := { target.stream with text := target.stream.text ++ text } }

def flushes : Sink → Nat
  | .buffer _ => 0
  | .stream target => target.stream.flushes

def ownsStream? : Sink → Option Bool
  | .buffer _ => none
  | .stream target => some target.ownsStream

theorem write_of_isOpen
    {sink : Sink}
    (isOpen : sink.isOpen = true)
    (text : String) :
    sink.write text = .ok (sink.accept text) := by
  cases sink with
  | buffer target => rfl
  | stream target =>
      obtain ⟨⟨written, closed, flushes, closes⟩, ownsStream, marked⟩ := target
      cases closed with
      | true => simp [Sink.isOpen] at isOpen
      | false => rfl

theorem write_of_not_isOpen
    {sink : Sink}
    (shut : sink.isOpen = false)
    (text : String) :
    sink.write text = .error .closedStream := by
  cases sink with
  | buffer target => cases shut
  | stream target =>
      obtain ⟨⟨written, closed, flushes, closes⟩, ownsStream, marked⟩ := target
      cases closed with
      | true => rfl
      | false => cases shut

theorem eq_accept_of_write_eq_ok
    {sink next : Sink} {text : String}
    (taken : sink.write text = .ok next) :
    next = sink.accept text := by
  cases status : sink.isOpen with
  | true =>
      rw [write_of_isOpen status] at taken
      exact (Except.ok.inj taken).symm
  | false =>
      rw [write_of_not_isOpen status] at taken
      cases taken

@[simp]
theorem isOpen_accept (sink : Sink) (text : String) : (sink.accept text).isOpen = sink.isOpen := by
  cases sink <;> rfl

@[simp]
theorem accept_empty (sink : Sink) : sink.accept "" = sink := by
  cases sink <;> simp [accept, Buffer.write]

@[simp]
theorem accept_accept (sink : Sink) (first second : String) :
    (sink.accept first).accept second = sink.accept (first ++ second) := by
  cases sink <;> simp [accept, Buffer.write, String.append_assoc]

@[simp]
theorem closed_accept (sink : Sink) (text : String) :
    (sink.accept text).closed = sink.closed := by
  cases sink <;> rfl

@[simp]
theorem flushes_accept (sink : Sink) (text : String) :
    (sink.accept text).flushes = sink.flushes := by
  cases sink <;> rfl

@[simp]
theorem ownsStream?_accept (sink : Sink) (text : String) :
    (sink.accept text).ownsStream? = sink.ownsStream? := by
  cases sink <;> rfl

@[simp]
theorem written_accept (sink : Sink) (text : String) :
    (sink.accept text).written = sink.written ++ text := by
  cases sink <;> rfl

theorem close_of_closed
    {sink : Sink}
    (closed : sink.closed = true) :
    sink.close = sink := by
  cases sink with
  | buffer target => exact congrArg Sink.buffer (if_pos closed)
  | stream target => exact congrArg Sink.stream (StreamSink.close_of_closed closed)

@[simp]
theorem closed_close (sink : Sink) : sink.close.closed = true := by
  cases status : sink.closed with
  | true => rw [close_of_closed status, status]
  | false =>
      cases sink with
      | buffer target => exact congrArg Buffer.closed (if_neg (Bool.not_eq_true _ ▸ status))
      | stream target =>
          obtain ⟨stream, closed, -⟩ := StreamSink.exists_close_eq status
          exact congrArg StreamSink.closed closed

@[simp]
theorem value?_close (sink : Sink) : sink.close.value? = sink.value? := by
  cases sink with
  | buffer target =>
      change some target.close.text = some target.text
      unfold Buffer.close
      split <;> rfl
  | stream target => rfl

@[simp]
theorem written_close (sink : Sink) : sink.close.written = sink.written := by
  cases sink with
  | buffer target =>
      change target.close.text = target.text
      unfold Buffer.close
      split <;> rfl
  | stream target =>
      cases status : target.closed with
      | true => exact congrArg (·.stream.text) (StreamSink.close_of_closed status)
      | false =>
          obtain ⟨stream, closed, text, -⟩ := StreamSink.exists_close_eq status
          exact (congrArg (·.stream.text) closed).trans text

@[simp]
theorem ownsStream?_close (sink : Sink) : sink.close.ownsStream? = sink.ownsStream? := by
  cases status : sink.closed with
  | true => rw [close_of_closed status]
  | false =>
      cases sink with
      | buffer target => rfl
      | stream target =>
          obtain ⟨stream, closed, -⟩ := StreamSink.exists_close_eq status
          exact congrArg (fun closed => some closed.ownsStream) closed

theorem isOpen_close_of_not_isOpen
    {sink : Sink}
    (shut : sink.isOpen = false) :
    sink.close.isOpen = false := by
  cases status : sink.closed with
  | true => rwa [close_of_closed status]
  | false =>
      cases sink with
      | buffer target => cases shut
      | stream target =>
          have isClosed : target.stream.closed = true := by simpa [isOpen] using shut
          obtain ⟨stream, closed, -, unchanged, -⟩ := StreamSink.exists_close_eq status
          change (!target.close.stream.closed) = false
          rw [closed, unchanged isClosed, isClosed]
          rfl

/-- Whether a sink was made new, a stream sink over an open stream, and has since been written to
and closed by nothing but its own operations. -/
inductive Regular : Sink → Prop where
  | buffer : Regular (.buffer {})
  | stream (text : String) (ownsStream : Bool) :
      Regular (.stream { stream := { text }, ownsStream })
  | write {sink next : Sink} {text : String} :
      Regular sink → sink.write text = .ok next → Regular next
  | close {sink : Sink} : Regular sink → Regular sink.close

/-- Whether all counts of a sink are what its being closed or not calls for. -/
def Tallies : Sink → Prop
  | .buffer target => target.closeCount = target.closed.toNat
  | .stream target =>
      target.stream.flushes = target.closed.toNat ∧
        target.stream.closed = (target.closed && target.ownsStream) ∧
        target.stream.closes = (target.closed && target.ownsStream).toNat

theorem Tallies.accept
    {sink : Sink}
    (tallies : sink.Tallies)
    (text : String) :
    (sink.accept text).Tallies := by
  cases sink <;> exact tallies

theorem Tallies.close
    {sink : Sink}
    (tallies : sink.Tallies) :
    sink.close.Tallies := by
  cases status : sink.closed with
  | true => rwa [close_of_closed status]
  | false =>
      cases sink with
      | buffer target =>
          obtain ⟨text, closed, closeCount⟩ := target
          cases status
          exact congrArg (· + 1) tallies
      | stream target =>
          obtain ⟨stream, closed, -, -, counted⟩ := StreamSink.exists_close_eq status
          obtain ⟨flushed, isOpen, unclosed⟩ := tallies
          have marked : target.closed = false := status
          rw [marked] at flushed isOpen unclosed
          obtain ⟨flushes, isClosed, closes⟩ := counted isOpen
          change StreamSink.close target = _ at closed
          rw [Sink.close, closed]
          refine ⟨?_, ?_, ?_⟩
          · rw [flushes, flushed]
            rfl
          · rw [isClosed]
            rfl
          · rw [closes, unclosed, Bool.true_and, Bool.false_and]
            exact Nat.zero_add _

theorem Regular.tallies
    {sink : Sink}
    (regular : sink.Regular) :
    sink.Tallies := by
  induction regular with
  | buffer => rfl
  | stream text ownsStream => exact ⟨rfl, rfl, rfl⟩
  | write _ taken inductionHypothesis =>
      rw [eq_accept_of_write_eq_ok taken]
      exact inductionHypothesis.accept _
  | close _ inductionHypothesis => exact inductionHypothesis.close

theorem Tallies.closed_of_not_isOpen
    {sink : Sink}
    (tallies : sink.Tallies)
    (shut : sink.isOpen = false) :
    sink.closed = true := by
  cases sink with
  | buffer target => cases shut
  | stream target =>
      obtain ⟨-, closed, -⟩ := tallies
      rw [isOpen, closed, Bool.not_eq_false', Bool.and_eq_true] at shut
      exact shut.1

theorem isOpen_of_ownsStream?_eq_none
    {sink : Sink}
    (buffered : sink.ownsStream? = none) :
    sink.isOpen = true := by
  cases sink with
  | buffer target => rfl
  | stream target => cases buffered

theorem closingFault?_of_isOpen
    {sink : Sink}
    (isOpen : sink.isOpen = true) :
    sink.closingFault? = none := by
  cases sink with
  | buffer target => rfl
  | stream target =>
      have unclosed : target.stream.closed = false := by simpa [Sink.isOpen] using isOpen
      rw [closingFault?, StreamSink.closingFault?_eq, unclosed, Bool.and_false]
      rfl

theorem closingFault?_of_closed
    {sink : Sink}
    (closed : sink.closed = true) :
    sink.closingFault? = none := by
  cases sink with
  | buffer target => rfl
  | stream target =>
      have marked : target.closed = true := closed
      rw [closingFault?, StreamSink.closingFault?_eq, marked]
      rfl

theorem closingFault?_cases (sink : Sink) :
    sink.closingFault? = none ∨
      sink.isOpen = false ∧ sink.closingFault? = some .closedStream := by
  cases status : sink.isOpen with
  | true => exact .inl (closingFault?_of_isOpen status)
  | false =>
      cases marked : sink.closed with
      | true => exact .inl (closingFault?_of_closed marked)
      | false =>
          cases sink with
          | buffer target => cases status
          | stream target =>
              have unmarked : target.closed = false := marked
              have shut : target.stream.closed = true := by simpa [isOpen] using status
              refine .inr ⟨rfl, ?_⟩
              rw [closingFault?, StreamSink.closingFault?_eq, unmarked, shut]
              rfl

theorem Tallies.closingFault?_eq_none
    {sink : Sink}
    (tallies : sink.Tallies) :
    sink.closingFault? = none := by
  cases status : sink.isOpen with
  | true => exact closingFault?_of_isOpen status
  | false => exact closingFault?_of_closed (tallies.closed_of_not_isOpen status)

theorem Regular.close_buffer
    {buffer : Buffer}
    (regular : (Sink.buffer buffer).Regular) :
    (Sink.buffer buffer).close = .buffer ⟨buffer.text, true, 1⟩ := by
  obtain ⟨text, closed, closeCount⟩ := buffer
  have counted : closeCount = closed.toNat := regular.tallies
  subst counted
  cases closed <;> rfl

/-- Whether neither writing nor closing takes a property from a sink. -/
structure Kept (property : Sink → Prop) : Prop where
  accept : ∀ {sink : Sink} (text : String), property sink → property (sink.accept text)
  close : ∀ {sink : Sink}, property sink → property sink.close

theorem kept_ownsStream? (owns : Option Bool) : Kept (·.ownsStream? = owns) where
  accept {sink} text before := (sink.ownsStream?_accept text).trans before
  close {sink} before := sink.ownsStream?_close.trans before

theorem kept_tallies : Kept Tallies where
  accept text tallies := tallies.accept text
  close tallies := tallies.close

theorem kept_closed : Kept (·.closed = true) where
  accept {sink} text closed := (sink.closed_accept text).trans closed
  close {sink} _ := sink.closed_close

theorem kept_not_isOpen : Kept (·.isOpen = false) where
  accept {sink} text shut := (sink.isOpen_accept text).trans shut
  close shut := isOpen_close_of_not_isOpen shut

end Sink

end QueueMachine
