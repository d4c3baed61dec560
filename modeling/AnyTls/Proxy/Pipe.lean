import AnyTls.Core.Frame
import AnyTls.Core.Io

/-! The pipe of `proxy/pipe/io_pipe.rs`: an unbounded channel of events, a side
buffer for the rest of a partly read event, and the lock sections of a reader,
the writer and the two ways to end the stream. A read in progress is a program
counter over its lock sections; anything may happen between two of them. -/
namespace AnyTls

inductive PipeEvent where
  | data (bytes : Bytes)
  | streamEnd (error : Option IoError)
deriving DecidableEq, Repr

/-- Where the receiving half of the event channel is: in the pipe, taken out by
a read in progress, or dropped with the future of such a read. -/
inductive Receiver where
  | inPipe | taken | dropped
deriving DecidableEq, Repr

structure PipeInner where
  closed : Bool
  streamEndQueued : Bool
  readError : Option IoError
  /-- `data_sender.is_some()` -/
  dataSender : Bool
  dataReceiver : Receiver
  /-- events sent and not yet received -/
  channel : List PipeEvent
  buffer : Bytes
deriving DecidableEq, Repr

/-- `pipe()`. -/
def PipeInner.new : PipeInner := ⟨false, false, none, true, .inPipe, [], []⟩

namespace PipeInner

/-- `UnboundedSender::send`, which fails exactly when the receiver is gone. -/
def send (inner : PipeInner) (event : PipeEvent) : Option PipeInner :=
  if inner.dataReceiver = .dropped then none
  else some { inner with channel := inner.channel ++ [event] }

/-- `PipeWriter::write`, one lock section. -/
def write (inner : PipeInner) (buf : Bytes) : Except IoError Nat × PipeInner :=
  if inner.closed || inner.streamEndQueued then (.error ⟨.brokenPipe, "Pipe closed"⟩, inner)
  else if inner.dataSender then
    match inner.send (.data buf) with
    | none => (.error ⟨.brokenPipe, "Channel closed: channel closed"⟩, inner)
    | some inner => (.ok buf.length, inner)
  else (.error ⟨.brokenPipe, "Pipe closed"⟩, inner)

/-- The task spawned by `PipeReader::close_with_error`. -/
def closeWithError (inner : PipeInner) (error : Option IoError) : PipeInner :=
  { inner with readError := error, closed := true, dataSender := false }

/-- `PipeReader::finish_stream`, one lock section. -/
def finishStream (inner : PipeInner) (error : Option IoError) : PipeInner :=
  if inner.closed || inner.streamEndQueued then inner
  else
    let inner := { inner with streamEndQueued := true }
    match (if inner.dataSender then inner.send (.streamEnd error) else none) with
    | some inner => inner
    | none => { inner with closed := true, dataSender := false }

end PipeInner

/-- The lock sections of `PipeReader::read`; `restore` carries what `recv`
returned and `waiting` parks on `read_waiter`. -/
inductive ReadPc where
  | start | waiting | take | recv
  | restore (received : Option PipeEvent)
deriving DecidableEq, Repr

/-- A read call: still running, or returned with the bytes put into the buffer. -/
inductive ReadState where
  | running (pc : ReadPc)
  | returned (result : Except IoError Bytes)
deriving DecidableEq

namespace PipeInner

def readFast (inner : PipeInner) (len : Nat) : PipeInner × ReadState :=
  if inner.buffer ≠ [] then
    ({ inner with buffer := inner.buffer.drop len }, .returned (.ok (inner.buffer.take len)))
  else if inner.closed && !inner.dataSender then
    match inner.readError with
    | some error => ({ inner with readError := none }, .returned (.error error))
    | none => (inner, .returned (.ok []))
  else if inner.dataReceiver = .inPipe then (inner, .running .take)
  else (inner, .running .waiting)

def takeReceiver (inner : PipeInner) : PipeInner × ReadState :=
  if inner.dataReceiver = .inPipe then ({ inner with dataReceiver := .taken }, .running .recv)
  else (inner, .returned (.error ⟨.brokenPipe, "Pipe reader already in use"⟩))

/-- `receiver.recv()`: the next event, or nothing once the sender is gone and
the channel is drained. It stays pending otherwise. -/
def recv (inner : PipeInner) : Option (PipeInner × ReadState) :=
  match inner.channel with
  | event :: rest => some ({ inner with channel := rest }, .running (.restore (some event)))
  | [] => if inner.dataSender then none else some (inner, .running (.restore none))

def restore (inner : PipeInner) (len : Nat) (received : Option PipeEvent) : PipeInner × ReadState :=
  let inner := { inner with dataReceiver := .inPipe }
  match received with
  | some (.data data) =>
    ({ inner with buffer := inner.buffer ++ data.drop len }, .returned (.ok (data.take len)))
  | some (.streamEnd error) =>
    let inner := { inner with closed := true, dataSender := false }
    match error with
    | some error => (inner, .returned (.error error))
    | none => (inner, .returned (.ok []))
  | none =>
    match inner.readError with
    | some error => ({ inner with readError := none }, .returned (.error error))
    | none =>
      if inner.dataSender then (inner, .returned (.error ⟨.timedOut, "read deadline reached"⟩))
      else (inner, .returned (.ok []))

/-- One step of a read whose buffer has room for `len` bytes. -/
def readStep (inner : PipeInner) (len : Nat) : ReadPc → Option (PipeInner × ReadState)
  | .start => some (inner.readFast len)
  | .waiting => some (inner, .running .start)
  | .take => some inner.takeReceiver
  | .recv => inner.recv
  | .restore received => some (inner.restore len received)

/-- The read deadline fires while the read waits. -/
def readDeadline (inner : PipeInner) : ReadPc → Option (PipeInner × ReadState)
  | .waiting => some (inner, .returned (.error ⟨.timedOut, "read deadline reached"⟩))
  | .recv => some (inner, .running (.restore none))
  | _ => none

/-- Dropping the future of a read: a receiver it had taken out is dropped with it. -/
def dropRead (inner : PipeInner) : ReadPc → PipeInner
  | .recv | .restore _ => { inner with dataReceiver := .dropped }
  | _ => inner

end PipeInner
end AnyTls
