import AnyTls.Proxy.Pipe

/-! Logical streams of `proxy/session/stream.rs`, over the session's frame channel. -/
namespace AnyTls

/-- A queued frame and whether its sender waits for the writer's acknowledgement. -/
structure FrameWrite where
  frame : Frame
  ack : Bool
deriving DecidableEq, Repr

/-- The session's frame channel: what the writer task has not taken yet, and
whether that task is gone. -/
structure FrameTx where
  queue : List FrameWrite
  isClosed : Bool
deriving DecidableEq, Repr

namespace FrameTx

def send (tx : FrameTx) (write : FrameWrite) : Option FrameTx :=
  if tx.isClosed then none else some { tx with queue := tx.queue ++ [write] }

/-- The bound of the channel. -/
def capacity : Nat := 100

/-- `send().await`: pending while the channel is full. -/
def trySend (tx : FrameTx) (write : FrameWrite) : Option (Option FrameTx) :=
  if tx.isClosed || tx.queue.length < capacity then some (tx.send write) else none

end FrameTx

structure Stream where
  id : UInt32
  pipe : PipeInner
  closed : Bool
deriving DecidableEq, Repr

def sessionClosed : IoError := ⟨.brokenPipe, "Session closed"⟩
def streamClosed : IoError := ⟨.brokenPipe, "Stream closed"⟩

namespace Stream

def new (id : UInt32) : Stream := ⟨id, PipeInner.new, false⟩

/-- The frame a write hands to the channel, after its check of the closed flag. -/
def writeFrame (stream : Stream) (buf : Bytes) : Except IoError Frame :=
  if stream.closed then .error streamClosed else .ok (Frame.withData .psh stream.id buf)

/-- `Stream::write`, without interruption between its check and its send. -/
def write (stream : Stream) (tx : FrameTx) (buf : Bytes) : Except IoError Nat × FrameTx :=
  match stream.writeFrame buf with
  | .error error => (.error error, tx)
  | .ok frame =>
    match tx.send ⟨frame, false⟩ with
    | none => (.error sessionClosed, tx)
    | some tx => (.ok buf.length, tx)

end Stream
end AnyTls
