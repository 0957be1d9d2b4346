import RosserialServer.Transport.AsyncWriteBuffer

/-!
# Writing to a port that is reopened (`session/serial_session.hpp`)

`asyc_writter_` is made once and refers to `serial_`. `reload_hardware` closes `serial_` and
opens it again, but does not tell the writer: its queue stays as it is, and the write in
flight is aborted, with a completion that arrives later.

`ReopenWorld` is the writer with its surroundings as in `WriteWorld`, and the port. A
`Ticket` is a frame together with what becomes of it.
-/

namespace RosserialServer

/-- A frame handed to `write_to_serial`. -/
structure Ticket where
  frame : List UInt8
  /-- How many reopenings had succeeded when the call was made. -/
  handed : Nat
  /--
  The frame has been the buffer of an `async_write` on an open port, when so many
  reopenings had succeeded.
  -/
  writtenOn : Option Nat
  deriving DecidableEq, Repr

/-- An `async_write` whose handler has not run, and the port it was started on. -/
structure PortWrite where
  op : WriteOp
  /-- How many reopenings had succeeded when it was started. -/
  reopened : Nat
  /-- The port was open then. -/
  onOpen : Bool
  /-- The port has been closed since. -/
  aborted : Bool
  deriving DecidableEq, Repr

structure ReopenWorld where
  writer : AsyncWriteBuffer
  /-- Callers that have run `packaging_msg` and not yet taken the lock. -/
  packaged : List Ticket
  /-- The frames of `send_bufs_`. -/
  queued : List Ticket
  /-- The frames that have left `send_bufs_`. -/
  left : List Ticket
  inFlight : List PortWrite
  isOpen : Bool
  /-- How many reopenings have succeeded. -/
  reopened : Nat
  /-- For each `async_write` that has failed, how many had when it was started. -/
  failures : List Nat
  deriving DecidableEq, Repr

inductive ReopenEvent where
  | write (e : WriteEvent)
  /-- `reload_hardware`, which leaves the port open or not. -/
  | reload (opens : Bool)
  deriving DecidableEq, Repr

namespace ReopenWorld

def init (isOpen : Bool) : ReopenWorld :=
  { writer := ⟨[]⟩, packaged := [], queued := [], left := [], inFlight := [], isOpen := isOpen
    reopened := 0, failures := [] }

/-- The front of the queue has become the buffer of an `async_write`. -/
def startFront (writtenOn : Option Nat) : List Ticket → List Ticket
  | [] => []
  | t :: ts => { t with writtenOn := writtenOn } :: ts

/-- Put the write a locked section started, if any, in flight. -/
def launch (w : ReopenWorld) (started : Option (List UInt8)) : ReopenWorld :=
  match started with
  | none => w
  | some buffer =>
      { w with
        queued := startFront (if w.isOpen then some w.reopened else none) w.queued
        inFlight := w.inFlight ++
          [{ op := ⟨buffer, 0⟩, reopened := w.reopened, onOpen := w.isOpen, aborted := false }] }

def writeStep (w : ReopenWorld) : WriteEvent → Option ReopenWorld
  | .call serialMsg topicId =>
      match packagingMsg serialMsg topicId with
      | .error _ => none
      | .ok writeBuf =>
          some { w with packaged := w.packaged ++
            [{ frame := writeBuf.getVector, handed := w.reopened, writtenOn := none }] }
  | .lock i =>
      match w.packaged[i]? with
      | none => none
      | some t =>
          let (writer, started) := w.writer.enqueue t.frame
          some ({ w with
            writer := writer
            packaged := w.packaged.eraseIdx i
            queued := w.queued ++ [t] }.launch started)
  | .transfer i n =>
      match w.inFlight[i]? with
      | none => none
      | some x =>
          if x.onOpen ∧ !x.aborted ∧ 0 < n ∧ x.op.sent + n ≤ x.op.buffer.length then
            some { w with
              inFlight := w.inFlight.set i { x with op := { x.op with sent := x.op.sent + n } } }
          else none
  | .complete i =>
      match w.inFlight[i]? with
      | none => none
      | some x =>
          -- also after the port was closed, if all had been written before
          if x.onOpen ∧ x.op.sent = x.op.buffer.length then
            let (writer, started) := w.writer.writeEcCallback false
            some ({ w with
              writer := writer
              queued := w.queued.tail
              left := w.left ++ w.queued.take 1
              inFlight := w.inFlight.eraseIdx i }.launch started)
          else none
  | .fail i =>
      match w.inFlight[i]? with
      | none => none
      | some x =>
          let (writer, started) := w.writer.writeEcCallback true
          some ({ w with
            writer := writer
            queued := []
            left := w.left ++ w.queued
            inFlight := w.inFlight.eraseIdx i
            failures := w.failures ++ [x.reopened] }.launch started)

/-- `reload_hardware`: `close` aborts what is in flight. -/
def reload (w : ReopenWorld) (opens : Bool) : ReopenWorld :=
  { w with
    inFlight := w.inFlight.map fun x => { x with aborted := true }
    isOpen := opens
    reopened := if opens then w.reopened + 1 else w.reopened }

def step (w : ReopenWorld) : ReopenEvent → Option ReopenWorld
  | .write e => w.writeStep e
  | .reload opens => some (w.reload opens)

end ReopenWorld

end RosserialServer
