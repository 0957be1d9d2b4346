import RosserialServer.Lib.Lts
import RosserialServer.Protocol.MessageSerialization

/-!
# `AsyncWriteBuffer` (`transport/async_transport.hpp`)

Framing, and the queue through which every frame reaches the port. The queue is
`send_bufs_`, guarded by a mutex; whether a write is in progress is not stored
anywhere, it is read off the queue being nonempty.

`WriteWorld` is the buffer with its surroundings: callers that have framed their
message and wait for the lock, the `async_write`s in flight, and the port.
-/

namespace RosserialServer

open Bytes

/-- `Ros_Stream(ptr, length)` over memory that may be absent. -/
def RosStream.ofPointer (ptr : Option (List UInt8)) (length : Nat) : RosStream :=
  ⟨ptr.map (List.take length), 0, length⟩

/-- `packaging_msg`; sums of bytes are `int`s there, and are stored modulo 256. -/
def packagingMsg (serialMsg : WriteBuffer) (topicId : UInt16) :
    Except StdException WriteBuffer := do
  let overheadBytes : UInt8 := 8
  let dataLen : UInt16 := UInt16.ofNat serialMsg.getWriteLen
  let length : UInt16 := UInt16.ofNat (overheadBytes.toNat + dataLen.toNat)
  let writeBuf := WriteBuffer.new length.toNat
  let writeBuf ← writeBuf.bufferWrite (some [0xFF, 0xFE]) 2
  let writeBuf ← writeBuf.bufferWrite (some (leBytes 2 dataLen.toNat)) 2
  let lenCheck : UInt8 := 0xFF - datasumForCheck dataLen
  let writeBuf ← writeBuf.bufferWrite (some [lenCheck]) 1
  let writeBuf ← writeBuf.bufferWrite (some (leBytes 2 topicId.toNat)) 2
  let writeBuf ← writeBuf.bufferWrite serialMsg.getData dataLen.toNat
  let msgStream := RosStream.ofPointer serialMsg.getData dataLen.toNat
  let msgCheck : UInt8 := 0xFF - (datasumForCheckStream msgStream + datasumForCheck topicId)
  writeBuf.bufferWrite (some [msgCheck]) 1

structure AsyncWriteBuffer where
  sendBufs : List (List UInt8)
  deriving DecidableEq, Repr

namespace AsyncWriteBuffer

/-- `do_write`: the buffer handed to `async_write`, the front of the queue. -/
def doWrite (b : AsyncWriteBuffer) : Option (List UInt8) := b.sendBufs.head?

/-- The part of `write_to_serial` that holds the lock; the write it starts, if any. -/
def enqueue (b : AsyncWriteBuffer) (payload : List UInt8) :
    AsyncWriteBuffer × Option (List UInt8) :=
  let needWrite := b.sendBufs.isEmpty
  let b := { b with sendBufs := b.sendBufs ++ [payload] }
  if needWrite then (b, b.doWrite) else (b, none)

/-- `write_to_serial`, by a caller that need not wait for the lock. -/
def writeToSerial (b : AsyncWriteBuffer) (serialMsg : WriteBuffer) (topicId : UInt16) :
    Except StdException (AsyncWriteBuffer × Option (List UInt8)) := do
  let writeBuf ← packagingMsg serialMsg topicId
  return b.enqueue writeBuf.getVector

/-- `write_ec_callback`; the write it starts, if any. -/
def writeEcCallback (b : AsyncWriteBuffer) (error : Bool) :
    AsyncWriteBuffer × Option (List UInt8) :=
  if error then ({ b with sendBufs := [] }, none)
  else
    let b := { b with sendBufs := b.sendBufs.tail }
    if !b.sendBufs.isEmpty then (b, b.doWrite) else (b, none)

end AsyncWriteBuffer

/-- An `async_write` in flight: its buffer, and how much of it the port has taken. -/
structure WriteOp where
  buffer : List UInt8
  sent : Nat
  deriving DecidableEq, Repr

/-- What became of a frame that has left the queue. -/
inductive Fate where
  | delivered
  | discarded
  deriving DecidableEq, Repr

structure WriteWorld where
  writer : AsyncWriteBuffer
  /-- Frames of callers that have run `packaging_msg` and not yet taken the lock. -/
  packaged : List (List UInt8)
  /-- The `async_write`s whose handler has not run. -/
  inFlight : List WriteOp
  /-- Every byte the port has taken. -/
  port : List UInt8
  /-- The frames of all calls, in the order the calls took the lock. -/
  calls : List (List UInt8)
  /-- The frames that have left the queue, with what became of them, in that order. -/
  settled : List (List UInt8 × Fate)
  deriving DecidableEq, Repr

inductive WriteEvent where
  /-- A caller enters `write_to_serial` and frames its message. -/
  | call (serialMsg : WriteBuffer) (topicId : UInt16)
  /-- The `i`-th of the waiting callers takes the lock. -/
  | lock (i : Nat)
  /-- The port takes `n` more bytes of the `i`-th write in flight. -/
  | transfer (i n : Nat)
  /-- The handler of the `i`-th write runs without error. -/
  | complete (i : Nat)
  /-- The handler of the `i`-th write runs with an error. -/
  | fail (i : Nat)
  deriving DecidableEq, Repr

namespace WriteEvent

def isFail : WriteEvent → Bool
  | fail _ => true
  | _ => false

end WriteEvent

namespace WriteWorld

def init : WriteWorld :=
  { writer := ⟨[]⟩, packaged := [], inFlight := [], port := [], calls := [], settled := [] }

/-- Put the write a locked section started, if any, in flight. -/
def launch (w : WriteWorld) (started : Option (List UInt8)) : WriteWorld :=
  { w with inFlight := w.inFlight ++ (started.map fun buffer => ⟨buffer, 0⟩).toList }

def step (w : WriteWorld) : WriteEvent → Option WriteWorld
  | .call serialMsg topicId =>
      match packagingMsg serialMsg topicId with
      | .error _ => none
      | .ok writeBuf => some { w with packaged := w.packaged ++ [writeBuf.getVector] }
  | .lock i =>
      match w.packaged[i]? with
      | none => none
      | some payload =>
          let (writer, started) := w.writer.enqueue payload
          some ({ w with
            writer := writer
            packaged := w.packaged.eraseIdx i
            calls := w.calls ++ [payload] }.launch started)
  | .transfer i n =>
      match w.inFlight[i]? with
      | none => none
      | some op =>
          if 0 < n ∧ op.sent + n ≤ op.buffer.length then
            some { w with
              inFlight := w.inFlight.set i { op with sent := op.sent + n }
              port := w.port ++ MemBlock.slice op.buffer op.sent n }
          else none
  | .complete i =>
      match w.inFlight[i]? with
      | none => none
      | some op =>
          -- `async_write` succeeds only when the whole buffer has been written
          if op.sent = op.buffer.length then
            let (writer, started) := w.writer.writeEcCallback false
            some ({ w with
              writer := writer
              inFlight := w.inFlight.eraseIdx i
              settled := w.settled ++ (w.writer.sendBufs.take 1).map fun frame =>
                (frame, Fate.delivered) }.launch started)
          else none
  | .fail i =>
      match w.inFlight[i]? with
      | none => none
      | some _ =>
          let (writer, started) := w.writer.writeEcCallback true
          some ({ w with
            writer := writer
            inFlight := w.inFlight.eraseIdx i
            settled := w.settled ++ w.writer.sendBufs.map fun frame =>
              (frame, Fate.discarded) }.launch started)

end WriteWorld

end RosserialServer
