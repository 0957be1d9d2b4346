import RosserialServer.Protocol.SerialStream

/-!
# `AsyncReadBuffer` (`transport/async_transport.hpp`)

The buffer between the serial port and the session. The session asks for an exact
number of bytes with a callback; the buffer either posts the callback with a slice
of `mem_`, or starts a port read and posts when that completes.

Callbacks are values of a type `κ` naming the bound member functions. What a call
leaves outstanding in the `io_context` is returned as a `Continuation`: a read the
port will complete, or a posted callback. A posted callback keeps pointers into
`mem_`, not a copy of its bytes.
-/

namespace RosserialServer

/-- An operation handed to the `io_context`, still to complete or to be run. -/
inductive Continuation (κ : Type) where
  /-- `async_read` into `mem[off, off + size)` with `transfer_at_least(atLeast)`. -/
  | asyncRead (off size atLeast : Nat)
  /-- `async_read_some` into `mem[off, off + size)`. -/
  | asyncReadSome (off size : Nat)
  /-- A posted callback, empty for an empty `std::function`, over `mem[off, off + len)`. -/
  | post (callback : Option κ) (off len : Nat)
  deriving DecidableEq, Repr

structure AsyncReadBuffer (κ : Type) where
  mem : List UInt8
  writeIndex : Nat
  readIndex : Nat
  readRequestedBytes : Nat
  readSussessCallback : Option κ
  deriving DecidableEq, Repr

namespace AsyncReadBuffer

variable {κ : Type}

/-- `AsyncReadBuffer(s, capacity)`. -/
def new (capacity : Nat) : AsyncReadBuffer κ :=
  { mem := List.replicate capacity 0, writeIndex := 0, readIndex := 0
    readRequestedBytes := 0, readSussessCallback := none }

def reset (b : AsyncReadBuffer κ) : AsyncReadBuffer κ := { b with readIndex := 0, writeIndex := 0 }

def alreadyBytes (b : AsyncReadBuffer κ) : Nat := b.writeIndex - b.readIndex

def tailRemainBytes (b : AsyncReadBuffer κ) : Nat := b.mem.length - b.writeIndex

def callSussessCallback (b : AsyncReadBuffer κ) : AsyncReadBuffer κ × Continuation κ :=
  let posted := Continuation.post b.readSussessCallback b.readIndex b.readRequestedBytes
  let b := { b with readIndex := b.readIndex + b.readRequestedBytes }
  (if b.readIndex = b.writeIndex then b.reset else b, posted)

/-- Make room behind `write_index_` for `diffBytes` more bytes, as `read` does. -/
def makeRoom (b : AsyncReadBuffer κ) (diffBytes : Nat) : AsyncReadBuffer κ :=
  if diffBytes > b.tailRemainBytes then
    if b.readIndex = b.writeIndex then b.reset
    else
      -- `memmove` of the unread bytes to the front
      { b with
        mem := MemBlock.overwrite b.mem 0 (MemBlock.slice b.mem b.readIndex b.alreadyBytes)
        writeIndex := b.alreadyBytes
        readIndex := 0 }
  else b

def read (b : AsyncReadBuffer κ) (requestedBytes : Nat) (callback : κ) :
    AsyncReadBuffer κ × Option (Continuation κ) :=
  let b := { b with readSussessCallback := some callback, readRequestedBytes := requestedBytes }
  if b.readRequestedBytes > b.mem.length ∨ b.readRequestedBytes = 0 then
    -- only a warning is logged: nothing is read and nothing is posted
    (b, none)
  else if b.readRequestedBytes > b.alreadyBytes then
    let diffBytes := b.readRequestedBytes - b.alreadyBytes
    let b := b.makeRoom diffBytes
    (b, some (.asyncRead b.writeIndex b.tailRemainBytes diffBytes))
  else
    let (b, posted) := b.callSussessCallback
    (b, some posted)

/-- `read_callback(ec, transfer_bytes)`. -/
def readCallback (b : AsyncReadBuffer κ) (ec : Bool) (transferBytes : Nat) :
    AsyncReadBuffer κ × Option (Continuation κ) :=
  if ec then ({ b with readRequestedBytes := 0 }, none)
  else
    let b := { b with writeIndex := b.writeIndex + transferBytes }
    if b.readRequestedBytes ≤ b.alreadyBytes then
      let (b, posted) := b.callSussessCallback
      (b, some posted)
    else (b, some (.asyncReadSome b.writeIndex b.tailRemainBytes))

end AsyncReadBuffer

end RosserialServer
