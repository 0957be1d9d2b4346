import RosserialServer.Protocol.SerialStream

/-!
# `Ros_Stream` pointer by pointer

`RosStream` keeps the bytes of its stream and an offset into them. Here a stream is the
four fields of the source: three addresses, which wrap around like any 64-bit number, and
a length. Several streams lie over one buffer, each an object that outlives an exception
of its methods; `StreamWorld` is a caller that reads from them in any order.
-/

namespace RosserialServer

/-- The bytes a stream is made over, and where they are. -/
structure Buffer where
  base : Nat
  bytes : List UInt8
  /-- Not at the null pointer. -/
  nonnull : 0 < base
  /-- The end of it is an address too. -/
  fits : base + bytes.length < 2 ^ 64
  /-- A length that an `int` can hold. -/
  short : bytes.length < 2 ^ 31

/-- The bytes at the `n` addresses from `addr` on. -/
def Buffer.covered (mem : Buffer) (addr n : Nat) : List UInt8 :=
  MemBlock.slice mem.bytes (addr - mem.base) n

/-- `Ros_Stream`; the null pointer is 0. -/
structure RawStream where
  cur : UInt64
  head : UInt64
  end_ : UInt64
  length : UInt64
  deriving DecidableEq, Repr

namespace RawStream

/-- `Ros_Stream(buffer, length)`. -/
def ofBuffer (mem : Buffer) : RawStream where
  cur := UInt64.ofNat mem.base
  head := UInt64.ofNat mem.base
  end_ := UInt64.ofNat (mem.base + mem.bytes.length)
  length := UInt64.ofNat mem.bytes.length

/-- `Ros_Stream(length)`. -/
def ofLength (length : UInt64) : RawStream := ⟨0, 0, 0, length⟩

def getLength (s : RawStream) : UInt64 :=
  if s.head = 0 ∧ s.end_ = 0 then s.length
  else UInt64.ofNat (RosStream.castInt (s.end_ - s.cur).toNat)

/-- A method of `Ros_Stream`. -/
abbrev Method (α : Type) : Type := EStateM Failure RawStream α

/-- `memcpy(dst, cur_, n)`; the copied bytes. -/
def copyFromCur (mem : Buffer) (n : UInt64) : Method (List UInt8) := do
  let s ← get
  if s.cur.toNat < mem.base ∨ mem.base + mem.bytes.length < s.cur.toNat + n.toNat then
    throw (.undefined "memcpy outside the buffer")
  return mem.covered s.cur.toNat n.toNat

/-- `cur_ += n`. -/
def advance (n : UInt64) (s : RawStream) : RawStream := { s with cur := s.cur + n }

def readScalar (mem : Buffer) (valueLength : UInt64) : Method (List UInt8) := do
  let s ← get
  if s.head = 0 then throw (.thrown RosStream.notInitialized)
  if s.cur + valueLength ≤ s.end_ then
    let value ← copyFromCur mem valueLength
    modify (advance valueLength)
    return value
  else throw (.thrown RosStream.outOfBounds)

def readString (mem : Buffer) (len : UInt64) : Method (List UInt8) := do
  let s ← get
  if s.head = 0 then throw (.thrown RosStream.notInitialized)
  if len = 0 then throw (.thrown RosStream.undefinedString)
  if s.getLength < len then throw (.thrown RosStream.outOfBounds)
  else
    let valString ← copyFromCur mem len
    modify (advance len)
    return valString

/-- `operator>>(Ros_Stream &write_stream)`; `write_stream` as it is afterwards. -/
def readStream (writeStream : RawStream) : Method RawStream := do
  let requestLength := writeStream.getLength
  let s ← get
  if s.head = 0 then throw (.thrown RosStream.notInitialized)
  if s.cur + requestLength ≤ s.end_ then
    modify (advance requestLength)
    return { head := s.cur, length := requestLength, cur := s.cur, end_ := s.cur + requestLength }
  else throw (.thrown RosStream.outOfBounds)

end RawStream

/-- What is read from a stream. -/
inductive ReadOp where
  | scalar (size : UInt64)
  | string (size : UInt64)
  /-- A new stream, made from the length that is requested. -/
  | stream (size : UInt64)
  deriving DecidableEq, Repr

/-- What a read that does not throw gives its caller. -/
inductive Returned where
  | value (bytes : List UInt8)
  | handed (s : RawStream)
  deriving DecidableEq, Repr

namespace ReadOp

def size : ReadOp → UInt64
  | scalar size | string size | stream size => size

def run (mem : Buffer) : ReadOp → RawStream.Method Returned
  | scalar size => do return .value (← RawStream.readScalar mem size)
  | string size => do return .value (← RawStream.readString mem size)
  | stream size => do return .handed (← RawStream.readStream (.ofLength size))

/-- The new stream of a read that throws has stayed as it was made. -/
def leftOver : ReadOp → List RawStream
  | stream size => [.ofLength size]
  | _ => []

end ReadOp

/-- What a read has given its caller: bytes, or the `k`-th stream. -/
inductive ReadResult where
  | value (bytes : List UInt8)
  | stream (k : Nat)
  deriving DecidableEq, Repr

/-- A read that did not throw. -/
structure ReadRecord where
  /-- The stream it was made from. -/
  source : Nat
  /-- The address of the first byte, and the number of bytes. -/
  addr : Nat
  size : Nat
  result : ReadResult
  deriving DecidableEq, Repr

structure StreamWorld where
  streams : List RawStream
  /-- The reads that did not throw, in order. -/
  reads : List ReadRecord
  deriving DecidableEq, Repr

namespace StreamWorld

def init (mem : Buffer) : StreamWorld := ⟨[.ofBuffer mem], []⟩

/-- A read from the `i`-th stream; a new stream is the last one from then on. -/
def step (mem : Buffer) (w : StreamWorld) (call : Nat × ReadOp) : Option StreamWorld :=
  match w.streams[call.1]? with
  | none => none
  | some s =>
      match call.2.run mem s with
      | .error _ s' => some { w with streams := w.streams.set call.1 s' ++ call.2.leftOver }
      | .ok (.value bytes) s' => some {
          streams := w.streams.set call.1 s'
          reads := w.reads ++ [⟨call.1, s.cur.toNat, call.2.size.toNat, .value bytes⟩] }
      | .ok (.handed t) s' => some {
          streams := w.streams.set call.1 s' ++ [t]
          reads := w.reads ++
            [⟨call.1, s.cur.toNat, call.2.size.toNat, .stream w.streams.length⟩] }

/-- The reads from the `k`-th stream. -/
def readsOf (w : StreamWorld) (k : Nat) : List ReadRecord :=
  w.reads.filter fun r => r.source == k

end StreamWorld

end RosserialServer
