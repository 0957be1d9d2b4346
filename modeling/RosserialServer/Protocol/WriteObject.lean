import RosserialServer.Protocol.MessageSerialization

/-!
# `Write_Buffer` statement by statement

`WriteBuffer` has it built in that no more is written than the vector holds, and a call of
it that throws has no state to leave behind. Here the methods are the statements of the
source, on an object whose two fields are unrelated and that outlives an exception; that
both come to the same is proved in `Proof/AppendLog`.
-/

namespace RosserialServer

/-- The fields of `Write_Buffer`. -/
structure RawWriteBuffer where
  writeLen : Nat
  serialMsg : List UInt8
  deriving DecidableEq, Repr

namespace RawWriteBuffer

/-- `Write_Buffer(len)`. -/
def new (len : Nat) : RawWriteBuffer := ⟨0, List.replicate len 0⟩

/-- A method of `Write_Buffer`. -/
abbrev Method : Type := EStateM Failure RawWriteBuffer Unit

def getLen (b : RawWriteBuffer) : Nat := b.serialMsg.length

def getRemain (b : RawWriteBuffer) : Nat := b.getLen - b.writeLen

def getVector (b : RawWriteBuffer) : List UInt8 := b.serialMsg

def ensureSize (size : Nat) : Method := do
  let b ← get
  if size < b.serialMsg.length then return
  -- `resize`
  set { b with serialMsg := b.serialMsg ++ List.replicate (size - b.serialMsg.length) 0 }

/-- `memcpy(get_wptr(), read_ptr, n)`, with the memory at `read_ptr`. -/
def copyToWptr (src : List UInt8) (n : Nat) : Method := do
  let b ← get
  if b.serialMsg.length < b.writeLen + n then throw (.undefined "memcpy behind the vector")
  set { b with serialMsg := MemBlock.overwrite b.serialMsg b.writeLen (src.take n) }

/-- `if (get_remain() < n) ensure_size(get_write_len() + n)`. -/
def makeRoom (n : Nat) : Method := do
  let b ← get
  if b.getRemain < n then ensureSize (b.writeLen + n)

def bufferWrite (readPtr : Option (List UInt8)) (n : Nat) : Method := do
  if n = 0 then return
  match readPtr with
  | none => throw (.thrown (.invalidArgument "read_ptr is null"))
  | some src =>
      makeRoom n
      copyToWptr src n
      modify fun b => { b with writeLen := b.writeLen + n }

def readAndMvPtr (readPtr : Option (List UInt8)) (array : ArraySpec) (elemSize : Nat) : Method := do
  if array.isArray && (array.isUpperBound || array.arraySize == 0) then
    throw (.thrown (.runtimeError "sequence/vector not supported"))
  let count := if array.isArray then array.arraySize else 1
  bufferWrite readPtr (count * elemSize)

end RawWriteBuffer

/-- A call that writes, from memory that is there and long enough. -/
inductive WriteCall where
  | bufferWrite (src : List UInt8) (n : Nat) (readable : n ≤ src.length)
  | readAndMvPtr (src : List UInt8) (array : ArraySpec) (elemSize : Nat)
      (readable : (if array.isArray then array.arraySize else 1) * elemSize ≤ src.length)

namespace WriteCall

def run : WriteCall → RawWriteBuffer.Method
  | bufferWrite src n _ => RawWriteBuffer.bufferWrite (some src) n
  | readAndMvPtr src array elemSize _ => RawWriteBuffer.readAndMvPtr (some src) array elemSize

/-- The bytes the call is to write. -/
def bytes : WriteCall → List UInt8
  | bufferWrite src n _ => src.take n
  | readAndMvPtr src array elemSize _ =>
      src.take ((if array.isArray then array.arraySize else 1) * elemSize)

end WriteCall

end RosserialServer
