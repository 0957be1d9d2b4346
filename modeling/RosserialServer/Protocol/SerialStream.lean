import RosserialServer.Lib.Bytes
import RosserialServer.Lib.MemBlock

/-!
# `protocol/serial_stream.hpp`

`Ros_Stream`, the cursor every decoder reads through, and `get_topic_info`, which
reads a registration packet with it.

A `Ros_Stream` is four raw pointers and a length. Its contents are kept here as
the bytes of `[head_, end_)`, with `cur_` as an offset from `head_`; the pointers
are null together, in a stream made from a length alone. Reads that fail throw,
and a throw leaves the stream as it was.
-/

namespace RosserialServer

open Bytes

/-- The standard exceptions that occur, with the text they are built from. -/
inductive StdException where
  | outOfRange (what : String)
  | runtimeError (what : String)
  | invalidArgument (what : String)
  | badFunctionCall
  deriving DecidableEq, Repr

/-- The ways a call can fail to return to its caller. -/
inductive Failure where
  /-- An exception leaves the call. -/
  | thrown (e : StdException)
  /-- The call does something C++ gives no meaning to; nothing is known after it. -/
  | undefined (what : String)
  deriving DecidableEq, Repr

/-- `Ros_Stream`: a cursor into a byte buffer. -/
structure RosStream where
  /-- The bytes from `head_` to `end_`; `none` while the pointers are null. -/
  head : Option (List UInt8)
  /-- `cur_ - head_`. -/
  cur : Nat
  /-- `length_`. -/
  length : Nat
  deriving DecidableEq, Repr

namespace RosStream

/-- `Ros_Stream(buffer, length)` over the `length` bytes at `buffer`. -/
def ofBuffer (buffer : List UInt8) : RosStream := ⟨some buffer, 0, buffer.length⟩

/-- `Ros_Stream(length)`: no buffer yet, only the length that will be requested. -/
def ofLength (length : Nat) : RosStream := ⟨none, 0, length⟩

/-- A pointer difference cast to `int` and then returned as a `size_t`. -/
def castInt (n : Nat) : Nat :=
  if n % 2 ^ 32 < 2 ^ 31 then n % 2 ^ 32 else 2 ^ 64 - (2 ^ 32 - n % 2 ^ 32)

def getLength (s : RosStream) : Nat :=
  match s.head with
  | none => s.length
  | some bytes => castInt (bytes.length - s.cur)

def notInitialized : StdException :=
  .outOfRange "The accessed Stream has not been initialized!"

def outOfBounds : StdException :=
  .outOfRange "Serialization data access out of bounds!"

def undefinedString : StdException :=
  .outOfRange "The length of the string to be written is undefined."

/-- `operator>>(T &value)` for a `T` of `valueLength` bytes: the raw bytes of `value`. -/
def readScalar (s : RosStream) (valueLength : Nat) :
    Except StdException (List UInt8 × RosStream) :=
  match s.head with
  | none => .error notInitialized
  | some bytes =>
      if s.cur + valueLength ≤ bytes.length then
        .ok (MemBlock.slice bytes s.cur valueLength, { s with cur := s.cur + valueLength })
      else .error outOfBounds

/-- `operator>>(std::string &val_string)` into a string resized to `len` before. -/
def readString (s : RosStream) (len : Nat) : Except StdException (List UInt8 × RosStream) :=
  match s.head with
  | none => .error notInitialized
  | some bytes =>
      if len = 0 then .error undefinedString
      else if s.getLength < len then .error outOfBounds
      else .ok (MemBlock.slice bytes s.cur len, { s with cur := s.cur + len })

/-- `operator>>(Ros_Stream &write_stream)`: the stream handed out, then `s` behind it. -/
def readStream (s writeStream : RosStream) : Except StdException (RosStream × RosStream) :=
  let requestLength := writeStream.getLength
  match s.head with
  | none => .error notInitialized
  | some bytes =>
      if s.cur + requestLength ≤ bytes.length then
        .ok (⟨some (MemBlock.slice bytes s.cur requestLength), 0, requestLength⟩,
          { s with cur := s.cur + requestLength })
      else .error outOfBounds

/-- The bytes from the cursor to `end_`. -/
def remaining (s : RosStream) : List UInt8 := (s.head.getD []).drop s.cur

/-! Scalars are copied with `memcpy` on a little-endian machine. -/

def readUInt8 (s : RosStream) : Except StdException (UInt8 × RosStream) := do
  let (raw, s) ← s.readScalar 1
  return (UInt8.ofNat (leNat raw), s)

def readUInt16 (s : RosStream) : Except StdException (UInt16 × RosStream) := do
  let (raw, s) ← s.readScalar 2
  return (UInt16.ofNat (leNat raw), s)

def readUInt32 (s : RosStream) : Except StdException (UInt32 × RosStream) := do
  let (raw, s) ← s.readScalar 4
  return (UInt32.ofNat (leNat raw), s)

def readInt32 (s : RosStream) : Except StdException (Int32 × RosStream) := do
  let (raw, s) ← s.readScalar 4
  return (Int32.ofNat (leNat raw), s)

end RosStream

/-- `rosserial_msg::msg::TopicInfo`; a `std::string` is the list of its bytes. -/
structure TopicInfo where
  topicId : UInt16 := 0
  topicName : List UInt8 := []
  messageType : List UInt8 := []
  md5sum : List UInt8 := []
  bufferSize : Int32 := 0
  deriving DecidableEq, Repr

namespace TopicInfo

/-- `TopicInfo::ID_PUBLISHER`. -/
def idPublisher : UInt16 := 0

/-- `TopicInfo::ID_SUBSCRIBER`. -/
def idSubscriber : UInt16 := 1

end TopicInfo

/-- `true` means the length is refused. -/
def excessiveTesting (len : UInt32) : Bool := decide (400 < len.toNat)

/--
`get_topic_info`: the result, `topic_info` as far as it was filled in, and the
stream behind what was read.
-/
def getTopicInfo (topicInfo : TopicInfo) (msg : RosStream) :
    Except StdException (Bool × TopicInfo × RosStream) := do
  let (topicId, msg) ← msg.readUInt16
  let (nameLen, msg) ← msg.readUInt32
  if excessiveTesting nameLen then return (false, { topicInfo with topicId := topicId }, msg)
  let (topicName, msg) ← msg.readString nameLen.toNat
  let (typeLen, msg) ← msg.readUInt32
  if excessiveTesting typeLen then
    return (false, { topicInfo with topicId := topicId, topicName := topicName }, msg)
  let (messageType, msg) ← msg.readString typeLen.toNat
  let (mdLen, msg) ← msg.readUInt32
  if excessiveTesting mdLen then
    return (false, { topicInfo with
      topicId := topicId, topicName := topicName, messageType := messageType }, msg)
  let (md5sum, msg) ← msg.readString mdLen.toNat
  let (bufferSize, msg) ← msg.readInt32
  return (true,
    { topicId := topicId, topicName := topicName, messageType := messageType, md5sum := md5sum
      bufferSize := bufferSize }, msg)

end RosserialServer
