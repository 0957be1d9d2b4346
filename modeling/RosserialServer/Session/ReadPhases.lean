import RosserialServer.Protocol.MessageSerialization
import RosserialServer.Transport.Port

/-!
# The read phases of `SerialDrive` (`session/serial_session.hpp`)

`read_async_head`, `read_async_first`, `read_async_second`, `read_length` and
`read_body`: four callbacks, each of which ends in one request for the bytes of the
next phase. What the routing table does with a packet is a parameter here, a
`Dispatch`; the tables themselves are in `Session/SerialDrive.lean`.
-/

namespace RosserialServer

/-- The member functions of `SerialDrive` that are bound to a read. -/
inductive Handler where
  | readAsyncFirst
  | readAsyncSecond
  | readLength
  | readBody (topicId : UInt16)
  deriving DecidableEq, Repr

/-- What the routing table does with a validated packet. -/
abbrev Dispatch (τ : Type) := UInt16 → RosStream → τ → Except Failure τ

/-- The session's state apart from its reader. -/
structure Session (τ : Type) where
  /-- The tables `callback_`, `publisher_` and `subscriber_`. -/
  tables : τ
  /-- Every `(topic_id, body)` that reached the routing step of `read_body`, in order. -/
  dispatched : List (UInt16 × List UInt8)
  deriving DecidableEq, Repr

variable {τ : Type}

def readAsyncHead : Next Handler := .read 1 .readAsyncFirst

def readAsyncFirst (readStream : RosStream) : Next Handler :=
  match readStream.readUInt8 with
  | .error e => .escape (.thrown e)
  | .ok (syncFlag, _) =>
      if syncFlag = 0xFF then .read 1 .readAsyncSecond else readAsyncHead

def versionNotApplicable : StdException := .outOfRange "The Rosserial version is not applicable."

def readAsyncSecond (readStream : RosStream) : Next Handler :=
  match readStream.readUInt8 with
  | .error e => .escape (.thrown e)
  | .ok (syncVersion, _) =>
      if syncVersion = 0xFE then .read 5 .readLength
      else if syncVersion = 0xFF then .escape (.thrown versionNotApplicable)
      else readAsyncHead

/-- The header check of `read_length`, an `int` comparison. -/
def lengthAccepted (length : UInt16) (lengthChecksum : UInt8) : Bool :=
  (datasumForCheck length).toNat + lengthChecksum.toNat == 0xFF

def readLength (readStream : RosStream) : Next Handler :=
  match readStream.readUInt16 with
  | .error e => .escape (.thrown e)
  | .ok (length, readStream) =>
      match readStream.readUInt8 with
      | .error e => .escape (.thrown e)
      | .ok (lengthChecksum, readStream) =>
          if !lengthAccepted length lengthChecksum then readAsyncHead
          else
            match readStream.readUInt16 with
            | .error e => .escape (.thrown e)
            | .ok (topicId, _) => .read (length.toNat + 1) (.readBody topicId)

/-- The body check of `read_body`, an `int` comparison of three unreduced terms. -/
def bodyAccepted (bodySum topicSum dataChecksum : UInt8) : Bool :=
  bodySum.toNat + topicSum.toNat + dataChecksum.toNat == 0xFF

def readBody (dispatch : Dispatch τ) (session : Session τ) (readStream : RosStream)
    (topicId : UInt16) : Session τ × Next Handler :=
  match readStream.readStream (RosStream.ofLength (readStream.getLength - 1)) with
  | .error e => (session, .escape (.thrown e))
  | .ok (bodyStream, readStream) =>
      match readStream.readUInt8 with
      | .error e => (session, .escape (.thrown e))
      | .ok (dataChecksum, _) =>
          if !bodyAccepted (datasumForCheckStream bodyStream) (datasumForCheck topicId)
              dataChecksum then
            (session, readAsyncHead)
          else
            let session := { session with
              dispatched := session.dispatched ++ [(topicId, bodyStream.head.getD [])] }
            match dispatch topicId bodyStream session.tables with
            | .error f => (session, .escape f)
            | .ok tables => ({ session with tables := tables }, readAsyncHead)

/-- The callbacks of the session, by the handler a read was issued with. -/
def handle (dispatch : Dispatch τ) : Reaction Handler (Session τ)
  | .readAsyncFirst, session, readStream => (session, readAsyncFirst readStream)
  | .readAsyncSecond, session, readStream => (session, readAsyncSecond readStream)
  | .readLength, session, readStream => (session, readLength readStream)
  | .readBody topicId, session, readStream => readBody dispatch session readStream topicId

/-- The capacity `open_serial` gives its `AsyncReadBuffer`. -/
def readerCapacity : Nat := 512

/-- A session that has run `start_read` on a new reader, with `wire` still to arrive. -/
def startRead (tables : τ) (wire : List (List UInt8)) : ReadWorld Handler (Session τ) :=
  ReadWorld.start readerCapacity { tables := tables, dispatched := [] } readAsyncHead wire

end RosserialServer
