import RosserialServer.Protocol.MessageSerialization

/-!
# `Stream_Deserialization` (`ros_adapter/ros_message_adapter.hpp`)

The conversion between a message object and its ROS 1 bytes, and `publish`, which
carries a payload from the wire to a ROS 2 topic.

What lies outside the repository is a `RosEnv`: the package index, the dynamic loader,
and the rmw and rclcpp calls. `publish` returns, besides how it ended, the calls it made
on the message object and on the topic, in order. `fini_function` is recorded there and
leaves the object as it was.
-/

namespace RosserialServer

open Bytes

/-- What the adapter calls outside the repository. -/
structure RosEnv where
  /-- `get_package_prefix`; `none` when it throws. -/
  getPackagePrefix : List UInt8 → Option (List UInt8)
  /-- `access(path, F_OK) == 0`. -/
  access : List UInt8 → Bool
  /-- Whether `dlopen` returns a handle. -/
  dlopen : List UInt8 → Bool
  /-- What the function that `dlsym` finds for a library and a symbol describes. -/
  dlsymIntrospection : List UInt8 → List UInt8 → Option MessageMembers
  /-- Whether `dlsym` finds the symbol in the library. -/
  dlsymCpp : List UInt8 → List UInt8 → Bool
  createGenericPublisher : List UInt8 → List UInt8 → Except StdException Unit
  createGenericSubscription : List UInt8 → List UInt8 → Except StdException Unit
  /-- Whether `rmw_serialized_message_init` returns `RMW_RET_OK`. -/
  rmwSerializedMessageInit : Bool
  /-- The serialized message, or `none` for a return code other than `RMW_RET_OK`. -/
  rmwSerialize : MsgObject → Except StdException (Option (List UInt8))
  publish : List UInt8 → Except StdException Unit

/-- A call `publish` makes on the message object, on rmw or on the topic. -/
inductive RosCall where
  | initFunction
  | finiFunction
  | rmwSerialize (msgObj : MsgObject)
  | publish (cdr : List UInt8)

/-- The characters of a literal. -/
def chars (s : String) : List UInt8 := s.toList.map fun c => UInt8.ofNat c.toNat

/-- The sizes of the scalars both conversions handle. -/
def scalarSize : TypeId → Option Nat
  | .boolean => some 1
  | .octet => some 1
  | .int32 => some 4
  | .uint32 => some 4
  | .float => some 4
  | .double => some 8
  | _ => none

/-- A member called `header` whose type has a `stamp` is taken for a `std_msgs` header. -/
def isStdHeader (name : String) (subMembers : List MessageMember) : Bool :=
  name == "header" && subMembers.any fun m => m.name == "stamp"

namespace Elem

def text : Elem → List UInt8
  | .str bytes => bytes
  | _ => []

def fields : Elem → MsgObject
  | .msg fs => fs
  | _ => []

end Elem

/-- `Stream_Deserialization`; its members are not initialised by the constructor. -/
structure StreamDeserialization where
  /-- `members_`, once it has been set. -/
  members : Option MessageMembers
  /-- Whether `type_cdr_support_` has been set. -/
  typeCdrSupport : Bool

namespace StreamDeserialization

def new : StreamDeserialization := { members := none, typeCdrSupport := false }

/-! ## ROS 1 bytes to a message object -/

def readDoubles : Nat → RosStream → Except StdException (Slot × RosStream)
  | 0, stream => .ok ([], stream)
  | k + 1, stream => do
      let (raw, stream) ← stream.readScalar 8
      let (rest, stream) ← readDoubles k stream
      return (.raw raw :: rest, stream)

/-- The `seq` of a header, read and dropped. -/
def skipSeq (stream : RosStream) (name : String) (subMembers : List MessageMember) :
    Except StdException RosStream :=
  if isStdHeader name subMembers then do
    let (_, stream) ← stream.readUInt32
    return stream
  else .ok stream

mutual

/-- The body of the loop over the members. -/
def deserializeMember (stream : RosStream) (slot : Slot) :
    MessageMember → Except StdException (Bool × Slot × RosStream)
  | ⟨name, typeId, array, subMembers⟩ =>
      if array.isArray && !array.isUpperBound && decide (0 < array.arraySize)
          && typeId == .double then do
        let (slot, stream) ← readDoubles array.arraySize stream
        return (true, slot, stream)
      else if array.isArray then .ok (false, slot, stream)
      else
        match scalarSize typeId with
        | some n => do
            let (raw, stream) ← stream.readScalar n
            return (true, [.raw raw], stream)
        | none =>
            match typeId with
            | .string => do
                let (len, stream) ← stream.readUInt32
                if 400 < len.toNat then return (false, slot, stream)
                let (text, stream) ← stream.readString len.toNat
                return (true, [.str text], stream)
            | .message => do
                let stream ← skipSeq stream name subMembers
                let (ok, fields, stream) ←
                  deserializeRos1ToStruct stream slot.fields subMembers
                return (ok, [.msg fields], stream)
            | _ => .ok (false, slot, stream)

/-- `deserialize_ros1_to_struct`: the result, the object as far as it was filled, the stream. -/
def deserializeRos1ToStruct (stream : RosStream) (msgObj : MsgObject) :
    List MessageMember → Except StdException (Bool × MsgObject × RosStream)
  | [] => .ok (true, [], stream)
  | member :: members => do
      let (ok, slot, stream) ← deserializeMember stream (msgObj.headD []) member
      if !ok then return (false, slot :: msgObj.tail, stream)
      let (ok, rest, stream) ← deserializeRos1ToStruct stream msgObj.tail members
      return (ok, slot :: rest, stream)

end

/-! ## A message object to ROS 1 bytes -/

/-- Write elements one after the other, until one is refused. -/
def writeEach (write : Elem → WriteBuffer → Except Failure (Bool × WriteBuffer)) :
    List Elem → WriteBuffer → Except Failure (Bool × WriteBuffer)
  | [], buffer => .ok (true, buffer)
  | e :: es, buffer => do
      let (ok, buffer) ← write e buffer
      if ok then writeEach write es buffer else return (false, buffer)

/-- The elements of a member as the loops over `array_size` reach them. -/
def elements (slot : Slot) (array : ArraySpec) : Except Failure (List Elem) :=
  let arraySize := if array.isArray then array.arraySize else 1
  if array.isUpperBound && decide (0 < arraySize) then
    .error (.undefined "a bounded sequence is not an array of its elements")
  else if slot.length < arraySize then .error (.undefined "read beyond the member")
  else .ok (slot.take arraySize)

/-- One string: its length, then its characters. -/
def writeText (e : Elem) (buffer : WriteBuffer) : Except Failure (Bool × WriteBuffer) := do
  let len := UInt32.ofNat e.text.length
  let buffer ← (buffer.bufferWrite (some (leBytes 4 len.toNat)) 4).mapError .thrown
  let buffer ← (buffer.bufferWrite (some e.text) e.text.length).mapError .thrown
  return (true, buffer)

/-- The `seq` of a header, written as zero. -/
def writeSeq (buffer : WriteBuffer) (name : String) (array : ArraySpec)
    (subMembers : List MessageMember) : Except Failure WriteBuffer :=
  if array.arraySize == 0 && isStdHeader name subMembers then
    (buffer.bufferWrite (some (leBytes 4 0)) 4).mapError .thrown
  else .ok buffer

mutual

/-- The body of the loop over the members. -/
def serializeMember (slot : Slot) (serialBuffer : WriteBuffer) :
    MessageMember → Except Failure (Bool × WriteBuffer)
  | ⟨name, typeId, array, subMembers⟩ =>
      match scalarSize typeId with
      | some n => do
          let buffer ← (serialBuffer.readAndMvPtr (some slot.bytes) array n).mapError .thrown
          return (true, buffer)
      | none =>
          match typeId with
          | .string =>
              if array.isArray && (array.isUpperBound || array.arraySize == 0) then
                .error (.thrown (.runtimeError "sequence/string not supported"))
              else do
                let es ← elements slot array
                writeEach writeText es serialBuffer
          | .message => do
              let buffer ← writeSeq serialBuffer name array subMembers
              let es ← elements slot array
              writeEach (fun e b => serializedStructToRos1 e.fields b subMembers) es buffer
          | _ => .ok (false, serialBuffer)

/-- `serialized_struct_to_ros1`. -/
def serializedStructToRos1 (msgObj : MsgObject) (serialBuffer : WriteBuffer) :
    List MessageMember → Except Failure (Bool × WriteBuffer)
  | [] => .ok (true, serialBuffer)
  | member :: members => do
      let (ok, buffer) ← serializeMember (msgObj.headD []) serialBuffer member
      if ok then serializedStructToRos1 msgObj.tail buffer members else return (false, buffer)

end

/-! ## Type support -/

/-- The parts of a string before and after its first slash. -/
def splitSlash (s : List UInt8) : Option (List UInt8 × List UInt8) :=
  if 0x2F ∈ s then some (s.takeWhile (· != 0x2F), (s.dropWhile (· != 0x2F)).drop 1) else none

/-- The package and the message name of a type name; a middle part such as `msg` is dropped. -/
def typeParts (messageType : List UInt8) : Option (List UInt8 × List UInt8) :=
  match splitSlash messageType with
  | none => none
  | some (pkgName, msgName) =>
      match splitSlash msgName with
      | none => some (pkgName, msgName)
      | some (_, msgName) => some (pkgName, msgName)

/-! The names `load_type_support` looks up. -/

def libName (pkgName : List UInt8) : List UInt8 :=
  chars "lib" ++ pkgName ++ chars "__rosidl_typesupport_introspection_cpp.so"

def libPath (pre pkgName : List UInt8) : List UInt8 := pre ++ chars "/lib/" ++ libName pkgName

def symbol (pkgName msgName : List UInt8) : List UInt8 :=
  chars "rosidl_typesupport_introspection_cpp__get_message_type_support_handle__"
    ++ pkgName ++ chars "__msg__" ++ msgName

def libNameCpp (pkgName : List UInt8) : List UInt8 :=
  chars "lib" ++ pkgName ++ chars "__rosidl_typesupport_cpp.so"

def funcNameCpp (pkgName msgName : List UInt8) : List UInt8 :=
  chars "rosidl_typesupport_cpp__get_message_type_support_handle__"
    ++ pkgName ++ chars "__msg__" ++ msgName

def loadTypeSupport (env : RosEnv) (d : StreamDeserialization) (pkgName msgName : List UInt8) :
    Except Failure (Bool × StreamDeserialization) :=
  match env.getPackagePrefix pkgName with
  | none => .ok (false, d)
  | some pre =>
      if !env.access (libPath pre pkgName) then .ok (false, d)
      else if !env.dlopen (libName pkgName) then .ok (false, d)
      else
        match env.dlsymIntrospection (libName pkgName) (symbol pkgName msgName) with
        -- the error is logged, and the null pointer is called
        | none => .error (.undefined "call of a null function pointer")
        | some members =>
            let d := { d with members := some members }
            if !env.dlopen (libNameCpp pkgName) then .ok (false, d)
            else if !env.dlsymCpp (libNameCpp pkgName) (funcNameCpp pkgName msgName) then
              .ok (false, d)
            else .ok (true, { d with typeCdrSupport := true })

def init (env : RosEnv) (d : StreamDeserialization) (topicInfo : TopicInfo) :
    Except Failure (Bool × StreamDeserialization) :=
  match typeParts topicInfo.messageType with
  | none => .ok (false, d)
  | some (pkgName, msgName) => loadTypeSupport env d pkgName msgName

/-! ## Publishing -/

mutual

def memberTriviallyDestructible : MessageMember → Bool
  | ⟨_, typeId, array, subMembers⟩ =>
      match array, typeId with
      | .bounded _, _ | .unbounded, _ => false
      | _, .string | _, .wstring => false
      | _, .message => triviallyDestructible subMembers
      | _, _ => true

/-- The objects of the type own no storage: they have no string and no sequence. -/
def triviallyDestructible : List MessageMember → Bool
  | [] => true
  | member :: members => memberTriviallyDestructible member && triviallyDestructible members

end

/-- The last call of `fini_function`; `alive` is whether `msg_obj` has not been destroyed. -/
def finish (finiFunction alive : Bool) (calls : List RosCall) :
    List RosCall × Except Failure Unit :=
  if !finiFunction then (calls, .ok ())
  else if alive then (calls ++ [.finiFunction], .ok ())
  else (calls ++ [.finiFunction], .error (.undefined "msg_obj is destroyed twice"))

/-- The second half of `publish`, from `rmw_serialized_message_init` on. -/
def publishObject (env : RosEnv) (typeCdrSupport finiFunction alive : Bool) (msgObj : MsgObject) :
    List RosCall × Except Failure Unit :=
  if !env.rmwSerializedMessageInit then finish finiFunction alive []
  else if !typeCdrSupport then
    ([], .error (.undefined "type_cdr_support_ is used before it is set"))
  else
    match env.rmwSerialize msgObj with
    | .error e => ([.rmwSerialize msgObj], .error (.thrown e))
    | .ok none => finish finiFunction alive [.rmwSerialize msgObj]
    | .ok (some cdr) =>
        match env.publish cdr with
        | .error e => ([.rmwSerialize msgObj, .publish cdr], .error (.thrown e))
        | .ok () => finish finiFunction alive [.rmwSerialize msgObj, .publish cdr]

/-- `publish`: the calls made, in order, and how it ended. -/
def publish (env : RosEnv) (d : StreamDeserialization) (stream : RosStream) :
    List RosCall × Except Failure Unit :=
  match d.members with
  -- the null test reads a pointer that nothing has set
  | none => ([], .error (.undefined "members_ is used before it is set"))
  | some members =>
      let inits : List RosCall := if members.initFunction.isSome then [.initFunction] else []
      match deserializeRos1ToStruct stream (members.initFunction.getD []) members.members with
      | .error e => (inits, .error (.thrown e))
      | .ok (parseSuccess, msgObj, _) =>
          let finis : List RosCall :=
            if !parseSuccess && members.finiFunction then [.finiFunction] else []
          -- a failed parse is reported, and does not return here
          let alive := parseSuccess || triviallyDestructible members.members
          let (calls, result) :=
            publishObject env d.typeCdrSupport members.finiFunction alive msgObj
          (inits ++ finis ++ calls, result)

/-! ## Subscribing -/

/--
`subscribe`: the calls made, in order, and the buffer it returns. `deserialized` is what
`rmw_deserialize` does: the object it has filled, or `none` for a return code other than
`RMW_RET_OK`.
-/
def subscribe (d : StreamDeserialization)
    (deserialized : Except StdException (Option MsgObject)) :
    List RosCall × Except Failure WriteBuffer :=
  match d.members with
  | none => ([], .error (.undefined "members_ is used before it is set"))
  | some members =>
      let serialBuffer := WriteBuffer.new members.sizeOf
      let inits : List RosCall := if members.initFunction.isSome then [.initFunction] else []
      let finis : List RosCall := if members.finiFunction then [.finiFunction] else []
      if !d.typeCdrSupport then
        (inits, .error (.undefined "type_cdr_support_ is used before it is set"))
      else
        match deserialized with
        | .error e => (inits, .error (.thrown e))
        -- the error is logged, and the empty buffer is returned
        | .ok none => (inits ++ finis, .ok serialBuffer)
        | .ok (some msgObj) =>
            match serializedStructToRos1 msgObj serialBuffer members.members with
            | .error f => (inits, .error f)
            -- the result only decides whether success is logged
            | .ok (_, serialBuffer) => (inits ++ finis, .ok serialBuffer)

end StreamDeserialization

end RosserialServer
