import RosserialServer.RosAdapter.RosMessageAdapter

/-!
# The message object (`ros_adapter/ros_message_adapter.hpp`)

`publish` and `subscribe` again, as what they do to the object in `raw_buffer`: which of
its functions and of the functions that are handed a pointer to it are called, in order.
-/

namespace RosserialServer

/-- A call that is handed `msg_obj`. -/
inductive ObjectUse where
  | initFunction
  | finiFunction
  | deserializeRos1ToStruct
  | rmwSerialize
  | rmwDeserialize
  | serializedStructToRos1
  deriving DecidableEq, Repr

namespace ObjectUse

/-- The calls that read the object. -/
def reads : ObjectUse → Bool
  | rmwSerialize | serializedStructToRos1 => true
  | _ => false

/-- The two conversions and `rmw_deserialize`, which are no `RosCall`s. -/
def converts : ObjectUse → Bool
  | deserializeRos1ToStruct | rmwDeserialize | serializedStructToRos1 => true
  | _ => false

end ObjectUse

/-- The call as one on the object, unless it is on the topic. -/
def RosCall.objectUse : RosCall → Option ObjectUse
  | initFunction => some .initFunction
  | finiFunction => some .finiFunction
  | rmwSerialize _ => some .rmwSerialize
  | publish _ => none

namespace StreamDeserialization

def inits (members : MessageMembers) : List ObjectUse :=
  if members.initFunction.isSome then [.initFunction] else []

def finis (members : MessageMembers) : List ObjectUse :=
  if members.finiFunction then [.finiFunction] else []

/-- From `rmw_serialized_message_init` on. -/
def publishObjectUses (env : RosEnv) (typeCdrSupport : Bool) (members : MessageMembers)
    (msgObj : MsgObject) : List ObjectUse :=
  if !env.rmwSerializedMessageInit then finis members
  else if !typeCdrSupport then []
  else .rmwSerialize ::
    match env.rmwSerialize msgObj with
    | .error _ => []
    | .ok none => finis members
    | .ok (some cdr) =>
        match env.publish cdr with
        | .error _ => []
        | .ok () => finis members

def publishUses (env : RosEnv) (d : StreamDeserialization) (stream : RosStream) : List ObjectUse :=
  match d.members with
  | none => []
  | some members =>
      inits members ++ .deserializeRos1ToStruct ::
        match deserializeRos1ToStruct stream (members.initFunction.getD []) members.members with
        | .error _ => []
        | .ok (parseSuccess, msgObj, _) =>
            (if parseSuccess then [] else finis members)
              ++ publishObjectUses env d.typeCdrSupport members msgObj

def subscribeUses (d : StreamDeserialization)
    (deserialized : Except StdException (Option MsgObject)) : List ObjectUse :=
  match d.members with
  | none => []
  | some members =>
      inits members ++
        if !d.typeCdrSupport then []
        else .rmwDeserialize ::
          match deserialized with
          | .error _ => []
          | .ok none => finis members
          | .ok (some msgObj) =>
              .serializedStructToRos1 ::
                match serializedStructToRos1 msgObj (.new members.sizeOf) members.members with
                | .error _ => []
                | .ok _ => finis members

end StreamDeserialization

end RosserialServer
