import Mathlib.Data.List.Basic

/-!
# Message type descriptions and message objects

`rosidl_typesupport_introspection_cpp` describes a message type as a list of
members, and a message object is reached through each member's `offset_`. The
descriptions are kept as the conversion code reads them. An object is kept as one
slot for each member, so members never overlap and no offset is needed: a slot
holds the elements stored at the member's address, one for a plain member and one
for each position of an array.
-/

namespace RosserialServer

/-- The `ROS_TYPE_*` constants; `ROS_TYPE_BOOL` is `boolean`, `ROS_TYPE_BYTE` is `octet`. -/
inductive TypeId where
  | float | double | longDouble | char | wchar | boolean | octet | uint8 | int8 | uint16
  | int16 | uint32 | int32 | uint64 | int64 | string | wstring | message
  deriving DecidableEq, Repr

/-- The array flags a generated member description carries. -/
inductive ArraySpec where
  /-- Not an array. -/
  | single
  /-- `T[size]`. -/
  | fixed (size : Nat)
  /-- `T[<=bound]`. -/
  | bounded (bound : Nat)
  /-- `T[]`. -/
  | unbounded
  deriving DecidableEq, Repr

namespace ArraySpec

/-- `is_array_`. -/
def isArray : ArraySpec → Bool
  | single => false
  | _ => true

/-- `array_size_`. -/
def arraySize : ArraySpec → Nat
  | single => 0
  | fixed size => size
  | bounded bound => bound
  | unbounded => 0

/-- `is_upper_bound_`. -/
def isUpperBound : ArraySpec → Bool
  | bounded _ => true
  | _ => false

end ArraySpec

/-- `MessageMember`; `members` is what `members_->data` leads to, empty but for messages. -/
structure MessageMember where
  name : String
  typeId : TypeId
  array : ArraySpec
  members : List MessageMember

/-- One stored element: the raw bytes of a scalar, a `std::string`, or a message object. -/
inductive Elem where
  | raw (bytes : List UInt8)
  | str (bytes : List UInt8)
  | msg (fields : List (List Elem))

/-- What is stored at a member's address. -/
abbrev Slot := List Elem

/-- A message object: one slot for each member. -/
abbrev MsgObject := List Slot

/-- `MessageMembers`: the description of a whole message type. -/
structure MessageMembers where
  /-- `size_of_`. -/
  sizeOf : Nat
  members : List MessageMember
  /-- The object `init_function` constructs; `none` for a null pointer. -/
  initFunction : Option MsgObject
  /-- Whether `fini_function` is set. -/
  finiFunction : Bool

/--
A member together with the name of the message type it leads to, which generated
descriptions carry and neither conversion looks at.
-/
structure NamedMember where
  name : String
  typeId : TypeId
  array : ArraySpec
  /-- `message_namespace_` of `members_->data`, such as `std_msgs::msg`. -/
  messageNamespace : String
  /-- `message_name_` of `members_->data`. -/
  messageName : String
  members : List NamedMember

namespace NamedMember

mutual

/-- What the conversions see of a member. -/
def erase : NamedMember → MessageMember
  | ⟨name, typeId, array, _, _, subMembers⟩ => ⟨name, typeId, array, eraseAll subMembers⟩

def eraseAll : List NamedMember → List MessageMember
  | [] => []
  | member :: members => erase member :: eraseAll members

end

/-- The member holds values of `std_msgs/Header`. -/
def isHeader (member : NamedMember) : Bool :=
  member.typeId == .message && member.messageNamespace == "std_msgs::msg"
    && member.messageName == "Header"

end NamedMember

namespace Slot

/-- The bytes stored inline at the address of a slot of scalars. -/
def bytes (slot : Slot) : List UInt8 :=
  slot.flatMap fun e => match e with
    | .raw bs => bs
    | _ => []

/-- The fields of the message object stored at the address, empty if there is none. -/
def fields (slot : Slot) : MsgObject :=
  match slot with
  | .msg fs :: _ => fs
  | _ => []

end Slot

end RosserialServer
