import RosserialServer.RosAdapter.RosMessageAdapter

/-!
# The values of a type and their packed encoding

What the two conversions are for, said without them: which message objects are values of
a type description, and which bytes ROS 1 has for such a value. The members follow each
other in their order and without padding; a string stands behind its length, a sequence
of variable length behind the number of its elements, and the elements of a fixed array
stand alone.
-/

namespace RosserialServer

open Bytes

/-- The size of a stored scalar of each kind. -/
def typeSize : TypeId → Option Nat
  | .boolean | .octet | .char | .uint8 | .int8 => some 1
  | .uint16 | .int16 | .wchar => some 2
  | .int32 | .uint32 | .float => some 4
  | .int64 | .uint64 | .double => some 8
  | .longDouble => some 16
  | .string | .wstring | .message => none

theorem typeSize_of_scalarSize {typeId : TypeId} {n : Nat} (h : scalarSize typeId = some n) :
    typeSize typeId = some n := by
  cases typeId <;> first | exact h | exact absurd h (by simp [scalarSize])

/-- The numbers of elements a member can hold. -/
def ArraySpec.Fits : ArraySpec → Nat → Prop
  | single, n => n = 1
  | fixed size, n => n = size
  | bounded bound, n => n ≤ bound
  | unbounded, _ => True

/-- The message objects that are values of a type. -/
inductive HasType : List MessageMember → MsgObject → Prop
  | nil : HasType [] []
  | scalars {name : String} {typeId : TypeId} {array : ArraySpec}
      {subMembers members : List MessageMember} {obj : MsgObject} {n : Nat}
      (raws : List (List UInt8)) (size : typeSize typeId = some n)
      (each : ∀ raw ∈ raws, raw.length = n) (count : array.Fits raws.length)
      (rest : HasType members obj) :
      HasType (⟨name, typeId, array, subMembers⟩ :: members) (raws.map .raw :: obj)
  | texts {name : String} {typeId : TypeId} {array : ArraySpec}
      {subMembers members : List MessageMember} {obj : MsgObject} (texts : List (List UInt8))
      (kind : typeId = .string ∨ typeId = .wstring) (count : array.Fits texts.length)
      (rest : HasType members obj) :
      HasType (⟨name, typeId, array, subMembers⟩ :: members) (texts.map .str :: obj)
  | messages {name : String} {array : ArraySpec} {subMembers members : List MessageMember}
      {obj : MsgObject} (objs : List MsgObject) (inner : ∀ fields ∈ objs, HasType subMembers fields)
      (count : array.Fits objs.length) (rest : HasType members obj) :
      HasType (⟨name, .message, array, subMembers⟩ :: members) (objs.map .msg :: obj)

mutual

def memberProper : MessageMember → Prop
  | ⟨_, _, array, subMembers⟩ =>
      (∀ bound, array = .bounded bound → 0 < bound) ∧ Proper subMembers

/-- Every bounded sequence has a positive bound, as message definitions must. -/
def Proper : List MessageMember → Prop
  | [] => True
  | member :: members => memberProper member ∧ Proper members

end

/-- What stands in front of the elements of a member. -/
def countBytes (array : ArraySpec) (n : Nat) : List UInt8 :=
  match array with
  | .single => []
  | .fixed _ => []
  | .bounded _ => leBytes 4 n
  | .unbounded => leBytes 4 n

mutual

def memberPacked (seqs : MessageMember → Bool) (slot : Slot) : MessageMember → List UInt8
  | ⟨name, typeId, array, subMembers⟩ =>
      (if seqs ⟨name, typeId, array, subMembers⟩ then leBytes 4 0 else [])
        ++ countBytes array slot.length
        ++ slot.flatMap fun e =>
          match e with
          | .raw bs => bs
          | .str bs => leBytes 4 bs.length ++ bs
          | .msg fields => packed seqs fields subMembers

/-- The packed encoding of a message object, with a `seq` of zero in front of the members
that `seqs` says have one. -/
def packed (seqs : MessageMember → Bool) (msgObj : MsgObject) : List MessageMember → List UInt8
  | [] => []
  | member :: members =>
      memberPacked seqs (msgObj.headD []) member ++ packed seqs msgObj.tail members

end

/-- No `seq` anywhere, as in a type without headers. -/
def noSeq : MessageMember → Bool := fun _ => false

/-! ## Every type has a value -/

/-- How many elements the sample value has for a member. -/
def sampleCount : ArraySpec → Nat
  | .single => 1
  | .fixed size => size
  | .bounded _ => 0
  | .unbounded => 1

theorem sampleCount_fits (array : ArraySpec) : array.Fits (sampleCount array) := by
  cases array with
  | single => rfl
  | fixed size => rfl
  | bounded bound => exact Nat.zero_le bound
  | unbounded => trivial

mutual

def memberSample : MessageMember → Slot
  | ⟨_, typeId, array, subMembers⟩ =>
      match typeId with
      | .string => (List.replicate (sampleCount array) []).map .str
      | .wstring => (List.replicate (sampleCount array) []).map .str
      | .message => (List.replicate (sampleCount array) (sample subMembers)).map .msg
      | _ => (List.replicate (sampleCount array)
          (List.replicate ((typeSize typeId).getD 0) 0)).map .raw

/-- A value with zeros for numbers, empty strings, and one element in each unbounded sequence. -/
def sample : List MessageMember → MsgObject
  | [] => []
  | member :: members => memberSample member :: sample members

end

/-- The sample value of a scalar member. -/
theorem memberSample_scalar {name : String} {typeId : TypeId} {array : ArraySpec}
    {subMembers : List MessageMember} {n : Nat} (h : typeSize typeId = some n) :
    memberSample ⟨name, typeId, array, subMembers⟩
      = (List.replicate (sampleCount array) (List.replicate n 0)).map .raw := by
  unfold memberSample
  cases typeId with
  | string => exact absurd h (by simp [typeSize])
  | wstring => exact absurd h (by simp [typeSize])
  | message => exact absurd h (by simp [typeSize])
  | _ =>
      obtain rfl := Option.some.inj h
      rfl

mutual

theorem memberSample_hasType : ∀ (member : MessageMember) {members : List MessageMember}
    {obj : MsgObject}, HasType members obj → HasType (member :: members) (memberSample member :: obj)
  | ⟨name, typeId, array, subMembers⟩, members, obj, h => by
      have hcount := sampleCount_fits array
      cases hsize : typeSize typeId with
      | some n =>
          rw [memberSample_scalar hsize]
          refine HasType.scalars _ hsize ?_ (by rwa [List.length_replicate]) h
          intro raw hraw
          rw [List.eq_of_mem_replicate hraw, List.length_replicate]
      | none =>
          have hkind : typeId = .message ∨ typeId = .string ∨ typeId = .wstring := by
            cases typeId <;> simp [typeSize] at hsize ⊢
          rcases hkind with rfl | rfl | rfl
          · rw [memberSample]
            refine HasType.messages _ ?_ (by rwa [List.length_replicate]) h
            intro fields hfields
            rw [List.eq_of_mem_replicate hfields]
            exact sample_hasType subMembers
          · exact HasType.texts _ (Or.inl rfl) (by rwa [List.length_replicate]) h
          · exact HasType.texts _ (Or.inr rfl) (by rwa [List.length_replicate]) h

theorem sample_hasType : ∀ members : List MessageMember, HasType members (sample members)
  | [] => HasType.nil
  | member :: members => memberSample_hasType member (sample_hasType members)

end

end RosserialServer
