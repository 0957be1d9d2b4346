import RosserialServer.Proof.Subscribing

/-!
# Long messages

`data_len` is a `uint16_t`, so a message of 65536 bytes or more is framed by its first
`get_write_len() % 65536` bytes, with a length field and two checksums that fit them: the
frame is well formed, and nothing in it tells that the rest of the message is missing
(`truncated_frame`). Below 65536 bytes nothing is lost, also where the total length wraps.
-/

namespace RosserialServer

open Bytes MemBlock

/-- The frame announces the message's written length, and has every byte written in its place. -/
structure CarriesWhole (serialMsg : WriteBuffer) (topicId : UInt16) (frame : List UInt8) :
    Prop where
  sync : slice frame 0 2 = [0xFF, 0xFE]
  field : leNat (slice frame 2 2) = serialMsg.getWriteLen
  topic : leNat (slice frame 5 2) = topicId.toNat
  payload : slice frame 7 serialMsg.getWriteLen = serialMsg.written
  length : frame.length = 8 + serialMsg.getWriteLen

/-- `write_to_serial` queues one frame that carries the whole message, or nothing. -/
def QueuesWhole (b : AsyncWriteBuffer) (serialMsg : WriteBuffer) (topicId : UInt16) : Prop :=
  match b.writeToSerial serialMsg topicId with
  | .error _ => True
  | .ok (b', _) =>
      b'.sendBufs = b.sendBufs
        ∨ ∃ frame, b'.sendBufs = b.sendBufs ++ [frame] ∧ CarriesWhole serialMsg topicId frame

/-- The parts of a packet, read off its bytes. -/
theorem Packet.parts (p : Packet) :
    slice p.bytes 0 2 = [0xFF, 0xFE] ∧ leNat (slice p.bytes 2 2) = p.payload.length
      ∧ leNat (slice p.bytes 5 2) = p.topicId.toNat
      ∧ slice p.bytes 7 p.payload.length = p.payload := by
  obtain ⟨lo, hi, t0, t1, hlen, htopic, hbytes⟩ := p.bytes_eq
  have hword : ∀ a b : UInt8, leNat [a, b] = (word a b).toNat := by
    intro a b
    rw [word_toNat]
    simp only [leNat]
    omega
  rw [hbytes]
  refine ⟨rfl, ?_, ?_, ?_⟩
  · show leNat [lo, hi] = _
    rw [hword, hlen, Packet.length_toNat]
  · show leNat [t0, t1] = _
    rw [hword, htopic]
  · show (p.payload ++ [p.checksum]).take p.payload.length = p.payload
    rw [List.take_left]

/-- The one frame `write_to_serial` queues. -/
theorem queuesWhole_iff_framed (b : AsyncWriteBuffer) (serialMsg : WriteBuffer)
    (topicId : UInt16) :
    QueuesWhole b serialMsg topicId
      ↔ CarriesWhole serialMsg topicId (framed serialMsg topicId).bytes := by
  obtain ⟨started, hwrite⟩ := writeToSerial_spec b serialMsg topicId
  unfold QueuesWhole
  rw [hwrite]
  constructor
  · intro h
    rcases h with hsame | ⟨frame, happend, hwhole⟩
    · exact absurd hsame (by simp)
    · obtain rfl : (framed serialMsg topicId).bytes = frame := by simpa using happend
      exact hwhole
  · intro h
    exact Or.inr ⟨_, rfl, h⟩

/-- **A frame always announces what it carries**, and that is the length modulo 65536. -/
theorem truncated_frame (serialMsg : WriteBuffer) (topicId : UInt16) :
    leNat (slice (framed serialMsg topicId).bytes 2 2) = serialMsg.writeLen % 2 ^ 16
      ∧ slice (framed serialMsg topicId).bytes 7 (serialMsg.writeLen % 2 ^ 16)
        = serialMsg.written.take (serialMsg.writeLen % 2 ^ 16) := by
  obtain ⟨-, hfield, -, hpay⟩ := (framed serialMsg topicId).parts
  have hlen := length_framed_payload serialMsg topicId
  rw [hlen] at hfield hpay
  refine ⟨hfield, ?_⟩
  rw [hpay]
  show serialMsg.serialMsg.take _ = (serialMsg.serialMsg.take _).take _
  rw [List.take_take, Nat.min_eq_left (Nat.mod_le _ _)]

theorem not_carriesWhole_of_long {serialMsg : WriteBuffer} {topicId : UInt16}
    (h : 2 ^ 16 ≤ serialMsg.writeLen) :
    ¬CarriesWhole serialMsg topicId (framed serialMsg topicId).bytes := by
  intro hwhole
  have hfield := hwhole.field
  rw [(truncated_frame serialMsg topicId).1] at hfield
  have hmod := Nat.mod_lt serialMsg.writeLen (Nat.two_pow_pos 16)
  unfold WriteBuffer.getWriteLen at hfield
  omega

theorem carriesWhole_of_short {serialMsg : WriteBuffer} {topicId : UInt16}
    (h : serialMsg.writeLen < 2 ^ 16) :
    CarriesWhole serialMsg topicId (framed serialMsg topicId).bytes := by
  obtain ⟨hsync, hfield, htopic, hpay⟩ := (framed serialMsg topicId).parts
  have hlen := length_framed_payload serialMsg topicId
  rw [Nat.mod_eq_of_lt h] at hlen
  rw [hlen] at hfield hpay
  refine ⟨hsync, hfield, htopic, ?_, ?_⟩
  · exact hpay.trans (framed_payload topicId h)
  · rw [Packet.length_bytes, hlen, Nat.add_comm]
    rfl

/--
**A message is framed whole exactly below 65536 bytes.** From there on its frame carries
a part of it and announces that part.
-/
theorem queuesWhole_iff (b : AsyncWriteBuffer) (serialMsg : WriteBuffer) (topicId : UInt16) :
    QueuesWhole b serialMsg topicId ↔ serialMsg.getWriteLen < 2 ^ 16 := by
  rw [queuesWhole_iff_framed]
  constructor
  · intro hwhole
    by_contra hlong
    exact not_carriesWhole_of_long (Nat.le_of_not_lt hlong) hwhole
  · intro hshort
    exact carriesWhole_of_short hshort

/-- A message of 65536 zeros is queued as a frame without a payload. -/
theorem zeros_not_queued_whole :
    ¬QueuesWhole ⟨[]⟩ ⟨65536, List.replicate 65536 0, by rw [List.length_replicate]⟩ 101 := by
  rw [queuesWhole_iff_framed]
  exact not_carriesWhole_of_long (Nat.le_refl _)

end RosserialServer
