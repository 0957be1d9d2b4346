import RosserialServer.Lib.Outcome
import RosserialServer.Proof.BufferWrites
import RosserialServer.Proof.Frames
import RosserialServer.Transport.AsyncWriteBuffer

/-!
# Framing

What `packaging_msg` builds is a packet (`packagingMsg_spec`), so what becomes of its
frames on the other side is a question about `Packet.accepted`: the encoder stores the
complement of a sum reduced modulo 256, the decoder adds three unreduced terms. The
two agree exactly when the reduced payload sum and the reduced topic sum add up without
a carry (`framed_accepted_iff`), and a frame is lost otherwise.

`corruption_contained` is the companion for a frame whose contents are damaged on the
way: the header alone decides how much is consumed.
-/

namespace RosserialServer

open Bytes Outcome RosStream

/-! ## The encoder -/

/-- The packet `packaging_msg` makes of what was written to `serialMsg`. -/
def framed (serialMsg : WriteBuffer) (topicId : UInt16) : Packet where
  topicId := topicId
  payload := serialMsg.serialMsg.take (serialMsg.writeLen % 2 ^ 16)
  checksum := 0xFF - (datasumForCheckStream
    (ofBuffer (serialMsg.serialMsg.take (serialMsg.writeLen % 2 ^ 16))) + datasumForCheck topicId)
  short := by
    rw [List.length_take]
    omega

theorem framed_payload {serialMsg : WriteBuffer} (topicId : UInt16)
    (h : serialMsg.writeLen < 2 ^ 16) : (framed serialMsg topicId).payload = serialMsg.written := by
  show serialMsg.serialMsg.take (serialMsg.writeLen % 2 ^ 16) = _
  rw [Nat.mod_eq_of_lt h]
  rfl

theorem length_framed_payload (serialMsg : WriteBuffer) (topicId : UInt16) :
    (framed serialMsg topicId).payload.length = serialMsg.writeLen % 2 ^ 16 := by
  have hle := serialMsg.written_le
  have hmod := Nat.mod_le serialMsg.writeLen (2 ^ 16)
  show (serialMsg.serialMsg.take (serialMsg.writeLen % 2 ^ 16)).length = _
  rw [List.length_take]
  omega

/-- The payload goes into the frame, also from an empty vector, whose data pointer is null. -/
theorem write_payload (b serialMsg : WriteBuffer) (topicId : UInt16) :
    ∃ b', b.bufferWrite serialMsg.getData (serialMsg.writeLen % 2 ^ 16) = .ok b'
      ∧ b.Wrote (framed serialMsg topicId).payload b' := by
  have hle := serialMsg.written_le
  have hmod := Nat.mod_le serialMsg.writeLen (2 ^ 16)
  unfold WriteBuffer.getData
  split
  · rename_i hempty
    have hzero : serialMsg.writeLen % 2 ^ 16 = 0 := by
      rw [hempty, List.length_nil] at hle
      omega
    have hpay : (framed serialMsg topicId).payload = [] := by
      apply List.eq_nil_of_length_eq_zero
      rw [length_framed_payload, hzero]
    rw [hzero, hpay]
    exact ⟨b, rfl, WriteBuffer.Wrote.refl b⟩
  · exact WriteBuffer.bufferWrite_ok b _ (by omega)

/-- The checksum is taken over the payload. -/
theorem datasum_payload (serialMsg : WriteBuffer) (topicId : UInt16) :
    datasumForCheckStream (ofPointer serialMsg.getData (serialMsg.writeLen % 2 ^ 16))
      = datasumForCheckStream (ofBuffer (framed serialMsg topicId).payload) := by
  have hlen := length_framed_payload serialMsg topicId
  unfold WriteBuffer.getData
  split
  · rename_i hempty
    have hle := serialMsg.written_le
    have hmod := Nat.mod_le serialMsg.writeLen (2 ^ 16)
    have hzero : serialMsg.writeLen % 2 ^ 16 = 0 := by
      rw [hempty, List.length_nil] at hle
      omega
    rw [hzero, List.eq_nil_of_length_eq_zero (hlen.trans hzero)]
    rfl
  · unfold ofPointer ofBuffer
    rw [hlen]
    rfl

/-- **`packaging_msg` always returns, and what it returns is one whole packet.** -/
theorem packagingMsg_spec (serialMsg : WriteBuffer) (topicId : UInt16) :
    ∃ b, packagingMsg serialMsg topicId = .ok b
      ∧ b.getVector = (framed serialMsg topicId).bytes := by
  have hfield : (UInt16.ofNat serialMsg.getWriteLen).toNat = serialMsg.writeLen % 2 ^ 16 :=
    UInt16.toNat_ofNat'
  have hlength : UInt16.ofNat serialMsg.getWriteLen = (framed serialMsg topicId).length := by
    rw [← UInt16.toNat_inj, Packet.length_toNat, length_framed_payload, hfield]
  let length := UInt16.ofNat (8 + (UInt16.ofNat serialMsg.getWriteLen).toNat)
  let b₀ := WriteBuffer.new length.toNat
  let check := 0xFF - (datasumForCheckStream
    (ofPointer serialMsg.getData (serialMsg.writeLen % 2 ^ 16)) + datasumForCheck topicId)
  -- the six writes, one behind the other
  obtain ⟨b₁, h₁, w₁⟩ := WriteBuffer.bufferWrite_ok b₀ [0xFF, 0xFE] (n := 2) (by simp)
  obtain ⟨b₂, h₂, w₂⟩ := WriteBuffer.bufferWrite_ok b₁
    (leBytes 2 (UInt16.ofNat serialMsg.getWriteLen).toNat) (n := 2) (by simp)
  obtain ⟨b₃, h₃, w₃⟩ := WriteBuffer.bufferWrite_ok b₂
    [0xFF - datasumForCheck (UInt16.ofNat serialMsg.getWriteLen)] (n := 1) (by simp)
  obtain ⟨b₄, h₄, w₄⟩ := WriteBuffer.bufferWrite_ok b₃ (leBytes 2 topicId.toNat) (n := 2)
    (by simp)
  obtain ⟨b₅, h₅, w₅⟩ := write_payload b₄ serialMsg topicId
  obtain ⟨b₆, h₆, w₆⟩ := WriteBuffer.bufferWrite_ok b₅ [check] (n := 1) (by simp)
  have hok : packagingMsg serialMsg topicId = .ok b₆ := by
    unfold packagingMsg
    show b₀.bufferWrite _ 2 >>= _ = _
    rw [h₁, ok_bind, h₂, ok_bind]
    dsimp only
    rw [h₃, ok_bind, h₄, ok_bind, hfield, h₅, ok_bind]
    exact h₆
  have hw := ((((w₁.trans w₂).trans w₃).trans w₄).trans w₅).trans w₆
  have hcheck : check = (framed serialMsg topicId).checksum := by
    show 0xFF - (datasumForCheckStream _ + _) = _
    rw [datasum_payload serialMsg topicId]
    rfl
  have hbytes : b₆.written = (framed serialMsg topicId).bytes := by
    rw [hw.written, hlength, hcheck]
    show ([] : List UInt8) ++ _ = _
    unfold Packet.bytes Packet.header Packet.contents
    rw [List.take_of_length_le (by simp), List.take_of_length_le (by simp),
      List.take_of_length_le (by simp), List.take_of_length_le (by simp),
      List.take_of_length_le (by simp)]
    simp only [List.nil_append, List.append_assoc]
    rfl
  refine ⟨b₆, hok, ?_⟩
  -- the vector was made no larger than the frame, so it ends up full
  rw [WriteBuffer.written_full, hbytes]
  have hlen := congrArg List.length hbytes
  rw [WriteBuffer.length_written, Packet.length_bytes, length_framed_payload] at hlen
  have hvec := hw.length
  have hwl := hw.writeLen
  have hnew : b₀.serialMsg.length = length.toNat := List.length_replicate
  have hsmall : length.toNat ≤ 8 + serialMsg.writeLen % 2 ^ 16 := by
    show (UInt16.ofNat _).toNat ≤ _
    rw [UInt16.toNat_ofNat', hfield]
    exact Nat.mod_le _ _
  omega

/-- **Where encoder and decoder agree**: the two reduced sums must not carry. -/
theorem framed_accepted_iff {serialMsg : WriteBuffer} (topicId : UInt16)
    (h : serialMsg.writeLen < 2 ^ 16) :
    (framed serialMsg topicId).accepted
      ↔ byteSum serialMsg.written % 256 + (datasumForCheck topicId).toNat ≤ 255 := by
  have hpay := framed_payload topicId h
  have hlen := length_framed_payload serialMsg topicId
  have hsum := datasumForCheckStream_toNat (framed serialMsg topicId).payload (by omega)
  have hcheck : (framed serialMsg topicId).checksum = 0xFF -
      (datasumForCheckStream (ofBuffer (framed serialMsg topicId).payload)
        + datasumForCheck topicId) := rfl
  have htopic := (datasumForCheck topicId).toNat_lt
  unfold Packet.accepted bodyAccepted
  -- the encoder's sum wraps at 256, the decoder's does not
  rw [beq_iff_eq, hcheck, UInt8.toNat_sub, UInt8.toNat_add, hsum, hpay]
  show _ + (datasumForCheck topicId).toNat + _ = 255 ↔ _
  show _ + _ + (2 ^ 8 - _ + 255) % 2 ^ 8 = 255 ↔ _
  omega

/-! ## Encoder and decoder together -/

section RoundTrip

variable {τ : Type} {dispatch : Dispatch τ}

/-- The frames of a list of messages, each a packet. -/
theorem frames_each (msgs : List (UInt16 × WriteBuffer)) :
    ∃ frames, msgs.mapM (fun m => packagingMsg m.2 m.1) = .ok frames
      ∧ frames.map WriteBuffer.getVector = (msgs.map fun m => framed m.2 m.1).map Packet.bytes := by
  induction msgs with
  | nil => exact ⟨[], rfl, rfl⟩
  | cons m msgs ih =>
      obtain ⟨b, hb, hbytes⟩ := packagingMsg_spec m.2 m.1
      obtain ⟨rest, hrest, hrestBytes⟩ := ih
      refine ⟨b :: rest, ?_, ?_⟩
      · rw [List.mapM_cons, hb, ok_bind, hrest]
        rfl
      · rw [List.map_cons, List.map_cons, List.map_cons, hbytes, hrestBytes]

/-- The frames one after the other. -/
theorem frames_spec (msgs : List (UInt16 × WriteBuffer)) :
    ∃ frames, msgs.mapM (fun m => packagingMsg m.2 m.1) = .ok frames
      ∧ frames.flatMap WriteBuffer.getVector
        = (msgs.map fun m => framed m.2 m.1).flatMap Packet.bytes := by
  obtain ⟨frames, hframes, hbytes⟩ := frames_each msgs
  refine ⟨frames, hframes, ?_⟩
  rw [List.flatMap_def, hbytes, ← List.flatMap_def]

/-- What a session dispatches of a list of frames. -/
theorem frames_settle (hr : Returns dispatch) (tables : τ) (msgs : List (UInt16 × WriteBuffer))
    (hlen : ∀ m ∈ msgs, m.2.writeLen ≤ 511) {wire : List (List UInt8)}
    (hw : wire.flatten = (msgs.map fun m => framed m.2 m.1).flatMap Packet.bytes) :
    Lts.Inevitably (ReadWorld.quietStep (handle dispatch))
      (Idle ((msgs.map fun m => framed m.2 m.1).filterMap Packet.delivered))
      (startRead tables wire) := by
  refine packets_settle hr ?_ tables hw
  intro p hp
  obtain ⟨m, hm, rfl⟩ := List.mem_map.mp hp
  have := hlen m hm
  rw [length_framed_payload]
  show _ < 512
  omega

theorem framed_delivered {m : UInt16 × WriteBuffer} (h : m.2.writeLen ≤ 511) :
    (framed m.2 m.1).delivered
      = if (framed m.2 m.1).accepted then some (m.1, m.2.written) else none := by
  rw [← framed_payload m.1 (by omega)]
  rfl

/-- Delivering every message of a list is delivering each. -/
theorem delivered_all_iff {msgs : List (UInt16 × WriteBuffer)}
    (hlen : ∀ m ∈ msgs, m.2.writeLen ≤ 511) :
    (msgs.map fun m => framed m.2 m.1).filterMap Packet.delivered
        = msgs.map (fun m => (m.1, m.2.written))
      ↔ ∀ m ∈ msgs, (framed m.2 m.1).accepted := by
  constructor
  · intro h m hm
    -- as many packets are delivered as were sent, so none was dropped
    have hcount := congrArg List.length h
    have hmap : (msgs.map fun m => framed m.2 m.1).length = msgs.length := by simp
    rw [List.length_map, ← hmap, List.filterMap_length_eq_length] at hcount
    have hsome := hcount _ (List.mem_map_of_mem hm)
    rw [framed_delivered (hlen m hm)] at hsome
    by_contra hacc
    rw [if_neg hacc] at hsome
    exact absurd hsome (by simp)
  · intro h
    rw [List.filterMap_map]
    induction msgs with
    | nil => rfl
    | cons m msgs ih =>
        have hm : (Packet.delivered ∘ fun m : UInt16 × WriteBuffer => framed m.2 m.1) m
            = some (m.1, m.2.written) := by
          show (framed m.2 m.1).delivered = _
          rw [framed_delivered (hlen m (by simp)), if_pos (h m (by simp))]
        rw [List.filterMap_cons_some hm, List.map_cons,
          ih (fun q hq => hlen q (by simp [hq])) (fun q hq => h q (by simp [hq]))]

/--
**The framing round trip, and its exact condition.** A list of messages comes out as it
went in if and only if no message's payload sum and topic sum, each modulo 256, carry.
-/
theorem framing_roundtrip_iff (hr : Returns dispatch) (tables : τ)
    (msgs : List (UInt16 × WriteBuffer)) (hlen : ∀ m ∈ msgs, m.2.writeLen ≤ 511) :
    ∃ frames, msgs.mapM (fun m => packagingMsg m.2 m.1) = .ok frames
      ∧ ∀ wire : List (List UInt8), wire.flatten = frames.flatMap WriteBuffer.getVector →
        (Lts.Inevitably (ReadWorld.quietStep (handle dispatch))
            (Idle (msgs.map fun m => (m.1, m.2.written))) (startRead tables wire)
          ↔ ∀ m ∈ msgs, byteSum m.2.written % 256 + (datasumForCheck m.1).toNat ≤ 255) := by
  obtain ⟨frames, hf, hbytes⟩ := frames_spec msgs
  refine ⟨frames, hf, ?_⟩
  intro wire hw
  have hsettle := frames_settle hr tables msgs hlen (hw.trans hbytes)
  have hall : (∀ m ∈ msgs, (framed m.2 m.1).accepted)
      ↔ ∀ m ∈ msgs, byteSum m.2.written % 256 + (datasumForCheck m.1).toNat ≤ 255 :=
    forall₂_congr fun m hm => framed_accepted_iff m.1 (by have := hlen m hm; omega)
  rw [← hall, ← delivered_all_iff hlen]
  constructor
  · intro h
    obtain ⟨w, hi, hi'⟩ := hsettle.meet h
    rw [← hi.dispatched, hi'.dispatched]
  · intro h
    rwa [h] at hsettle

/-- Two messages whose sums do not carry, the second without a payload. -/
theorem framing_roundtrip_pair :
    ∃ frames, [((6 : UInt16), WriteBuffer.mk 2 [1, 2] (by decide)), (7, ⟨0, [], by decide⟩)].mapM
        (fun m => packagingMsg m.2 m.1) = .ok frames
      ∧ Lts.Inevitably (ReadWorld.quietStep (handle ignoring)) (Idle [(6, [1, 2]), (7, [])])
        (startRead () (frames.map WriteBuffer.getVector)) := by
  obtain ⟨frames, hf, hiff⟩ := framing_roundtrip_iff ignoring_returns ()
    [(6, ⟨2, [1, 2], by decide⟩), (7, ⟨0, [], by decide⟩)] (by decide)
  exact ⟨frames, hf, (hiff _ (List.flatMap_def ..).symm).mpr (by decide)⟩

/-- The byte 1 for topic 255: the sums are 1 and 255, and the frame is lost. -/
theorem framing_roundtrip_carry :
    ∃ frame, packagingMsg ⟨1, [1], by decide⟩ 255 = .ok frame
      ∧ ¬Lts.Inevitably (ReadWorld.quietStep (handle ignoring)) (Idle [(255, [1])])
        (startRead () [frame.getVector]) := by
  refine ⟨_, rfl, fun h => ?_⟩
  have hsettle := frames_settle ignoring_returns () [((255 : UInt16), ⟨1, [1], by decide⟩)]
    (by decide) rfl
  obtain ⟨w, hi, hi'⟩ := hsettle.meet h
  have hlost : ([(255, ⟨1, [1], by decide⟩)].map fun m : UInt16 × WriteBuffer =>
      framed m.2 m.1).filterMap Packet.delivered = [] := by decide
  have := hi.dispatched
  rw [hlost, hi'.dispatched] at this
  exact absurd this (by simp)

end RoundTrip

/-! ## Damage to one packet's contents -/

/-- Any bytes of the right number are the contents of a packet with the same header. -/
theorem exists_contents (p : Packet) {contents : List UInt8}
    (h : contents.length = p.contents.length) :
    ∃ q : Packet, q.header = p.header ∧ q.contents = contents
      ∧ q.payload.length = p.payload.length := by
  unfold Packet.contents at h
  simp only [List.length_append, length_leBytes, List.length_singleton] at h
  obtain ⟨t0, t1, tail, rfl⟩ : ∃ t0 t1 tail, contents = t0 :: t1 :: tail := by
    match contents, h with
    | [], h => exact absurd h (by simp only [List.length_nil]; omega)
    | [_], h => exact absurd h (by simp only [List.length_cons, List.length_nil]; omega)
    | t0 :: t1 :: tail, _ => exact ⟨t0, t1, tail, rfl⟩
  have htail : tail ≠ [] := by
    intro hnil
    rw [hnil] at h
    simp only [List.length_cons, List.length_nil] at h
    omega
  have hlen : tail.dropLast.length = p.payload.length := by
    rw [List.length_dropLast]
    simp only [List.length_cons] at h
    omega
  refine ⟨⟨word t0 t1, tail.dropLast, tail.getLast htail, ?_⟩, ?_, ?_, hlen⟩
  · rw [hlen]
    exact p.short
  · unfold Packet.header Packet.length
    rw [hlen]
  · unfold Packet.contents
    rw [leBytes_word, List.append_assoc, List.dropLast_append_getLast htail]
    rfl

/--
**Damage stays in its packet.** If the bytes of one packet after its header are replaced
by any others, the session consumes both streams whole and ends in the same phase, and
dispatches the same for all other packets.
-/
theorem corruption_contained {τ : Type} {dispatch : Dispatch τ} (hr : Returns dispatch)
    (tables : τ) (ps : List Packet) (hlen : ∀ p ∈ ps, p.payload.length ≤ 511) (k : Nat)
    (hk : k < ps.length) (contents : List UInt8)
    (hc : contents.length = ps[k].contents.length) (wire wire' : List (List UInt8))
    (hw : wire.flatten = ps.flatMap Packet.bytes)
    (hw' : wire'.flatten = (ps.take k).flatMap Packet.bytes ++ (ps[k].header ++ contents)
      ++ (ps.drop (k + 1)).flatMap Packet.bytes) :
    ∃ own own' : Option (UInt16 × List UInt8),
      Lts.Inevitably (ReadWorld.quietStep (handle dispatch))
        (Idle ((ps.take k).filterMap Packet.delivered ++ own.toList
          ++ (ps.drop (k + 1)).filterMap Packet.delivered)) (startRead tables wire)
      ∧ Lts.Inevitably (ReadWorld.quietStep (handle dispatch))
        (Idle ((ps.take k).filterMap Packet.delivered ++ own'.toList
          ++ (ps.drop (k + 1)).filterMap Packet.delivered)) (startRead tables wire') := by
  obtain ⟨q, hhead, hcont, hqlen⟩ := exists_contents ps[k] hc
  have hshort : ∀ p ∈ ps, p.payload.length < readerCapacity := by
    intro p hp
    have := hlen p hp
    show _ < 512
    omega
  have hsplit : ps = ps.take k ++ ps[k] :: ps.drop (k + 1) := by
    rw [List.getElem_cons_drop, List.take_append_drop]
  have hshort' : ∀ p ∈ ps.take k ++ q :: ps.drop (k + 1), p.payload.length < readerCapacity := by
    intro p hp
    rcases List.mem_append.mp hp with hp | hp
    · exact hshort p (List.mem_of_mem_take hp)
    · rcases List.mem_cons.mp hp with rfl | hp
      · rw [hqlen]
        exact hshort _ (List.getElem_mem hk)
      · exact hshort p (List.mem_of_mem_drop hp)
  have hbytes : (ps.take k ++ q :: ps.drop (k + 1)).flatMap Packet.bytes = wire'.flatten := by
    rw [hw', List.flatMap_append, List.flatMap_cons, ← hhead, ← hcont, List.append_assoc]
    rfl
  have hdel : ∀ p : Packet, (ps.take k ++ p :: ps.drop (k + 1)).filterMap Packet.delivered
      = (ps.take k).filterMap Packet.delivered ++ p.delivered.toList
        ++ (ps.drop (k + 1)).filterMap Packet.delivered := by
    intro p
    rw [List.filterMap_append, List.filterMap_cons, List.append_assoc]
    cases p.delivered <;> rfl
  -- both streams are runs of packets, which differ in one place
  refine ⟨ps[k].delivered, q.delivered, ?_, ?_⟩
  · have := packets_settle hr hshort tables hw
    rwa [hsplit, hdel] at this
  · have := packets_settle hr hshort' tables hbytes.symm
    rwa [hdel] at this

/-- The first of two packets is overwritten with sync bytes. -/
theorem corruption_contained_pair :
    ∃ own own' : Option (UInt16 × List UInt8),
      Lts.Inevitably (ReadWorld.quietStep (handle ignoring))
        (Idle (own.toList ++ [(7, [3])]))
        (startRead () [[0xFF, 0xFE, 2, 0, 0xFD, 6, 0, 1, 2, 0xF6],
          [0xFF, 0xFE, 1, 0, 0xFE, 7, 0, 3, 0xF5]])
      ∧ Lts.Inevitably (ReadWorld.quietStep (handle ignoring))
        (Idle (own'.toList ++ [(7, [3])]))
        (startRead () [[0xFF, 0xFE, 2, 0, 0xFD, 0xFF, 0xFE, 0xFF, 0xFE, 0],
          [0xFF, 0xFE, 1, 0, 0xFE, 7, 0, 3, 0xF5]]) := by
  have h := corruption_contained ignoring_returns ()
    [⟨6, [1, 2], 0xF6, by decide⟩, ⟨7, [3], 0xF5, by decide⟩] (by decide) 0 (by decide)
    [0xFF, 0xFE, 0xFF, 0xFE, 0] (by decide)
    [[0xFF, 0xFE, 2, 0, 0xFD, 6, 0, 1, 2, 0xF6], [0xFF, 0xFE, 1, 0, 0xFE, 7, 0, 3, 0xF5]]
    [[0xFF, 0xFE, 2, 0, 0xFD, 0xFF, 0xFE, 0xFF, 0xFE, 0], [0xFF, 0xFE, 1, 0, 0xFE, 7, 0, 3, 0xF5]]
    (by decide) (by decide)
  have hlast : ([⟨7, [3], 0xF5, by decide⟩] : List Packet).filterMap Packet.delivered
    = [(7, [3])] := by decide
  rw [← hlast]
  exact h

end RosserialServer
