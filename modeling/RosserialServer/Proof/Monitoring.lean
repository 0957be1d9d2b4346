import RosserialServer.Proof.NodeRefine
import RosserialServer.Proof.Routing
import RosserialServer.Proof.Streaming

/-!
# What the sniffer sees on the line

The sniffer is what the developers look at the line with, so what it prints should be what
is going on. In the direction of the device it is: while no write fails, a capture of all
the node has written is the frames of its messages, in order and whole but for the last
one (`port_sniffed`). In the direction of the node it is not quite: the sniffer compares
checksums modulo 256, the session does not, and what the session dispatches are the frames
the sniffer finds good whose two sums do not carry (`receivers_agree`).
-/

namespace RosserialServer

open Bytes RosStream

/-! ## A capture of packets -/

theorem parseFrom_nothing (pre : List UInt8) :
    parseFrom (pre ++ []) pre.length = ([], pre.length) := by
  refine parseFrom_stop fun hle => ?_
  rw [List.append_nil] at hle
  omega

/-- **A capture of whole packets and a rest that ends nowhere.** -/
theorem capture_packets {args : SnifferArgs} (hargs : (args.frame || args.frameHex) = true)
    (hlimit : args.maxBytes ≤ 0) {ps : List Packet} {tail : List UInt8}
    (hstop : ∀ pre : List UInt8, parseFrom (pre ++ tail) pre.length = ([], pre.length))
    {chunks : List (List UInt8)} (hchunks : chunks.flatten = ps.flatMap Packet.bytes ++ tail) :
    (Capture.start.loop args chunks).frames.map (·.moveTo 0) = ps.map (·.sniffed 0)
      ∧ (Capture.start.loop args chunks).frameBuf = tail := by
  obtain ⟨hstreams, -, hall⟩ := Capture.loop_streams hargs chunks Capture.start_streams
  have hout : (Capture.start.loop args chunks).out = ps.flatMap Packet.bytes ++ tail :=
    (hall hlimit).trans hchunks
  have hparse : parseRosserialFrames (ps.flatMap Packet.bytes ++ tail)
      = (sniffedFrom 0 ps, 0 + (ps.flatMap Packet.bytes).length) := parseFrom_packets ps hstop []
  constructor
  · rw [hstreams.frames, hout, hparse]
    exact sniffedFrom_map _ _ (fun _ _ => rfl) 0 ps
  · rw [hstreams.left, hout, hparse, Nat.zero_add, List.drop_left]

/-! ## From the node to the device -/

/-- The packet of a message a subscription has delivered. -/
def IsPacketOf (p : Packet) (m : SerialSubscriber × Except StdException (Option MsgObject)) : Prop :=
  ∃ serialMsg, (m.1.streamDeserialized.subscribe m.2).2 = .ok serialMsg
    ∧ p = framed serialMsg m.1.topicInfo.topicId

theorem packets_of_frames {frames : List (List UInt8)}
    {messages : List (SerialSubscriber × Except StdException (Option MsgObject))}
    (h : List.Forall₂ IsFrameOf frames messages) :
    ∃ ps : List Packet, frames = ps.map Packet.bytes ∧ List.Forall₂ IsPacketOf ps messages := by
  induction h with
  | nil => exact ⟨[], rfl, List.Forall₂.nil⟩
  | cons hone _ ih =>
      obtain ⟨serialMsg, hsub, rfl⟩ := hone
      obtain ⟨ps, rfl, hps⟩ := ih
      exact ⟨framed serialMsg _ :: ps, rfl, List.Forall₂.cons ⟨serialMsg, hsub, rfl⟩ hps⟩

/-- The sniffer finds the checksums of messages' packets good. -/
theorem packets_good {ps : List Packet}
    {messages : List (SerialSubscriber × Except StdException (Option MsgObject))}
    (h : List.Forall₂ IsPacketOf ps messages) :
    ∀ p ∈ ps, (p.sniffed 0).lenChecksumOk = true ∧ (p.sniffed 0).msgChecksumOk = true := by
  induction h with
  | nil => simp
  | @cons _ m _ _ hone _ ih =>
      obtain ⟨serialMsg, -, rfl⟩ := hone
      intro q hq
      rcases List.mem_cons.mp hq with rfl | hq
      · exact ⟨rfl, framed_msgChecksumOk serialMsg m.1.topicInfo.topicId 0⟩
      · exact ih q hq

/-- The bytes are a piece of the packet that waits first, and not the whole of it. -/
def PieceOfNext (piece : List UInt8) (waiting : List Packet) : Prop :=
  piece = [] ∨ ∃ p rest, waiting = p :: rest ∧ piece <+: p.bytes ∧ piece.length < p.bytes.length

/--
What the port of an orderly writer has received of its packets: the first so many whole,
and a piece of the next that is not the whole of it.
-/
theorem orderly_port {s : WriteWorld} (h : s.Orderly) {ps : List Packet}
    (hcalls : s.calls = ps.map Packet.bytes) :
    ∃ sent waiting tail, ps = sent ++ waiting ∧ s.port = sent.flatMap Packet.bytes ++ tail
      ∧ (∀ pre : List UInt8, parseFrom (pre ++ tail) pre.length = ([], pre.length))
      ∧ PieceOfNext tail waiting ∧ (s.writer.sendBufs = [] → waiting = []) := by
  have hserial := h.serial
  have hacc : s.calls = s.settled.map Prod.fst ++ s.writer.sendBufs := h.accounted
  have hport := h.clean.port
  rw [hcalls] at hacc
  obtain ⟨done, queued, rfl, hdone, hqueued⟩ := List.map_eq_append_iff.mp hacc
  have hwhole : (s.settled.map Prod.fst).flatten = done.flatMap Packet.bytes := by
    rw [← hdone, List.flatMap_def]
  rw [hwhole] at hport
  generalize hbufs : s.writer.sendBufs = bufs at hserial hqueued
  generalize hops : s.inFlight = ops at hserial
  cases hserial with
  | idle =>
      obtain rfl : queued = [] := List.map_eq_nil_iff.mp hqueued
      refine ⟨done, [], [], rfl, ?_, parseFrom_nothing, Or.inl rfl, fun _ => rfl⟩
      rw [hport]
      unfold WriteWorld.underWay
      rw [hops]
      rfl
  | @busy frame rest sent hle =>
      obtain ⟨p, waiting, rfl, rfl, rfl⟩ := List.map_eq_cons_iff.mp hqueued
      have hunder : s.underWay = p.bytes.take sent := by
        unfold WriteWorld.underWay
        rw [hops, List.flatMap_singleton]
      rw [hunder] at hport
      by_cases hall : sent = p.bytes.length
      · -- all of the frame is out, and its handler has still to run
        refine ⟨done ++ [p], waiting, [], (List.append_cons done p waiting), ?_, parseFrom_nothing,
          Or.inl rfl, fun hno => absurd hno (by simp)⟩
        rw [hport, hall, List.take_length, List.flatMap_append, List.flatMap_singleton,
          List.append_nil]
      · refine ⟨done, p :: waiting, p.bytes.take sent, rfl, hport, ?_, ?_,
          fun hno => absurd hno (by simp)⟩
        · intro pre
          refine parseFrom_tail pre p (List.take_append_drop sent p.bytes).symm ?_
          intro hnone
          have hlen := congrArg List.length hnone
          rw [List.length_drop, List.length_nil] at hlen
          omega
        · refine Or.inr ⟨p, waiting, rfl, List.take_prefix sent p.bytes, ?_⟩
          rw [List.length_take]
          omega

/--
**What the sniffer sees of a node's messages.** If no write has failed, it finds in all
that the port has taken, however it is cut into chunks, the packets of the first so many
messages, in order and with good checksums, and keeps what there is of the next one, which
is a piece of it or nothing. When the queue is empty it has found those of all.
-/
theorem port_sniffed (env : RosEnv) (es : List NodeEvent) (w : NodeWorld)
    (hx : Lts.exec (NodeWorld.step env) .start es = some w)
    (hwell : ∀ x ∈ w.ran, x.fate ≠ some .discarded)
    (args : SnifferArgs) (hargs : (args.frame || args.frameHex) = true) (hlimit : args.maxBytes ≤ 0)
    (chunks : List (List UInt8)) (hchunks : chunks.flatten = w.port) :
    ∃ sent waiting : List Packet, List.Forall₂ IsPacketOf (sent ++ waiting) w.messages
      ∧ (Capture.start.loop args chunks).frames.map (·.moveTo 0) = sent.map (·.sniffed 0)
      ∧ (∀ f ∈ (Capture.start.loop args chunks).frames,
        f.lenChecksumOk = true ∧ f.msgChecksumOk = true)
      ∧ w.port = sent.flatMap Packet.bytes ++ (Capture.start.loop args chunks).frameBuf
      ∧ PieceOfNext (Capture.start.loop args chunks).frameBuf waiting
      ∧ (w.writer.sendBufs = [] → waiting = []) := by
  obtain ⟨r, s, rs, ws, -, -, hw⟩ := simulates_reachable hx
  obtain ⟨ps, hframes, hps⟩ := packets_of_frames hw.calls
  obtain ⟨sent, waiting, tail, rfl, hport, hstop, htail, hnone⟩ :=
    orderly_port (hw.orderly hwell) hframes
  rw [hw.port] at hport
  rw [hport] at hchunks
  obtain ⟨hfound, hleft⟩ := capture_packets hargs hlimit hstop hchunks
  refine ⟨sent, waiting, hps, hfound, ?_, ?_, ?_, ?_⟩
  · intro f hf
    -- moving a frame changes none of its checksums
    have hmoved : f.moveTo 0 ∈ sent.map (·.sniffed 0) := by
      rw [← hfound]
      exact List.mem_map_of_mem hf
    obtain ⟨p, hp, hsame⟩ := List.mem_map.mp hmoved
    have hgood := packets_good hps p (List.mem_append_left _ hp)
    rw [hsame] at hgood
    exact hgood
  · rw [hleft]
    exact hport
  · rw [hleft]
    exact htail
  · rw [← hw.writer]
    exact hnone

/-- Two messages, of which the port has taken one and four bytes of the other. -/
theorem port_sniffed_one :
    ∃ w, Lts.exec (NodeWorld.step (dataEnv .boolean 1)) .start
        [.port (.arrive subscribePacket.bytes), .port (.receive 0 31), .tick [],
          .message 101 (.ok (some [[.raw [1]]])), .message 101 (.ok (some [[.raw [0]]])),
          .tick [[.take 1 9]], .port (.take 1 4)] = some w
      ∧ ∃ sent waiting : List Packet, sent.length = 1 ∧ waiting.length = 1
        ∧ (Capture.start.loop ⟨true, false, 0⟩ [w.port.take 3, w.port.drop 3]).frames.map (·.moveTo 0)
          = sent.map (·.sniffed 0)
        ∧ w.port = sent.flatMap Packet.bytes
          ++ (Capture.start.loop ⟨true, false, 0⟩ [w.port.take 3, w.port.drop 3]).frameBuf
        ∧ (Capture.start.loop ⟨true, false, 0⟩
          [w.port.take 3, w.port.drop 3]).frameBuf.length = 4 := by
  have hrun : (Lts.exec (NodeWorld.step (dataEnv .boolean 1)) .start
        [.port (.arrive subscribePacket.bytes), .port (.receive 0 31), .tick [],
          .message 101 (.ok (some [[.raw [1]]])), .message 101 (.ok (some [[.raw [0]]])),
          .tick [[.take 1 9]], .port (.take 1 4)]).map
      (fun w => (w.ran.all fun x => x.fate != some .discarded, w.messages.length,
        (Capture.start.loop ⟨true, false, 0⟩ [w.port.take 3, w.port.drop 3]).frames.length,
        (Capture.start.loop ⟨true, false, 0⟩ [w.port.take 3, w.port.drop 3]).frameBuf.length))
        = some (true, 2, 1, 4) := by
    decide +kernel
  obtain ⟨w, hx, hends⟩ := Option.map_eq_some_iff.mp hrun
  obtain ⟨hwell, hrest⟩ := Prod.mk.inj hends
  obtain ⟨htwo, hrest⟩ := Prod.mk.inj hrest
  obtain ⟨hone, hfour⟩ := Prod.mk.inj hrest
  obtain ⟨sent, waiting, hpackets, hfound, -, hport, -, -⟩ := port_sniffed _ _ w hx
    (by simpa using hwell) ⟨true, false, 0⟩ rfl (Int.le_refl 0) [w.port.take 3, w.port.drop 3]
    (by simp)
  have hsent := congrArg List.length hfound
  rw [List.length_map, List.length_map, hone] at hsent
  have hcount := hpackets.length_eq
  rw [List.length_append, htwo] at hcount
  exact ⟨w, hx, sent, waiting, hsent.symm, by omega, hfound, hport, hfour⟩

/-! ## From the device to the node -/

/-- `buffer[i + 7 : i + 7 + payload_len]`. -/
def SnifferFrame.payload (f : SnifferFrame) : List UInt8 := MemBlock.slice f.frame 7 f.payloadLen

/-- What the session dispatches for a frame, if it dispatches it. -/
def SnifferFrame.packet (f : SnifferFrame) : UInt16 × List UInt8 :=
  (UInt16.ofNat f.topicId, f.payload)

/-- The two sums that `read_body` adds up have no carry. -/
def carryFree (d : UInt16 × List UInt8) : Bool :=
  byteSum d.2 % 256 + (datasumForCheck d.1).toNat ≤ 255

/-- The session is as strict as the sniffer, and does not see through a carry. -/
theorem Packet.accepted_iff (p : Packet) (offset : Nat) :
    p.accepted = true
      ↔ (p.sniffed offset).msgChecksumOk = true ∧ carryFree (p.topicId, p.payload) = true := by
  have hshort := p.short
  have hsum := datasumForCheckStream_toNat p.payload (by omega)
  have htopic := (datasumForCheck p.topicId).toNat_lt
  have hcheck := p.checksum.toNat_lt
  unfold Packet.accepted bodyAccepted Packet.sniffed carryFree
  rw [beq_iff_eq, beq_iff_eq, decide_eq_true_iff, UInt8.toNat_sub, UInt8.toNat_add, hsum]
  show _ + _ + _ = 255 ↔ _ = (2 ^ 8 - _ + 255) % 2 ^ 8
    ∧ byteSum p.payload % 256 + (datasumForCheck p.topicId).toNat ≤ 255
  omega

theorem Packet.sniffed_packet (p : Packet) (offset : Nat) :
    (p.sniffed offset).packet = (p.topicId, p.payload) := by
  refine Prod.ext ?_ ?_
  · exact UInt16.ofNat_toNat
  · exact p.slice_payload

/-- What is dispatched of packets, told from what the sniffer prints for them. -/
theorem delivered_sniffed (ps : List Packet) :
    ps.filterMap Packet.delivered
      = ((ps.map (·.sniffed 0)).filter fun f => f.msgChecksumOk && carryFree f.packet).map
        SnifferFrame.packet := by
  induction ps with
  | nil => rfl
  | cons p ps ih =>
      rw [List.map_cons, List.filterMap_cons, List.filter_cons, ih, p.sniffed_packet]
      unfold Packet.delivered
      by_cases hok : p.accepted = true
      · obtain ⟨hgood, hfree⟩ := (p.accepted_iff 0).mp hok
        rw [if_pos hok, hgood, hfree]
        exact congrArg (· :: _) (p.sniffed_packet 0).symm
      · have hno : ((p.sniffed 0).msgChecksumOk && carryFree (p.topicId, p.payload)) = false := by
          rw [Bool.eq_false_iff, ne_eq, Bool.and_eq_true, ← p.accepted_iff 0]
          exact hok
        rw [if_neg hok, hno]
        rfl

/-- What the session goes by is in the frames wherever they are found. -/
theorem filter_moved (frames : List SnifferFrame) :
    ((frames.map (·.moveTo 0)).filter fun f => f.msgChecksumOk && carryFree f.packet).map
        SnifferFrame.packet
      = (frames.filter fun f => f.msgChecksumOk && carryFree f.packet).map SnifferFrame.packet := by
  rw [List.filter_map, List.map_map]
  rfl

/--
**Where session and sniffer differ.** Of packets with intact headers and contents that may
be damaged, the session dispatches exactly the frames that the sniffer prints with a good
checksum and whose two sums do not carry, however either of them is given the bytes.
-/
theorem receivers_agree {τ : Type} {dispatch : Dispatch τ} (hr : Returns dispatch) (tables : τ)
    (ps : List Packet) (hlen : ∀ p ∈ ps, p.payload.length < readerCapacity)
    (args : SnifferArgs) (hargs : (args.frame || args.frameHex) = true) (hlimit : args.maxBytes ≤ 0)
    (wire chunks : List (List UInt8)) (hwire : wire.flatten = ps.flatMap Packet.bytes)
    (hchunks : chunks.flatten = ps.flatMap Packet.bytes) :
    Lts.Inevitably (ReadWorld.quietStep (handle dispatch))
      (Idle (((Capture.start.loop args chunks).frames.filter fun f =>
        f.msgChecksumOk && carryFree f.packet).map SnifferFrame.packet))
      (startRead tables wire) := by
  obtain ⟨hfound, -⟩ := capture_packets hargs hlimit parseFrom_nothing
    (hchunks.trans (List.append_nil _).symm)
  rw [← filter_moved, hfound, ← delivered_sniffed]
  exact packets_settle hr hlen tables hwire

/-- A good packet, one whose sums carry and one with a wrong checksum. -/
theorem receivers_agree_three :
    let ps : List Packet := [⟨6, [1, 2], 246, by decide⟩, ⟨255, [1], 255, by decide⟩,
      ⟨7, [3], 0, by decide⟩]
    let found := Capture.start.loop ⟨true, false, 0⟩ [ps.flatMap Packet.bytes]
    (found.frames.map (·.moveTo 0)).map SnifferFrame.msgChecksumOk = [true, true, false]
      ∧ Lts.Inevitably (ReadWorld.quietStep (handle ignoring)) (Idle [(6, [1, 2])])
        (startRead () [ps.flatMap Packet.bytes]) := by
  intro ps found
  have hone : [ps.flatMap Packet.bytes].flatten = ps.flatMap Packet.bytes := List.flatten_singleton
  have hfound : found.frames.map (·.moveTo 0) = ps.map (·.sniffed 0) :=
    (capture_packets rfl (Int.le_refl 0) parseFrom_nothing
      (hone.trans (List.append_nil _).symm)).1
  have hagree := receivers_agree ignoring_returns () ps (by decide) ⟨true, false, 0⟩ rfl
    (Int.le_refl 0) [ps.flatMap Packet.bytes] [ps.flatMap Packet.bytes] hone hone
  rw [← filter_moved, hfound] at hagree
  refine ⟨?_, hagree⟩
  rw [hfound]
  decide

end RosserialServer
