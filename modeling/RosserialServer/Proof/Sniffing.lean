import RosserialServer.Proof.Framing
import RosserialServer.Sniffer.ParseFrames

/-!
# The sniffer reads what the encoder writes

Seen from the sniffer a packet is found at its first byte, described by its fields, and
passed over whole (`parseFrom_packet`); what is left of one at the end of a capture is
not consumed (`parseFrom_tail`). Nothing inside a payload is looked at, so sync bytes in
it do no harm.
-/

namespace RosserialServer

open Bytes MemBlock

/-! ## Numbers -/

theorem and_mask (n : Nat) : n &&& 0xFF = n % 256 := Nat.and_two_pow_sub_one_eq_mod n 8

/-- The low byte and the shifted high byte do not overlap. -/
theorem or_shift (lo hi : UInt8) : lo.toNat ||| (hi.toNat <<< 8) = lo.toNat + 256 * hi.toNat := by
  have hlo : lo.toNat < 2 ^ 8 := lo.toNat_lt
  rw [Nat.or_comm, ← Nat.shiftLeft_add_eq_or_of_lt hlo, Nat.shiftLeft_eq]
  omega

theorem calcLenChecksum_eq (length : UInt16) {lo hi : UInt8} (h : word lo hi = length) :
    calcLenChecksum lo.toNat hi.toNat = (lengthCheck length).toNat := by
  have hsum := datasumForCheck_toNat length
  rw [← h, leBytes_word, byteSum_cons, byteSum_cons, byteSum_nil] at hsum
  unfold calcLenChecksum lengthCheck
  rw [and_mask, and_mask, UInt8.toNat_sub, ← h, hsum]
  show _ = (2 ^ 8 - _ + 255) % 2 ^ 8
  omega

theorem calcMsgChecksum_eq (topicId : UInt16) {t0 t1 : UInt8} (h : word t0 t1 = topicId)
    {payload : List UInt8} (hlen : payload.length < 2 ^ 31) :
    calcMsgChecksum t0.toNat t1.toNat payload
      = (0xFF - (datasumForCheckStream (RosStream.ofBuffer payload)
          + datasumForCheck topicId)).toNat := by
  have htopic := datasumForCheck_toNat topicId
  have hbody := datasumForCheckStream_toNat payload hlen
  rw [← h, leBytes_word, byteSum_cons, byteSum_cons, byteSum_nil] at htopic
  unfold calcMsgChecksum
  dsimp only
  rw [and_mask, and_mask, UInt8.toNat_sub, UInt8.toNat_add, ← h, htopic, hbody]
  show (255 - (t0.toNat + t1.toNat + byteSum payload) % 256) % 256 = (2 ^ 8 - _ + 255) % 2 ^ 8
  omega

/-! ## One packet -/

theorem byteAt_append (pre bytes : List UInt8) (k : Nat) :
    byteAt (pre ++ bytes) (pre.length + k) = byteAt bytes k := by
  unfold byteAt
  rw [List.getD_append_right pre bytes 0 (pre.length + k) (Nat.le_add_right _ _),
    Nat.add_sub_cancel_left]

theorem slice_append (pre bytes : List UInt8) (k n : Nat) :
    slice (pre ++ bytes) (pre.length + k) n = slice bytes k n := by
  unfold slice
  rw [List.drop_append, List.drop_eq_nil_of_le (Nat.le_add_right _ _), List.nil_append,
    Nat.add_sub_cancel_left]

/-- What the sniffer reports for a packet it finds at an offset. -/
def Packet.sniffed (p : Packet) (offset : Nat) : SnifferFrame :=
  let expectedMsgChecksum := (0xFF - (datasumForCheckStream (RosStream.ofBuffer p.payload)
    + datasumForCheck p.topicId)).toNat
  { offset := offset
    frame := p.bytes
    payloadLen := p.payload.length
    topicId := p.topicId.toNat
    lenChecksum := (lengthCheck p.length).toNat
    expectedLenChecksum := (lengthCheck p.length).toNat
    lenChecksumOk := true
    msgChecksum := p.checksum.toNat
    expectedMsgChecksum := expectedMsgChecksum
    msgChecksumOk := p.checksum.toNat == expectedMsgChecksum }

theorem Packet.slice_payload (p : Packet) : slice p.bytes 7 p.payload.length = p.payload := by
  obtain ⟨lo, hi, t0, t1, -, -, hbytes⟩ := p.bytes_eq
  rw [hbytes]
  have hone := slice_append [0xFF, 0xFE, lo, hi, lengthCheck p.length, t0, t1]
    (p.payload ++ [p.checksum]) 0 p.payload.length
  rw [Nat.add_zero] at hone
  refine hone.trans ?_
  unfold slice
  rw [List.drop_zero, List.take_left]

theorem frameAt_packet (pre rest : List UInt8) (p : Packet) :
    frameAt (pre ++ (p.bytes ++ rest)) pre.length p.payload.length = p.sniffed pre.length := by
  obtain ⟨lo, hi, t0, t1, hlen, htopic, hbytes⟩ := p.bytes_eq
  have hshort := p.short
  have hframe : slice (pre ++ (p.bytes ++ rest)) pre.length (8 + p.payload.length) = p.bytes := by
    have hone := slice_append pre (p.bytes ++ rest) 0 (8 + p.payload.length)
    rw [Nat.add_zero] at hone
    rw [hone]
    unfold slice
    rw [List.drop_zero, List.take_left' (by rw [Packet.length_bytes, Nat.add_comm])]
  have hlast : byteAt p.bytes (p.bytes.length - 1) = p.checksum.toNat := by
    have hat : p.bytes.length - 1 = 7 + (p.payload.length + 0) := by
      rw [Packet.length_bytes]
      omega
    rw [hat, hbytes]
    refine (byteAt_append [0xFF, 0xFE, lo, hi, lengthCheck p.length, t0, t1]
      (p.payload ++ [p.checksum]) (p.payload.length + 0)).trans ?_
    exact byteAt_append p.payload [p.checksum] 0
  have hlo : byteAt (pre ++ (p.bytes ++ rest)) (pre.length + 2) = lo.toNat := by
    rw [byteAt_append, hbytes]
    rfl
  have hhi : byteAt (pre ++ (p.bytes ++ rest)) (pre.length + 3) = hi.toNat := by
    rw [byteAt_append, hbytes]
    rfl
  have hcheck : byteAt p.bytes 4 = (lengthCheck p.length).toNat := by
    rw [hbytes]
    rfl
  have ht0 : byteAt p.bytes 5 = t0.toNat := by
    rw [hbytes]
    rfl
  have ht1 : byteAt p.bytes 6 = t1.toNat := by
    rw [hbytes]
    rfl
  have hid : t0.toNat ||| (t1.toNat <<< 8) = p.topicId.toNat := by
    rw [or_shift, ← htopic, word_toNat]
  unfold frameAt Packet.sniffed
  dsimp only
  rw [hframe, p.slice_payload, hlast, hlo, hhi, hcheck, ht0, ht1, hid, calcLenChecksum_eq _ hlen,
    calcMsgChecksum_eq _ htopic (by omega), beq_self_eq_true]

/-- The sniffer finds sync bytes and length at the front of a packet. -/
theorem header_read (pre rest : List UInt8) (p : Packet) :
    (byteAt (pre ++ (p.bytes ++ rest)) pre.length = 0xFF
        ∧ byteAt (pre ++ (p.bytes ++ rest)) (pre.length + 1) = 0xFE)
      ∧ byteAt (pre ++ (p.bytes ++ rest)) (pre.length + 2)
        ||| (byteAt (pre ++ (p.bytes ++ rest)) (pre.length + 3) <<< 8) = p.payload.length := by
  obtain ⟨lo, hi, t0, t1, hlen, -, hbytes⟩ := p.bytes_eq
  have hat : ∀ k, byteAt (pre ++ (p.bytes ++ rest)) (pre.length + k)
      = byteAt ([0xFF, 0xFE, lo, hi, lengthCheck p.length, t0, t1] ++ (p.payload ++ [p.checksum])
        ++ rest) k := by
    intro k
    rw [byteAt_append, hbytes]
  refine ⟨⟨hat 0, hat 1⟩, ?_⟩
  have hlo : byteAt (pre ++ (p.bytes ++ rest)) (pre.length + 2) = lo.toNat := hat 2
  have hhi : byteAt (pre ++ (p.bytes ++ rest)) (pre.length + 3) = hi.toNat := hat 3
  rw [hlo, hhi, or_shift, ← word_toNat, hlen, Packet.length_toNat]

/-- **A packet is described, and passed over whole.** -/
theorem parseFrom_packet (pre rest : List UInt8) (p : Packet) :
    parseFrom (pre ++ (p.bytes ++ rest)) pre.length
      = (p.sniffed pre.length
            :: (parseFrom ((pre ++ p.bytes) ++ rest) (pre ++ p.bytes).length).1,
          (parseFrom ((pre ++ p.bytes) ++ rest) (pre ++ p.bytes).length).2) := by
  obtain ⟨hsync, hpay⟩ := header_read pre rest p
  have hwhole := p.length_bytes
  have hfits : pre.length + 8 ≤ (pre ++ (p.bytes ++ rest)).length := by
    rw [List.length_append, List.length_append]
    omega
  have hnext : pre.length + (8 + p.payload.length) = (pre ++ p.bytes).length := by
    rw [List.length_append, hwhole]
    omega
  rw [parseFrom, dif_pos hfits, if_pos hsync]
  dsimp only
  rw [hpay, hnext, if_neg, frameAt_packet, List.append_assoc]
  rw [List.length_append, List.length_append, List.length_append]
  omega

/-- **What is left of a packet is not consumed.** -/
theorem parseFrom_tail (pre : List UInt8) (p : Packet) {tail rest : List UInt8}
    (hsplit : p.bytes = tail ++ rest) (hne : rest ≠ []) :
    parseFrom (pre ++ tail) pre.length = ([], pre.length) := by
  have hwhole := p.length_bytes
  rw [hsplit, List.length_append] at hwhole
  have hpos := List.length_pos_of_ne_nil hne
  by_cases hshort : tail.length < 8
  · rw [parseFrom, dif_neg]
    rw [List.length_append]
    omega
  · -- the header is there, and the packet does not fit
    obtain ⟨⟨h0, h1⟩, hpay⟩ := header_read pre [] p
    have hat : ∀ k, k < 8 → byteAt (pre ++ tail) (pre.length + k)
        = byteAt (pre ++ (p.bytes ++ [])) (pre.length + k) := by
      intro k hk
      rw [byteAt_append, byteAt_append, hsplit, List.append_nil]
      unfold byteAt
      rw [List.getD_append tail rest 0 k (by omega)]
    rw [← hat 2 (by omega), ← hat 3 (by omega)] at hpay
    have hsync : byteAt (pre ++ tail) pre.length = 0xFF
        ∧ byteAt (pre ++ tail) (pre.length + 1) = 0xFE :=
      ⟨(hat 0 (by omega)).trans h0, (hat 1 (by omega)).trans h1⟩
    rw [parseFrom, dif_pos (by rw [List.length_append]; omega), if_pos hsync]
    dsimp only
    rw [hpay, if_pos]
    rw [List.length_append]
    omega

/-! ## A capture -/

/-- What the sniffer reports for packets that follow each other from an offset on. -/
def sniffedFrom : Nat → List Packet → List SnifferFrame
  | _, [] => []
  | offset, p :: ps => p.sniffed offset :: sniffedFrom (offset + p.bytes.length) ps

theorem parseFrom_packets (ps : List Packet) {tail : List UInt8}
    (hstop : ∀ pre : List UInt8, parseFrom (pre ++ tail) pre.length = ([], pre.length))
    (pre : List UInt8) :
    parseFrom (pre ++ (ps.flatMap Packet.bytes ++ tail)) pre.length
      = (sniffedFrom pre.length ps, pre.length + (ps.flatMap Packet.bytes).length) := by
  induction ps generalizing pre with
  | nil => exact hstop pre
  | cons p ps ih =>
      rw [List.flatMap_cons, List.append_assoc, parseFrom_packet, ih (pre ++ p.bytes), sniffedFrom]
      refine Prod.ext ?_ ?_
      · rw [List.length_append]
      · dsimp only
        rw [List.length_append, List.length_append, Nat.add_assoc]

theorem sniffedFrom_map {α : Type} (f : SnifferFrame → α) (g : Packet → α)
    (h : ∀ p offset, f (p.sniffed offset) = g p) (offset : Nat) (ps : List Packet) :
    (sniffedFrom offset ps).map f = ps.map g := by
  induction ps generalizing offset with
  | nil => rfl
  | cons p ps ih => rw [sniffedFrom, List.map_cons, List.map_cons, h, ih]

/-- The checksum of a frame is the one the sniffer expects. -/
theorem framed_msgChecksumOk (serialMsg : WriteBuffer) (topicId : UInt16) (offset : Nat) :
    ((framed serialMsg topicId).sniffed offset).msgChecksumOk = true := by
  exact beq_self_eq_true (framed serialMsg topicId).checksum.toNat

theorem sniffedFrom_ok (msgs : List (UInt16 × WriteBuffer)) (offset : Nat) :
    ∀ f ∈ sniffedFrom offset (msgs.map fun m => framed m.2 m.1),
      f.lenChecksumOk = true ∧ f.msgChecksumOk = true := by
  induction msgs generalizing offset with
  | nil => simp [sniffedFrom]
  | cons m msgs ih =>
      intro f hf
      rw [List.map_cons, sniffedFrom] at hf
      rcases List.mem_cons.mp hf with rfl | hf
      · exact ⟨rfl, framed_msgChecksumOk m.2 m.1 offset⟩
      · exact ih _ f hf

/--
**The encoder and the sniffer speak one format**: of a capture of whole frames and the
beginning of another the sniffer reports the frames, with both checksums right, and
consumes them and no more.
-/
theorem sniffer_reads (msgs : List (UInt16 × WriteBuffer)) (hlen : ∀ m ∈ msgs, m.2.writeLen < 2 ^ 16)
    (topicId : UInt16) (serialMsg : WriteBuffer) :
    ∃ frames last, msgs.mapM (fun m => packagingMsg m.2 m.1) = .ok frames
      ∧ packagingMsg serialMsg topicId = .ok last
      ∧ ∀ tail, tail <+: last.getVector → tail ≠ last.getVector →
        ∃ found, parseRosserialFrames (frames.flatMap WriteBuffer.getVector ++ tail)
            = (found, (frames.flatMap WriteBuffer.getVector).length)
          ∧ found.map SnifferFrame.topicId = msgs.map (fun m => m.1.toNat)
          ∧ found.map SnifferFrame.payloadLen = msgs.map (fun m => m.2.writeLen)
          ∧ found.map SnifferFrame.frame = frames.map WriteBuffer.getVector
          ∧ ∀ f ∈ found, f.lenChecksumOk = true ∧ f.msgChecksumOk = true := by
  obtain ⟨frames, hframes, heach⟩ := frames_each msgs
  have hbytes : frames.flatMap WriteBuffer.getVector
      = (msgs.map fun m => framed m.2 m.1).flatMap Packet.bytes := by
    rw [List.flatMap_def, heach, ← List.flatMap_def]
  obtain ⟨last, hlast, hlastBytes⟩ := packagingMsg_spec serialMsg topicId
  refine ⟨frames, last, hframes, hlast, ?_⟩
  intro tail hprefix hne
  obtain ⟨rest, hrest⟩ := hprefix
  have hrestNe : rest ≠ [] := by
    rintro rfl
    exact hne (by rw [← hrest, List.append_nil])
  have hsplit : (framed serialMsg topicId).bytes = tail ++ rest := by rw [← hlastBytes, hrest]
  have hrun := parseFrom_packets (msgs.map fun m => framed m.2 m.1)
    (fun pre => parseFrom_tail pre (framed serialMsg topicId) hsplit hrestNe) []
  rw [← hbytes, List.length_nil, Nat.zero_add] at hrun
  refine ⟨_, hrun, ?_, ?_, ?_, sniffedFrom_ok msgs 0⟩
  · rw [sniffedFrom_map _ (fun p => p.topicId.toNat) (fun _ _ => rfl), List.map_map]
    rfl
  · rw [sniffedFrom_map _ (fun p => p.payload.length) (fun _ _ => rfl), List.map_map]
    apply List.map_congr_left
    intro m hm
    show (framed m.2 m.1).payload.length = m.2.writeLen
    rw [length_framed_payload, Nat.mod_eq_of_lt (hlen m hm)]
  · rw [sniffedFrom_map _ Packet.bytes (fun _ _ => rfl), heach]

/-- A payload of two sync bytes, with the first three bytes of another frame behind it. -/
theorem sniffer_reads_sync : ∃ found,
    parseRosserialFrames
        ([0xFF, 0xFE, 2, 0, 253, 125, 0, 0xFF, 0xFE, 133] ++ [0xFF, 0xFE, 0]) = (found, 10)
      ∧ found.map SnifferFrame.topicId = [125] ∧ found.map SnifferFrame.payloadLen = [2] := by
  obtain ⟨frames, last, hframes, hlast, htail⟩ :=
    sniffer_reads [(125, ⟨2, [0xFF, 0xFE], Nat.le_refl 2⟩)] (by simp) 126 (.new 0)
  obtain rfl := Except.ok.inj hframes
  obtain rfl := Except.ok.inj hlast
  obtain ⟨found, hrun, hid, hlen, -, -⟩ :=
    htail [0xFF, 0xFE, 0] ⟨[0, 255, 126, 0, 129], rfl⟩ (by decide)
  exact ⟨found, hrun, hid, hlen⟩

end RosserialServer
