import RosserialServer.Proof.Sniffing
import RosserialServer.Sniffer.CaptureLoop

/-!
# The sniffer does not see where a stream is cut

Whatever the parser has consumed it would consume again if more had arrived
(`parseFrom_append`), and it does not look at what it has passed (`parseFrom_shift`). To
delete the consumed bytes and to parse the rest when more is there is therefore to go on
in the whole stream, and only the offsets tell the difference (`capture_streams`).
-/

namespace RosserialServer

open MemBlock

/-- The same frame, said to be found at another offset. -/
def SnifferFrame.moveTo (f : SnifferFrame) (offset : Nat) : SnifferFrame :=
  { f with offset := offset }

/-! ## One turn of the parser -/

/-- The sync bytes are at `i`. -/
def Synced (buffer : List UInt8) (i : Nat) : Prop :=
  byteAt buffer i = 0xFF ∧ byteAt buffer (i + 1) = 0xFE

/-- The payload length the header at `i` announces. -/
def announced (buffer : List UInt8) (i : Nat) : Nat :=
  byteAt buffer (i + 2) ||| (byteAt buffer (i + 3) <<< 8)

section Turn

variable {buffer : List UInt8} {i : Nat}

/-- Fewer than eight bytes are left, or a frame that is not complete. -/
theorem parseFrom_stop (h : i + 8 ≤ buffer.length →
    Synced buffer i ∧ buffer.length < i + (8 + announced buffer i)) :
    parseFrom buffer i = ([], i) := by
  rw [parseFrom]
  split
  · rename_i hle
    obtain ⟨⟨h0, h1⟩, hshort⟩ := h hle
    rw [if_pos ⟨h0, h1⟩]
    exact if_pos hshort
  · rfl

theorem parseFrom_skip (hle : i + 8 ≤ buffer.length) (h : ¬Synced buffer i) :
    parseFrom buffer i = parseFrom buffer (i + 1) := by
  rw [parseFrom, dif_pos hle]
  exact if_neg h

theorem parseFrom_frame (hsync : Synced buffer i)
    (h : i + (8 + announced buffer i) ≤ buffer.length) :
    parseFrom buffer i = (frameAt buffer i (announced buffer i)
        :: (parseFrom buffer (i + (8 + announced buffer i))).1,
      (parseFrom buffer (i + (8 + announced buffer i))).2) := by
  obtain ⟨h0, h1⟩ := hsync
  rw [parseFrom, dif_pos (by omega), if_pos ⟨h0, h1⟩]
  exact if_neg (Nat.not_lt.mpr h)

/-- **Induction along the parser.** -/
theorem parse_induction (buffer : List UInt8) {motive : Nat → Prop}
    (stop : ∀ i, (i + 8 ≤ buffer.length →
      Synced buffer i ∧ buffer.length < i + (8 + announced buffer i)) → motive i)
    (skip : ∀ i, i + 8 ≤ buffer.length → ¬Synced buffer i → motive (i + 1) → motive i)
    (frame : ∀ i, Synced buffer i → i + (8 + announced buffer i) ≤ buffer.length →
      motive (i + (8 + announced buffer i)) → motive i) (i : Nat) : motive i := by
  induction i using parseFrom.induct buffer with
  | case1 i hle hsync payloadLen totalLen hshort => exact stop i fun _ => ⟨hsync, hshort⟩
  | case2 i hle hsync payloadLen totalLen hfits _ _ _ ih =>
      exact frame i hsync (Nat.not_lt.mp hfits) ih
  | case3 i hle hsync ih => exact skip i hle hsync ih
  | case4 i hle => exact stop i fun h => absurd h hle

end Turn

/-! ## More behind, more in front -/

theorem byteAt_append_left {buffer : List UInt8} (more : List UInt8) {k : Nat}
    (h : k < buffer.length) : byteAt (buffer ++ more) k = byteAt buffer k := by
  unfold byteAt
  rw [List.getD_append buffer more 0 k h]

/-- A complete frame is not changed by what comes after it. -/
theorem frameAt_append {buffer : List UInt8} (more : List UInt8) {i payloadLen : Nat}
    (h : i + (8 + payloadLen) ≤ buffer.length) :
    frameAt (buffer ++ more) i payloadLen = frameAt buffer i payloadLen := by
  have hframe : slice (buffer ++ more) i (8 + payloadLen) = slice buffer i (8 + payloadLen) := by
    have hrest : 8 + payloadLen ≤ (buffer.drop i).length := by
      rw [List.length_drop]
      omega
    unfold slice
    rw [List.drop_append_of_le_length (by omega), List.take_append_of_le_length hrest]
  unfold frameAt
  rw [byteAt_append_left more (by omega), byteAt_append_left more (by omega), hframe]

/-- Nor by what is in front of it, apart from where it is found. -/
theorem frameAt_shift (pre buffer : List UInt8) (i payloadLen : Nat) :
    frameAt (pre ++ buffer) (pre.length + i) payloadLen
      = (frameAt buffer i payloadLen).moveTo (pre.length + i) := by
  unfold frameAt SnifferFrame.moveTo
  rw [Nat.add_assoc, Nat.add_assoc, byteAt_append, byteAt_append, slice_append]

/-- **What has been parsed stays parsed.** With more bytes the parser goes on where it stopped. -/
theorem parseFrom_append (buffer more : List UInt8) (i : Nat) :
    parseFrom (buffer ++ more) i
      = ((parseFrom buffer i).1 ++ (parseFrom (buffer ++ more) (parseFrom buffer i).2).1,
          (parseFrom (buffer ++ more) (parseFrom buffer i).2).2) := by
  have hlen : (buffer ++ more).length = buffer.length + more.length := List.length_append
  have hsame : ∀ i, i + 8 ≤ buffer.length →
      (Synced (buffer ++ more) i ↔ Synced buffer i)
        ∧ announced (buffer ++ more) i = announced buffer i := by
    intro i hi
    unfold Synced announced
    rw [byteAt_append_left more (by omega), byteAt_append_left more (by omega),
      byteAt_append_left more (by omega), byteAt_append_left more (by omega)]
    exact ⟨Iff.rfl, rfl⟩
  induction i using parse_induction buffer with
  | stop i h =>
      rw [parseFrom_stop h]
      rfl
  | skip i hle h ih =>
      rw [parseFrom_skip (by omega) ((hsame i hle).1.not.mpr h), parseFrom_skip hle h, ih]
  | frame i hsync h ih =>
      obtain ⟨hs, ha⟩ := hsame i (by omega)
      have hmore : i + (8 + announced (buffer ++ more) i) ≤ (buffer ++ more).length := by omega
      rw [parseFrom_frame hsync h, parseFrom_frame (hs.mpr hsync) hmore, ha, ih,
        frameAt_append more h]
      rfl

/-- **What has been passed is not looked at again.** -/
theorem parseFrom_shift (pre buffer : List UInt8) (i : Nat) :
    parseFrom (pre ++ buffer) (pre.length + i)
      = ((parseFrom buffer i).1.map fun f => f.moveTo (pre.length + f.offset),
          pre.length + (parseFrom buffer i).2) := by
  have hlen : (pre ++ buffer).length = pre.length + buffer.length := List.length_append
  have hsame : ∀ i, (Synced (pre ++ buffer) (pre.length + i) ↔ Synced buffer i)
      ∧ announced (pre ++ buffer) (pre.length + i) = announced buffer i := by
    intro i
    unfold Synced announced
    rw [Nat.add_assoc, Nat.add_assoc, Nat.add_assoc, byteAt_append, byteAt_append, byteAt_append,
      byteAt_append]
    exact ⟨Iff.rfl, rfl⟩
  induction i using parse_induction buffer with
  | stop i h =>
      obtain ⟨hs, ha⟩ := hsame i
      rw [parseFrom_stop h, parseFrom_stop]
      · rfl
      · intro hle
        obtain ⟨hsync, hshort⟩ := h (by omega)
        exact ⟨hs.mpr hsync, by omega⟩
  | skip i hle h ih =>
      rw [parseFrom_skip hle h, parseFrom_skip (by omega) ((hsame i).1.not.mpr h), Nat.add_assoc, ih]
  | frame i hsync h ih =>
      obtain ⟨hs, ha⟩ := hsame i
      rw [parseFrom_frame hsync h, parseFrom_frame (hs.mpr hsync) (by omega), ha, Nat.add_assoc, ih,
        frameAt_shift]
      rfl

/-! ## Where the frames are -/

/-- The frames are pieces of the stream between `a` and `b`, one behind the other. -/
def Tiled (stream : List UInt8) : Nat → List SnifferFrame → Nat → Prop
  | a, [], b => a ≤ b
  | a, f :: fs, b =>
      a ≤ f.offset ∧ f.frame.length = 8 + f.payloadLen
        ∧ f.frame = slice stream f.offset f.frame.length
        ∧ Tiled stream (f.offset + f.frame.length) fs b

theorem Tiled.mono {stream : List UInt8} {a a' b : Nat} {fs : List SnifferFrame}
    (h : Tiled stream a' fs b) (ha : a ≤ a') : Tiled stream a fs b := by
  cases fs with
  | nil => exact Nat.le_trans ha h
  | cons f fs => exact ⟨Nat.le_trans ha h.1, h.2⟩

theorem Tiled.le {stream : List UInt8} {a b : Nat} {fs : List SnifferFrame}
    (h : Tiled stream a fs b) : a ≤ b := by
  induction fs generalizing a with
  | nil => exact h
  | cons f fs ih =>
      have hrest := ih h.2.2.2
      have hoff := h.1
      omega

theorem Tiled.within {stream : List UInt8} {a b : Nat} {fs : List SnifferFrame}
    (h : Tiled stream a fs b) : ∀ f ∈ fs, a ≤ f.offset ∧ f.offset + f.frame.length ≤ b
      ∧ f.frame.length = 8 + f.payloadLen ∧ f.frame = slice stream f.offset f.frame.length := by
  induction fs generalizing a with
  | nil => simp
  | cons f fs ih =>
      obtain ⟨hoff, hlen, hframe, hrest⟩ := h
      intro g hg
      rcases List.mem_cons.mp hg with rfl | hg
      · exact ⟨hoff, hrest.le, hlen, hframe⟩
      · obtain ⟨hgoff, hg⟩ := ih hrest g hg
        exact ⟨by omega, hg⟩

theorem Tiled.pairwise {stream : List UInt8} {a b : Nat} {fs : List SnifferFrame}
    (h : Tiled stream a fs b) :
    fs.Pairwise fun f g => f.offset + f.frame.length ≤ g.offset := by
  induction fs generalizing a with
  | nil => exact List.Pairwise.nil
  | cons f fs ih =>
      obtain ⟨-, -, -, hrest⟩ := h
      exact List.Pairwise.cons (fun g hg => (hrest.within g hg).1) (ih hrest)

theorem parseFrom_tiled (buffer : List UInt8) (i : Nat) :
    Tiled buffer i (parseFrom buffer i).1 (parseFrom buffer i).2 := by
  induction i using parse_induction buffer with
  | stop i h =>
      rw [parseFrom_stop h]
      exact Nat.le_refl i
  | skip i hle h ih =>
      rw [parseFrom_skip hle h]
      exact ih.mono (Nat.le_succ i)
  | frame i hsync h ih =>
      have hlen : (slice buffer i (8 + announced buffer i)).length = 8 + announced buffer i :=
        length_slice h
      rw [parseFrom_frame hsync h]
      refine ⟨Nat.le_refl i, hlen, ?_, ?_⟩
      · show slice buffer i _ = slice buffer i (slice _ _ _).length
        rw [hlen]
      · show Tiled buffer (i + (slice _ _ _).length) _ _
        rw [hlen]
        exact ih

theorem parseFrom_le (buffer : List UInt8) {i : Nat} (hi : i ≤ buffer.length) :
    (parseFrom buffer i).2 ≤ buffer.length := by
  induction i using parse_induction buffer with
  | stop i h =>
      rw [parseFrom_stop h]
      exact hi
  | skip i hle h ih =>
      rw [parseFrom_skip hle h]
      exact ih (by omega)
  | frame i hsync h ih =>
      rw [parseFrom_frame hsync h]
      exact ih h

/-! ## The loop -/

namespace Capture

variable {args : SnifferArgs}

/-- The loop has come as far as the parser comes in all that was read. -/
structure Streams (c : Capture) : Prop where
  /-- The frames are the same but for where they were found. -/
  frames : c.frames.map (·.moveTo 0) = (parseRosserialFrames c.out).1.map (·.moveTo 0)
  left : c.frameBuf = c.out.drop (parseRosserialFrames c.out).2

theorem start_streams : Streams .start := by
  have hnone : parseRosserialFrames [] = ([], 0) := parseFrom_stop (by simp)
  refine ⟨?_, List.drop_nil.symm⟩
  show _ = (parseRosserialFrames []).1.map _
  rw [hnone]
  rfl

/-- **The parser resumes where it was**, on what it had left and the next chunk. -/
theorem parse_resumes (stream chunk : List UInt8) :
    let (frames, consumed) := parseRosserialFrames stream
    let (more, consumed') := parseRosserialFrames (stream.drop consumed ++ chunk)
    parseRosserialFrames (stream ++ chunk)
      = (frames ++ more.map fun f => f.moveTo (consumed + f.offset), consumed + consumed') := by
  dsimp only
  have hle : (parseRosserialFrames stream).2 ≤ stream.length := parseFrom_le stream (Nat.zero_le _)
  have hpre : (stream.take (parseRosserialFrames stream).2).length
      = (parseRosserialFrames stream).2 := List.length_take_of_le hle
  -- the rest of the whole stream, as the parser finds it where it stopped
  have hrest := parseFrom_shift (stream.take (parseRosserialFrames stream).2)
    (stream.drop (parseRosserialFrames stream).2 ++ chunk) 0
  rw [← List.append_assoc, List.take_append_drop, hpre, Nat.add_zero] at hrest
  have happend := parseFrom_append stream chunk 0
  unfold parseRosserialFrames at hrest ⊢
  rw [happend, hrest]

theorem takeChunk_streams {c : Capture} (h : c.Streams)
    (hargs : (args.frame || args.frameHex) = true) (chunk : List UInt8) :
    (c.takeChunk args chunk).Streams ∧ (c.takeChunk args chunk).out = c.out ++ chunk := by
  have hresume := parse_resumes c.out chunk
  dsimp only at hresume
  rw [← h.left] at hresume
  have hle : (parseRosserialFrames c.out).2 ≤ c.out.length := parseFrom_le c.out (Nat.zero_le _)
  unfold takeChunk
  rw [if_pos hargs]
  refine ⟨⟨?_, ?_⟩, rfl⟩
  · show (c.frames ++ _).map _ = (parseRosserialFrames (c.out ++ chunk)).1.map _
    rw [hresume, List.map_append, List.map_append, List.map_map, h.frames]
    rfl
  · show (if (parseRosserialFrames (c.frameBuf ++ chunk)).2 > 0 then _ else _)
      = (c.out ++ chunk).drop (parseRosserialFrames (c.out ++ chunk)).2
    rw [hresume, ← List.drop_drop, List.drop_append_of_le_length hle, ← h.left]
    split
    · rfl
    · -- nothing consumed, nothing deleted
      rename_i hnone
      rw [Nat.eq_zero_of_not_pos hnone, List.drop_zero]

/-- What the loop has read is the front of the stream, and all of it if it has no limit. -/
theorem loop_streams (hargs : (args.frame || args.frameHex) = true)
    (chunks : List (List UInt8)) {c : Capture} (h : c.Streams) :
    (c.loop args chunks).Streams
      ∧ (c.loop args chunks).out <+: c.out ++ chunks.flatten
      ∧ (args.maxBytes ≤ 0 → (c.loop args chunks).out = c.out ++ chunks.flatten) := by
  induction chunks generalizing c with
  | nil =>
      refine ⟨h, ⟨[], rfl⟩, ?_⟩
      intro _
      exact (List.append_nil c.out).symm
  | cons chunk chunks ih =>
      rw [loop, List.flatten_cons]
      split
      · rename_i hempty
        rw [hempty, List.nil_append]
        exact ih h
      · obtain ⟨hnext, hout⟩ := takeChunk_streams h hargs chunk
        rw [← List.append_assoc, ← hout]
        dsimp only
        split
        · rename_i hlimit
          refine ⟨hnext, List.prefix_append _ _, ?_⟩
          intro hnolimit
          omega
        · exact ih hnext

end Capture

/--
**However a stream is cut into chunks, the sniffer finds in it what it finds in the
whole.** `c.out` is what was read, all of the stream unless `--max-bytes` ends the loop.
-/
theorem capture_streams (args : SnifferArgs) (hargs : (args.frame || args.frameHex) = true)
    (chunks : List (List UInt8)) (c : Capture) (hc : Capture.start.loop args chunks = c) :
    c.out <+: chunks.flatten ∧ (args.maxBytes ≤ 0 → c.out = chunks.flatten)
      ∧ c.frames.map (·.moveTo 0) = (parseRosserialFrames c.out).1.map (·.moveTo 0)
      ∧ c.frameBuf = c.out.drop (parseRosserialFrames c.out).2
      ∧ (∀ f ∈ (parseRosserialFrames c.out).1, f.frame.length = 8 + f.payloadLen
        ∧ f.offset + f.frame.length ≤ (parseRosserialFrames c.out).2
        ∧ f.frame = slice c.out f.offset f.frame.length)
      ∧ (parseRosserialFrames c.out).1.Pairwise
        fun f g => f.offset + f.frame.length ≤ g.offset := by
  obtain ⟨hstreams, hfront, hall⟩ := Capture.loop_streams hargs chunks Capture.start_streams
  rw [hc] at hstreams hfront hall
  have htiled : Tiled c.out 0 (parseRosserialFrames c.out).1 (parseRosserialFrames c.out).2 :=
    parseFrom_tiled c.out 0
  refine ⟨hfront, hall, hstreams.frames, hstreams.left, ?_, htiled.pairwise⟩
  intro f hf
  obtain ⟨-, hend, hlen, hframe⟩ := htiled.within f hf
  exact ⟨hlen, hend, hframe⟩

/-- A frame behind a stray byte, cut between its sync bytes and again in its header. -/
theorem capture_streams_cut :
    (Capture.start.loop ⟨true, false, 0⟩
        [[0x00, 0xFF], [0xFE, 1, 0], [], [254, 125, 0, 7, 123, 0xFF]]).frames.map (·.moveTo 0)
      = (parseRosserialFrames [0x00, 0xFF, 0xFE, 1, 0, 254, 125, 0, 7, 123, 0xFF]).1.map
        (·.moveTo 0) := by
  obtain ⟨-, hall, hframes, -⟩ := capture_streams ⟨true, false, 0⟩ rfl
    [[0x00, 0xFF], [0xFE, 1, 0], [], [254, 125, 0, 7, 123, 0xFF]] _ rfl
  rw [hall (Int.le_refl 0)] at hframes
  exact hframes

end RosserialServer
