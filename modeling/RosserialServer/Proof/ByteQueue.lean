import RosserialServer.Proof.ReadRefine

/-!
# `AsyncReadBuffer` is a byte queue

The user here makes an arbitrary sequence of requests that fit the buffer, the next one
from each delivery, and keeps what it is handed. `ByteQueue` is what every reachable state
of the buffer and its user satisfies: the indices are in order, one operation is
outstanding, and the stream is the deliveries, the chunk that is posted if there is one,
and the unread bytes.

The reset after a delivery looks dangerous, since the posted slice may lie in the space it
frees. It is harmless because the next read is requested by the callback that is posted:
until that has run no port read is outstanding, so nothing writes `mem_`.
-/

namespace RosserialServer

open MemBlock

/--
The user that requests `ns 0`, `ns 1`, … bytes and keeps its deliveries. The callback of
a request is its number.
-/
def requesting (ns : Nat → Nat) : Reaction Nat (List (List UInt8)) :=
  fun i deliveries readStream =>
    (deliveries ++ [readStream.head.getD []], .read (ns (i + 1)) (i + 1))

/-- A new buffer of capacity `C` on which that user has made its first request. -/
def startRequesting (C : Nat) (ns : Nat → Nat) (wire : List (List UInt8)) :
    ReadWorld Nat (List (List UInt8)) :=
  ReadWorld.start C [] (.read (ns 0) 0) wire

/-- A port read for what is missing of the current request, with room for it. -/
def ReadPending (ns : Nat → Nat) (stream : List UInt8) (w : ReadWorld Nat (List (List UInt8))) :
    Prop :=
  ∃ atLeast, w.serviceIo = [.asyncRead w.reader.writeIndex w.reader.tailRemainBytes atLeast]
    ∧ atLeast = ns w.user.length - w.reader.alreadyBytes
    ∧ 0 < atLeast ∧ atLeast ≤ w.reader.tailRemainBytes
    ∧ stream = w.user.flatten ++ w.unread

/-- The delivery of the current request, over a slice that holds the next bytes. -/
def DeliveryPosted (ns : Nat → Nat) (stream : List UInt8)
    (w : ReadWorld Nat (List (List UInt8))) : Prop :=
  ∃ off, w.serviceIo = [.post (some w.user.length) off (ns w.user.length)]
    ∧ (slice w.reader.mem off (ns w.user.length)).length = ns w.user.length
    ∧ stream = w.user.flatten ++ slice w.reader.mem off (ns w.user.length) ++ w.unread

structure ByteQueue (C : Nat) (ns : Nat → Nat) (stream : List UInt8)
    (w : ReadWorld Nat (List (List UInt8))) : Prop where
  capacity : w.reader.mem.length = C
  readIndex_le : w.reader.readIndex ≤ w.reader.writeIndex
  writeIndex_le : w.reader.writeIndex ≤ C
  /-- The `i`-th delivery is of `ns i` bytes. -/
  sizes : w.user.map List.length = (List.range w.user.length).map ns
  /-- The deliveries are the front of the stream, and the next bytes are on their way. -/
  outstanding : ReadPending ns stream w ∨ DeliveryPosted ns stream w
  /-- A port read of any size the port may return leads to the delivery at once. -/
  completes : ∀ i n w', w.quietStep (requesting ns) (.transfer i n) = some w' →
    ReadPending ns stream w ∧ DeliveryPosted ns stream w'

/-! ## The user on the flat stream -/

/-- What the flat reader has done to the user after `used`. -/
structure Requested (ns : Nat → Nat) (used : List UInt8)
    (s : List (List UInt8) × Next Nat) : Prop where
  next : s.2 = .read (ns s.1.length) s.1.length
  flatten : s.1.flatten = used
  sizes : s.1.map List.length = (List.range s.1.length).map ns

theorem requested_feed {C : Nat} {ns : Nat → Nat} {used chunk : List UInt8}
    {s : List (List UInt8) × Next Nat} (h : Requested ns used s)
    (hn : (flat (requesting ns) C).need s = some chunk.length) :
    Requested ns (used ++ chunk) ((flat (requesting ns) C).feed s chunk) := by
  obtain ⟨deliveries, next⟩ := s
  obtain ⟨hnext, hflat, hsizes⟩ := h
  dsimp only at hnext hflat hsizes
  subst hnext
  have hlen : chunk.length = ns deliveries.length := flat_chunk hn
  have hfeed : (flat (requesting ns) C).feed
      (deliveries, .read (ns deliveries.length) deliveries.length) chunk
      = (deliveries ++ [chunk], .read (ns (deliveries.length + 1)) (deliveries.length + 1)) := rfl
  rw [hfeed]
  refine ⟨?_, ?_, ?_⟩
  · simp
  · simp [hflat]
  · simp [List.range_succ, hsizes, hlen]

theorem requested_eats {C : Nat} {ns : Nat → Nat} {used : List UInt8}
    {s : List (List UInt8) × Next Nat}
    (h : (flat (requesting ns) C).Eats ([], .read (ns 0) 0) used s) : Requested ns used s := by
  generalize hs : (([], .read (ns 0) 0) : List (List UInt8) × Next Nat) = s₀ at h
  induction h with
  | refl =>
      subst hs
      exact ⟨rfl, rfl, rfl⟩
  | tail _ hn ih => exact requested_feed ih hn

/-! ## The buffer at run time -/

/-- A world that serves the user's current request is in one of the two states. -/
theorem outstanding_of_tracks {C : Nat} {ns : Nat → Nat} (hns : ∀ i, 1 ≤ ns i ∧ ns i ≤ C)
    {used rest : List UInt8} {w : ReadWorld Nat (List (List UInt8))} {next : Next Nat}
    (hr : Requested ns used (w.user, next)) (ht : ReadWorld.Tracks C w next rest) :
    ReadPending ns (used ++ rest) w ∨ DeliveryPosted ns (used ++ rest) w := by
  obtain ⟨hnext, hflat, hsizes⟩ := hr
  dsimp only at hnext hflat hsizes
  have hgood := hns w.user.length
  cases ht with
  | waiting hesc _ hs hio =>
      injection hnext with h1 h2
      subst h1; subst h2
      have hlen := hs.serving.length
      have hshort := hs.short
      have hroom := hs.room
      refine Or.inl ⟨_, hio, ?_, ?_, hroom, ?_⟩
      · rw [hlen]
      · omega
      · rw [hflat]
  | posted hesc _ hs hio hsl hlen =>
      injection hnext with h1 h2
      subst h1; subst h2
      refine Or.inr ⟨_, hio, ?_, ?_⟩
      · rw [hsl, hlen]
      · rw [hsl, hflat, List.append_assoc]
  | refused _ hbad _ _ =>
      injection hnext with h1 h2
      subst h1
      exact absurd hgood hbad
  | ended _ _ => exact absurd hnext (by simp)

theorem reader_of_tracks {C : Nat} {w : ReadWorld Nat (List (List UInt8))} {n : Nat} {k : Nat}
    {rest : List UInt8} (ht : ReadWorld.Tracks C w (.read n k) rest) :
    w.reader.Valid ∧ w.reader.mem.length = C := by
  cases ht with
  | waiting _ _ hs _ => exact ⟨hs.serving.valid, hs.serving.capacity⟩
  | posted _ _ hs _ _ _ => exact ⟨hs.valid, hs.capacity⟩
  | refused _ _ hs _ => exact ⟨hs.valid, hs.capacity⟩

/-- **A completed port read has been waited for, and leads to the delivery.** -/
theorem transfer_delivers {C : Nat} {ns : Nat → Nat} (hns : ∀ i, 1 ≤ ns i ∧ ns i ≤ C)
    {used rest : List UInt8} {w w' : ReadWorld Nat (List (List UInt8))} {next : Next Nat}
    {i n : Nat} (hr : Requested ns used (w.user, next)) (ht : ReadWorld.Tracks C w next rest)
    (hs : w.quietStep (requesting ns) (.transfer i n) = some w') :
    ReadPending ns (used ++ rest) w ∧ DeliveryPosted ns (used ++ rest) w' := by
  obtain ⟨-, hstep⟩ := ReadWorld.quietStep_some hs
  obtain ⟨hesc, hcases⟩ := ReadWorld.step_cases hstep
  rcases hcases with ⟨he, -⟩ | ⟨j, m, c, off, size, d, he, hc, hp, hmin, hmax, hav, rfl⟩ |
    ⟨j, -, -, -, -, he, -⟩ | ⟨j, -, -, -, he, -⟩
  · exact absurd he (by simp)
  · injection he with h1 h2
    subst h1; subst h2
    have hout := outstanding_of_tracks hns hr ht
    have hpend : ReadPending ns (used ++ rest) w := by
      rcases hout with hpend | ⟨off', hio, -⟩
      · exact hpend
      · rw [hio] at hc
        obtain ⟨-, hcc⟩ := ReadWorld.getElem?_singleton hc
        rcases hp with hp | ⟨hp, -⟩ <;> exact absurd (hcc.symm.trans hp) (by simp)
    refine ⟨hpend, ?_⟩
    -- the new state serves the same request, and what is outstanding in it is a post
    have ht' := (ReadWorld.transfer_tracks ht hesc hc hp hmin hmax hav).2
    obtain ⟨k, off', m, hio⟩ := ReadWorld.transfer_posts ht hc hp hmin hmax hav
    rcases outstanding_of_tracks hns (w := (w.take i).complete off n) hr ht' with
      ⟨atLeast, hio', -⟩ | hpost
    · exact absurd (hio'.symm.trans hio) (by simp)
    · exact hpost
  · exact absurd he (by simp)
  · exact absurd he (by simp)

/--
**`AsyncReadBuffer` is a faithful byte queue**, for every capacity, every sequence of
requests that fit it, every stream, every way it arrives and every size in which the port
completes its reads.
-/
theorem byte_queue_faithful (C : Nat) (ns : Nat → Nat) (hns : ∀ i, 1 ≤ ns i ∧ ns i ≤ C)
    (wire : List (List UInt8)) (es : List PortEvent) (w : ReadWorld Nat (List (List UInt8)))
    (hx : Lts.exec (ReadWorld.quietStep (requesting ns)) (startRequesting C ns wire) es
      = some w) : ByteQueue C ns wire.flatten w := by
  obtain ⟨used, rest, next, hstream, he, ht⟩ :=
    ReadWorld.exec_follows (ReadWorld.start_follows [] (.read (ns 0) 0) wire) hx
  have hr := requested_eats he
  have hnext : next = .read (ns w.user.length) w.user.length := hr.next
  obtain ⟨hvalid, hcap⟩ := reader_of_tracks (hnext ▸ ht)
  refine ⟨hcap, hvalid.read_le, ?_, hr.sizes, ?_, ?_⟩
  · rw [← hcap]
    exact hvalid.write_le
  · rw [hstream]
    exact outstanding_of_tracks hns hr ht
  · intro i n w' hs
    rw [hstream]
    exact transfer_delivers hns hr ht hs

/-- Requests of two and three bytes by turns, on a buffer of three: the second read has to
move the byte that the first has read too much. -/
theorem byte_queue_faithful_three :
    ∃ w, Lts.exec (ReadWorld.quietStep (requesting fun i => i % 2 + 2))
        (startRequesting 3 (fun i => i % 2 + 2) [[1, 2, 3], [4, 5]])
        [.arrive, .transfer 0 3, .run 0, .arrive, .transfer 0 2, .run 0] = some w
      ∧ ByteQueue 3 (fun i => i % 2 + 2) [[1, 2, 3], [4, 5]].flatten w
      ∧ w.user = [[1, 2], [3, 4, 5]] := by
  have hrun : ∃ w, Lts.exec (ReadWorld.quietStep (requesting fun i => i % 2 + 2))
      (startRequesting 3 (fun i => i % 2 + 2) [[1, 2, 3], [4, 5]])
      [.arrive, .transfer 0 3, .run 0, .arrive, .transfer 0 2, .run 0] = some w
      ∧ w.user = [[1, 2], [3, 4, 5]] := ⟨_, rfl, rfl⟩
  obtain ⟨w, hx, huser⟩ := hrun
  exact ⟨w, hx, byte_queue_faithful 3 _ (by intro i; omega) _ _ w hx, huser⟩

end RosserialServer
