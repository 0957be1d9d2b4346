import Mathlib.Data.List.Forall2
import RosserialServer.Proof.Frames

/-!
# Only real frames are dispatched

`Parsed stream dispatched` is the abstract statement: `stream` is a sequence of skipped
bytes and of accepted packets, and `dispatched` lists the packets. `Located` extends it
over the phases: in each phase the last bytes consumed are a known beginning of a
packet, so that a packet is complete, byte for byte, at the moment its body is routed.
One lemma about one served request (`located_feed`) carries it through every run.
-/

namespace RosserialServer

open Bytes MemBlock RosStream

/-- The stream is made of skipped bytes and of the accepted packets that were dispatched. -/
inductive Parsed : List UInt8 → List (UInt16 × List UInt8) → Prop where
  | nil : Parsed [] []
  | skip {stream : List UInt8} {dispatched : List (UInt16 × List UInt8)} (bytes : List UInt8) :
      Parsed stream dispatched → Parsed (stream ++ bytes) dispatched
  | frame {stream : List UInt8} {dispatched : List (UInt16 × List UInt8)} (p : Packet) :
      p.accepted → Parsed stream dispatched →
      Parsed (stream ++ p.bytes) (dispatched ++ [(p.topicId, p.payload)])

/-- Where in a packet the session is, after consuming `used`. -/
inductive Located : List UInt8 → List (UInt16 × List UInt8) → Next Handler → Prop where
  | head {used : List UInt8} {dispatched : List (UInt16 × List UInt8)} :
      Parsed used dispatched → Located used dispatched readAsyncHead
  | flag {pre : List UInt8} {dispatched : List (UInt16 × List UInt8)} :
      Parsed pre dispatched → Located (pre ++ [0xFF]) dispatched (.read 1 .readAsyncSecond)
  | sync {pre : List UInt8} {dispatched : List (UInt16 × List UInt8)} :
      Parsed pre dispatched → Located (pre ++ [0xFF, 0xFE]) dispatched (.read 5 .readLength)
  | header {pre : List UInt8} {dispatched : List (UInt16 × List UInt8)}
      {lo hi check t0 t1 : UInt8} :
      Parsed pre dispatched → lengthAccepted (word lo hi) check →
      Located (pre ++ [0xFF, 0xFE, lo, hi, check, t0, t1]) dispatched
        (.read ((word lo hi).toNat + 1) (.readBody (word t0 t1)))
  | ended {used : List UInt8} {dispatched : List (UInt16 × List UInt8)} {f : Failure} :
      Parsed used dispatched → Located used dispatched (.escape f)

/-- Whatever the phase, the bytes consumed so far are parsed. -/
theorem Located.parsed {used : List UInt8} {dispatched : List (UInt16 × List UInt8)}
    {next : Next Handler} (h : Located used dispatched next) : Parsed used dispatched := by
  cases h with
  | head hp => exact hp
  | flag hp => exact Parsed.skip _ hp
  | sync hp => exact Parsed.skip _ hp
  | header hp _ => exact Parsed.skip _ hp
  | ended hp => exact hp

/-- A complete header and body are the bytes of a packet. -/
theorem packet_of_bytes {lo hi check : UInt8} (t0 t1 cs : UInt8) {body : List UInt8}
    (hlen : body.length = (word lo hi).toNat) (hcheck : lengthAccepted (word lo hi) check) :
    ∃ p : Packet, p.topicId = word t0 t1 ∧ p.payload = body ∧ p.checksum = cs
      ∧ p.bytes = [0xFF, 0xFE, lo, hi, check, t0, t1] ++ (body ++ [cs]) := by
  have hshort : body.length < 2 ^ 16 := by
    rw [hlen]
    exact (word lo hi).toNat_lt
  have hword : UInt16.ofNat body.length = word lo hi := by
    rw [hlen, UInt16.ofNat_toNat]
  refine ⟨⟨word t0 t1, body, cs, hshort⟩, rfl, rfl, rfl, ?_⟩
  unfold Packet.bytes Packet.header Packet.contents Packet.length
  rw [hword, leBytes_word, leBytes_word, (lengthAccepted_iff _ _).mp hcheck]
  rfl

section Session

variable {τ : Type} {dispatch : Dispatch τ}

/-- A session that takes a chunk asked for that many bytes. -/
theorem chunk_size {session : Session τ} {next : Next Handler} {chunk : List UInt8}
    (hn : (sessionReader dispatch).need (session, next) = some chunk.length) :
    ∀ n k, next = .read n k → chunk.length = n := by
  intro n k hk
  rw [hk] at hn
  exact flat_chunk hn

/-- A chunk of one byte. -/
theorem chunk_one {chunk : List UInt8} (h : chunk.length = 1) : ∃ b, chunk = [b] :=
  List.length_eq_one_iff.mp h

/-- A chunk of the five bytes behind the sync bytes. -/
theorem chunk_five {chunk : List UInt8} (h : chunk.length = 5) :
    ∃ lo hi check t0 t1, chunk = [lo, hi, check, t0, t1] := by
  match chunk, h with
  | [lo, hi, check, t0, t1], _ => exact ⟨lo, hi, check, t0, t1, rfl⟩

/-- A body chunk is the body and its checksum. -/
theorem chunk_body {chunk : List UInt8} {n : Nat} (h : chunk.length = n + 1) :
    ∃ body cs, chunk = body ++ [cs] ∧ body.length = n := by
  have hne : chunk ≠ [] := List.ne_nil_of_length_eq_add_one h
  refine ⟨chunk.dropLast, chunk.getLast hne, (List.dropLast_append_getLast hne).symm, ?_⟩
  rw [List.length_dropLast, h, Nat.add_sub_cancel]

/-- Routing a body that is not accepted changes nothing. -/
theorem routeBody_rejected {session : Session τ} {p : Packet} (h : ¬p.accepted) :
    routeBody dispatch session p.topicId p.payload p.checksum = (session, readAsyncHead) :=
  if_neg h

theorem routeBody_ok {dispatch : Dispatch τ} {session : Session τ} {p : Packet}
    (h : p.accepted) {tables : τ}
    (hd : dispatch p.topicId (ofBuffer p.payload) session.tables = .ok tables) :
    routeBody dispatch session p.topicId p.payload p.checksum
      = ({ tables := tables, dispatched := session.dispatched ++ [(p.topicId, p.payload)] },
          readAsyncHead) := by
  unfold Packet.accepted at h
  unfold routeBody
  rw [if_pos h, hd]

theorem routeBody_error {dispatch : Dispatch τ} {session : Session τ} {p : Packet}
    (h : p.accepted) {f : Failure}
    (hd : dispatch p.topicId (ofBuffer p.payload) session.tables = .error f) :
    routeBody dispatch session p.topicId p.payload p.checksum
      = ({ session with dispatched := session.dispatched ++ [(p.topicId, p.payload)] },
          .escape f) := by
  unfold Packet.accepted at h
  unfold routeBody
  rw [if_pos h, hd]

/-- Routing an accepted body dispatches it. -/
theorem routeBody_accepted (dispatch : Dispatch τ) (session : Session τ) {p : Packet}
    (h : p.accepted) :
    (routeBody dispatch session p.topicId p.payload p.checksum).1.dispatched
        = session.dispatched ++ [(p.topicId, p.payload)]
      ∧ ((routeBody dispatch session p.topicId p.payload p.checksum).2 = readAsyncHead
        ∨ ∃ f, (routeBody dispatch session p.topicId p.payload p.checksum).2 = .escape f) := by
  cases hd : dispatch p.topicId (ofBuffer p.payload) session.tables with
  | error f =>
      rw [routeBody_error h hd]
      exact ⟨rfl, Or.inr ⟨f, rfl⟩⟩
  | ok tables =>
      rw [routeBody_ok h hd]
      exact ⟨rfl, Or.inl rfl⟩

/-- **Serving one request keeps the session located.** -/
theorem located_feed {used chunk : List UInt8} {session : Session τ} {next : Next Handler}
    (h : Located used session.dispatched next)
    (hn : (sessionReader dispatch).need (session, next) = some chunk.length) :
    Located (used ++ chunk) ((sessionReader dispatch).feed (session, next) chunk).1.dispatched
      ((sessionReader dispatch).feed (session, next) chunk).2 := by
  have hsize := chunk_size hn
  generalize hd : session.dispatched = dispatched at h
  cases h with
  | head hp =>
      obtain ⟨b, rfl⟩ := chunk_one (hsize _ _ rfl)
      show Located _ session.dispatched (readAsyncFirst (ofBuffer [b]))
      rw [readAsyncFirst_spec, hd]
      by_cases hb : b = 0xFF
      · rw [if_pos hb, hb]
        exact Located.flag hp
      · rw [if_neg hb]
        exact Located.head (Parsed.skip _ hp)
  | @flag pre _ hp =>
      obtain ⟨b, rfl⟩ := chunk_one (hsize _ _ rfl)
      show Located _ session.dispatched (readAsyncSecond (ofBuffer [b]))
      rw [readAsyncSecond_spec, hd, List.append_assoc]
      by_cases hb : b = 0xFE
      · rw [if_pos hb, hb]
        exact Located.sync hp
      · rw [if_neg hb]
        by_cases hv : b = 0xFF
        · rw [if_pos hv]
          exact Located.ended (Parsed.skip _ hp)
        · rw [if_neg hv]
          exact Located.head (Parsed.skip _ hp)
  | @sync pre _ hp =>
      obtain ⟨lo, hi, check, t0, t1, rfl⟩ := chunk_five (hsize _ _ rfl)
      show Located _ session.dispatched (readLength (ofBuffer [lo, hi, check, t0, t1]))
      rw [readLength_spec, hd, List.append_assoc]
      by_cases hacc : lengthAccepted (word lo hi) check
      · rw [if_pos hacc]
        exact Located.header hp hacc
      · rw [if_neg hacc]
        exact Located.head (Parsed.skip _ hp)
  | @header pre _ lo hi check t0 t1 hp hacc =>
      obtain ⟨body, cs, rfl, hlen⟩ := chunk_body (hsize _ _ rfl)
      -- header and body are all there: the bytes consumed end in a whole packet
      obtain ⟨p, htopic, hpay, hcs, hbytes⟩ := packet_of_bytes t0 t1 cs hlen hacc
      have hshort := p.short
      have hfeed : (sessionReader dispatch).feed
          (session, .read ((word lo hi).toNat + 1) (.readBody (word t0 t1))) (body ++ [cs])
          = routeBody dispatch session p.topicId p.payload p.checksum := by
        rw [htopic, hpay, hcs]
        rw [hpay] at hshort
        exact readBody_spec dispatch session _ (by omega)
      rw [hfeed, List.append_assoc, ← hbytes]
      by_cases hok : p.accepted
      · obtain ⟨hdisp, hnext⟩ := routeBody_accepted dispatch session hok
        rw [hdisp, hd]
        rcases hnext with hnext | ⟨f, hnext⟩
        · rw [hnext]
          exact Located.head (Parsed.frame p hok hp)
        · rw [hnext]
          exact Located.ended (Parsed.frame p hok hp)
      · rw [routeBody_rejected hok, hd]
        exact Located.head (Parsed.skip _ hp)
  | ended hp => exact absurd hn (by simp)

/-! ## Whole runs -/

theorem eats_located {s t : Session τ × Next Handler} {pre used : List UInt8}
    (h : Located pre s.1.dispatched s.2) (he : (sessionReader dispatch).Eats s used t) :
    Located (pre ++ used) t.1.dispatched t.2 := by
  induction he with
  | refl =>
      rw [List.append_nil]
      exact h
  | tail _ hn ih =>
      rw [← List.append_assoc]
      exact located_feed ih hn

/-- All that was dispatched was parsed from what was consumed of the stream. -/
def Found (stream : List UInt8) (dispatched : List (UInt16 × List UInt8)) : Prop :=
  ∃ used rest, stream = used ++ rest ∧ Parsed used dispatched

/-- The session follows the stream, or a failed read has silenced it. -/
def Hunting (dispatch : Dispatch τ) (tables : τ) (stream : List UInt8)
    (w : ReadWorld Handler (Session τ)) : Prop :=
  ReadWorld.Follows (handle dispatch) readerCapacity
      ({ tables := tables, dispatched := [] }, readAsyncHead) stream w
    ∨ (w.serviceIo = [] ∧ Found stream w.user.dispatched)

theorem Hunting.found {tables : τ} {stream : List UInt8} {w : ReadWorld Handler (Session τ)}
    (h : Hunting dispatch tables stream w) : Found stream w.user.dispatched := by
  rcases h with ⟨used, rest, next, hst, he, -⟩ | ⟨-, hf⟩
  · have hhead : Located [] ([] : List (UInt16 × List UInt8)) readAsyncHead :=
      Located.head Parsed.nil
    have hloc : Located ([] ++ used) w.user.dispatched next := eats_located hhead he
    rw [List.nil_append] at hloc
    exact ⟨used, rest, hst, hloc.parsed⟩
  · exact hf

theorem hunting_step {tables : τ} {stream : List UInt8} {w w' : ReadWorld Handler (Session τ)}
    {e : PortEvent} (h : Hunting dispatch tables stream w)
    (hs : w.step (handle dispatch) e = some w') : Hunting dispatch tables stream w' := by
  have hfound := h.found
  rcases h with hf | ⟨hio, -⟩
  · by_cases hq : e.isFail
    · obtain ⟨used, rest, next, -, -, ht⟩ := hf
      rcases (ReadWorld.step_cases hs).2 with ⟨rfl, -⟩ | ⟨i, n, c, off, size, d, rfl, -⟩ |
        ⟨i, c, off, size, d, rfl, hc, -, rfl⟩ | ⟨i, callback, off, len, rfl, -⟩
      · exact absurd hq (by simp [PortEvent.isFail])
      · exact absurd hq (by simp [PortEvent.isFail])
      · -- the only outstanding operation is taken out, and none is started
        refine Or.inr ⟨?_, hfound⟩
        show w.serviceIo.eraseIdx i ++ [] = []
        rw [List.append_nil]
        exact ht.eraseIdx hc
      · exact absurd hq (by simp [PortEvent.isFail])
    · have hquiet : w.quietStep (handle dispatch) e = some w' := by
        unfold ReadWorld.quietStep
        rw [if_neg hq]
        exact hs
      exact Or.inl (ReadWorld.step_follows hf hquiet)
  · -- once silenced, a session only sees further chunks arrive
    rcases (ReadWorld.step_cases hs).2 with ⟨-, chunk, wire, hw, rfl⟩ |
      ⟨i, _, c, _, _, _, -, hc, -⟩ | ⟨i, c, _, _, _, -, hc, -⟩ | ⟨i, _, _, _, -, hc, -⟩
    · exact Or.inr ⟨hio, hfound⟩
    all_goals rw [hio] at hc; exact absurd hc (by simp)

theorem found_reachable (dispatch : Dispatch τ) (tables : τ) {wire : List (List UInt8)}
    {es : List PortEvent} {w : ReadWorld Handler (Session τ)}
    (hx : Lts.exec (ReadWorld.step (handle dispatch)) (startRead tables wire) es = some w) :
    Found wire.flatten w.user.dispatched := by
  have hstart : Hunting dispatch tables wire.flatten (startRead tables wire) :=
    Or.inl (ReadWorld.start_follows _ _ wire)
  have hreached : Hunting dispatch tables wire.flatten w := by
    refine Lts.exec_invariant ?_ hstart hx
    intro u e u' hI hs
    exact hunting_step hI hs
  exact hreached.found

end Session

/-! ## The stretches of the stream -/

/-- The bytes of `stream` from `start` on are a frame for `topicId` with this body. -/
def Stretch (stream : List UInt8) (start : Nat) (topicId : UInt16) (body : List UInt8) : Prop :=
  ∃ lo hi lenCheck t0 t1 check : UInt8,
    slice stream start (body.length + 8) = [0xFF, 0xFE, lo, hi, lenCheck, t0, t1] ++ body ++ [check]
      ∧ lo.toNat + 256 * hi.toNat = body.length
      ∧ (lo.toNat + hi.toNat + lenCheck.toNat) % 256 = 255
      ∧ t0.toNat + 256 * t1.toNat = topicId.toNat
      ∧ (t0.toNat + t1.toNat + byteSum body + check.toNat) % 256 = 255

/-- A stretch stays one when the stream goes on. -/
theorem Stretch.append {stream : List UInt8} {start : Nat} {topicId : UInt16} {body : List UInt8}
    (h : Stretch stream start topicId body) (more : List UInt8) :
    Stretch (stream ++ more) start topicId body := by
  obtain ⟨lo, hi, lenCheck, t0, t1, check, hbytes, hrest⟩ := h
  refine ⟨lo, hi, lenCheck, t0, t1, check, ?_, hrest⟩
  have hlen := congrArg List.length hbytes
  unfold slice at hbytes hlen ⊢
  simp only [List.length_take, List.length_drop, List.length_append, List.length_cons,
    List.length_nil] at hlen
  rw [List.drop_append_of_le_length (by omega), List.take_append_of_le_length (by
    rw [List.length_drop]; omega)]
  exact hbytes

/-- An accepted packet is a stretch. -/
theorem stretch_packet (pre : List UInt8) {p : Packet} (h : p.accepted) :
    Stretch (pre ++ p.bytes) pre.length p.topicId p.payload := by
  obtain ⟨lo, hi, t0, t1, hlen, htopic, hbytes⟩ := p.bytes_eq
  have hshort := p.short
  refine ⟨lo, hi, lengthCheck p.length, t0, t1, p.checksum, ?_, ?_, ?_, ?_, ?_⟩
  · unfold slice
    rw [List.drop_left, ← p.length_bytes, List.take_length, hbytes, List.append_assoc]
  · rw [← word_toNat, hlen, p.length_toNat]
  · -- the code adds two sums that are reduced already
    have hacc := (lengthAccepted_iff p.length _).mpr rfl
    unfold lengthAccepted at hacc
    rw [beq_iff_eq, datasumForCheck_toNat, ← hlen, leBytes_word, hlen] at hacc
    simp only [byteSum_cons, byteSum_nil] at hacc
    omega
  · rw [← word_toNat, htopic]
  · unfold Packet.accepted bodyAccepted at h
    rw [beq_iff_eq, datasumForCheckStream_toNat _ (by omega), datasumForCheck_toNat, ← htopic,
      leBytes_word] at h
    simp only [byteSum_cons, byteSum_nil] at h
    omega

/-- The start and the `(topic_id, body)` of a frame, and where it ends. -/
def frameEnd (f : Nat × (UInt16 × List UInt8)) : Nat := f.1 + (f.2.2.length + 8)

theorem Parsed.starts {stream : List UInt8} {dispatched : List (UInt16 × List UInt8)}
    (h : Parsed stream dispatched) :
    ∃ starts : List Nat, List.Forall₂ (fun start d => Stretch stream start d.1 d.2) starts dispatched
      ∧ (starts.zip dispatched).Pairwise (fun f g => frameEnd f ≤ g.1)
      ∧ ∀ f ∈ starts.zip dispatched, frameEnd f ≤ stream.length := by
  induction h with
  | nil => exact ⟨[], List.Forall₂.nil, List.Pairwise.nil, by simp⟩
  | skip bytes _ ih =>
      obtain ⟨starts, hst, hord, hend⟩ := ih
      refine ⟨starts, hst.imp fun _ _ hs => hs.append bytes, hord, ?_⟩
      intro f hf
      have := hend f hf
      rw [List.length_append]
      omega
  | @frame stream dispatched p hacc _ ih =>
      obtain ⟨starts, hst, hord, hend⟩ := ih
      have hcount := hst.length_eq
      refine ⟨starts ++ [stream.length], ?_, ?_, ?_⟩
      · refine List.rel_append (hst.imp fun _ _ hs => hs.append p.bytes) ?_
        exact List.Forall₂.cons (stretch_packet stream hacc) List.Forall₂.nil
      · -- every earlier frame ends before the stream parsed so far does
        rw [List.zip_append hcount]
        refine List.pairwise_append.mpr ⟨hord, List.pairwise_singleton _ _, ?_⟩
        intro f hf g hg
        obtain rfl := List.mem_singleton.mp hg
        exact hend f hf
      · intro f hf
        rw [List.zip_append hcount] at hf
        rw [List.length_append, p.length_bytes]
        rcases List.mem_append.mp hf with hf | hf
        · have := hend f hf
          omega
        · obtain rfl := List.mem_singleton.mp hf
          exact Nat.le_refl _

/--
**Only real frames are dispatched.** In every reachable state, port failures included,
the dispatched pairs are frames of the stream, and they are disjoint and in order.
-/
theorem only_frames_dispatched {τ : Type} (dispatch : Dispatch τ) (tables : τ)
    (wire : List (List UInt8)) (es : List PortEvent) (w : ReadWorld Handler (Session τ))
    (hx : Lts.exec (ReadWorld.step (handle dispatch)) (startRead tables wire) es = some w) :
    ∃ starts : List Nat,
      List.Forall₂ (fun start d => Stretch wire.flatten start d.1 d.2) starts w.user.dispatched
        ∧ (starts.zip w.user.dispatched).Pairwise
          (fun f g => f.1 + (f.2.2.length + 8) ≤ g.1) := by
  obtain ⟨used, rest, hst, hp⟩ := found_reachable dispatch tables hx
  obtain ⟨starts, hfr, hord, -⟩ := hp.starts
  rw [hst]
  exact ⟨starts, hfr.imp fun _ _ hs => hs.append rest, hord⟩

set_option maxRecDepth 4000 in
/-- A frame that arrives whole, read with one transfer. -/
theorem only_frames_dispatched_one :
    ∃ w, Lts.exec (ReadWorld.step (handle ignoring))
        (startRead () [[0xFF, 0xFE, 1, 0, 0xFE, 7, 0, 3, 0xF5]])
        [.arrive, .transfer 0 9, .run 0, .run 0, .run 0, .run 0] = some w
      ∧ w.user.dispatched = [(7, [3])]
      ∧ ∃ starts : List Nat,
        List.Forall₂ (fun start d => Stretch [0xFF, 0xFE, 1, 0, 0xFE, 7, 0, 3, 0xF5] start d.1 d.2)
          starts w.user.dispatched
        ∧ (starts.zip w.user.dispatched).Pairwise (fun f g => f.1 + (f.2.2.length + 8) ≤ g.1) := by
  have hrun : ∃ w, Lts.exec (ReadWorld.step (handle ignoring))
        (startRead () [[0xFF, 0xFE, 1, 0, 0xFE, 7, 0, 3, 0xF5]])
        [.arrive, .transfer 0 9, .run 0, .run 0, .run 0, .run 0] = some w
      ∧ w.user.dispatched = [(7, [3])] := ⟨_, rfl, rfl⟩
  obtain ⟨w, hx, hd⟩ := hrun
  exact ⟨w, hx, hd, only_frames_dispatched ignoring () _ _ w hx⟩

end RosserialServer
