import RosserialServer.Proof.Extraction

/-!
# The read loop

The loop is kept alive by each handler asking for the next bytes, and only by that.
`Phased` lists the requests a session can make; all but one fit the buffer whatever is
on the wire. The exception is the body request of `read_length`, whose size is the
length field: `read` refuses it when it exceeds the capacity, and the session never asks
for anything again. `read_loop_live_iff` says that this is the only way to fall silent.

That the chunks do not matter is read off `settles`: both runs end where the flat reader
halts.
-/

namespace RosserialServer

open Bytes MemBlock RosStream

variable {τ : Type} {dispatch : Dispatch τ}

/-- Where a run has ended: the session, what it waits for, what is unread, and whether
it waits in vain. -/
structure Ended (session : Session τ) (next : Next Handler) (rest : List UInt8) (stalled : Prop)
    (w : ReadWorld Handler (Session τ)) : Prop where
  session : w.user = session
  phase : w.phase = some next
  unread : w.unread = rest
  stalled : w.serviceIo = [] ↔ stalled

/-- **Chunking does not matter.** -/
theorem chunking_irrelevant (dispatch : Dispatch τ) (tables : τ) (wire wire' : List (List UInt8))
    (h : wire.flatten = wire'.flatten) :
    ∃ session next rest stalled,
      Lts.Inevitably (ReadWorld.quietStep (handle dispatch)) (Ended session next rest stalled)
        (startRead tables wire)
      ∧ Lts.Inevitably (ReadWorld.quietStep (handle dispatch)) (Ended session next rest stalled)
        (startRead tables wire') := by
  obtain ⟨t, rest, hh⟩ := Demand.halts_exists (M := sessionReader dispatch)
    ({ tables := tables, dispatched := [] }, readAsyncHead) wire.flatten
  have hended : ∀ w, ReadWorld.Rests (handle dispatch) readerCapacity t rest w
      → Ended t.1 t.2 rest ((sessionReader dispatch).need t = none) w := by
    intro w hw
    exact ⟨hw.user, hw.phase, hw.unread, hw.silent⟩
  refine ⟨t.1, t.2, rest, _, (ReadWorld.settles hh).mono hended, ?_⟩
  rw [h] at hh
  exact (ReadWorld.settles hh).mono hended

/-- The two halves of the sync flag in two chunks, and in one. -/
theorem chunking_irrelevant_flag :
    ∃ session next rest stalled,
      Lts.Inevitably (ReadWorld.quietStep (handle ignoring)) (Ended session next rest stalled)
        (startRead () [[0xFF], [0xFE]])
      ∧ Lts.Inevitably (ReadWorld.quietStep (handle ignoring)) (Ended session next rest stalled)
        (startRead () [[0xFF, 0xFE]]) :=
  chunking_irrelevant ignoring () [[0xFF], [0xFE]] [[0xFF, 0xFE]] rfl

/-! ## Falling silent -/

/-- Exactly one continuation is outstanding: a port read, or the delivery of the
requested bytes. -/
def Live (w : ReadWorld Handler (Session τ)) : Prop :=
  (∃ off size atLeast, w.serviceIo = [.asyncRead off size atLeast])
    ∨ ∃ k off, w.reader.readSussessCallback = some k
      ∧ w.serviceIo = [.post (some k) off w.reader.readRequestedBytes]

theorem not_live_of_silent {w : ReadWorld Handler (Session τ)} (h : w.serviceIo = []) : ¬Live w := by
  rintro (⟨_, _, _, hread⟩ | ⟨_, _, _, hpost⟩)
  · rw [h] at hread
    exact absurd hread (by simp)
  · rw [h] at hpost
    exact absurd hpost (by simp)

/-- A header that passes its check with a length the buffer cannot hold. -/
def OversizedHeader (chunk : List UInt8) : Prop :=
  ∃ lo hi check t0 t1, chunk = [lo, hi, check, t0, t1] ∧ lengthAccepted (word lo hi) check
    ∧ 511 < (word lo hi).toNat

theorem oversizedHeader_iff (lo hi check t0 t1 : UInt8) :
    OversizedHeader [lo, hi, check, t0, t1]
      ↔ lengthAccepted (word lo hi) check ∧ 511 < (word lo hi).toNat := by
  constructor
  · rintro ⟨lo', hi', check', t0', t1', heq, h⟩
    injection heq with h1 heq
    injection heq with h2 heq
    injection heq with h3 _
    rw [h1, h2, h3]
    exact h
  · intro h
    exact ⟨lo, hi, check, t0, t1, rfl, h⟩

/-- The event runs `read_length` on a header that passes its check with a length the
buffer cannot hold. -/
def Oversized (w : ReadWorld Handler (Session τ)) (e : PortEvent) : Prop :=
  ∃ i off, e = .run i ∧ w.serviceIo[i]? = some (.post (some .readLength) off 5)
    ∧ OversizedHeader (slice w.reader.mem off 5)

/-- A tracked session is live exactly when its request is one the buffer serves. -/
theorem live_iff (dispatch : Dispatch τ) {w : ReadWorld Handler (Session τ)}
    {next : Next Handler} {rest : List UInt8} (h : ReadWorld.Tracks readerCapacity w next rest) :
    Live w ↔ (sessionReader dispatch).need (w.user, next) ≠ none := by
  cases h with
  | waiting hesc hgood hs hio =>
      rw [flat_need_read hgood]
      exact iff_of_true (Or.inl ⟨_, _, _, hio⟩) (by simp)
  | @posted n off k _ _ hesc hgood hs hio _ _ =>
      rw [flat_need_read hgood]
      refine iff_of_true (Or.inr ⟨k, off, hs.callback, ?_⟩) (by simp)
      rw [hio, hs.requested]
  | refused hesc hbad hs hio =>
      rw [flat_need_refused hbad]
      exact iff_of_false (not_live_of_silent hio) fun hc => hc rfl
  | ended hesc hio => exact iff_of_false (not_live_of_silent hio) fun hc => hc rfl

/-- What is posted in a tracked world is the front of the stream. -/
theorem posted_front {w : ReadWorld Handler (Session τ)} {next : Next Handler}
    {rest : List UInt8} {i off len : Nat} {callback : Option Handler}
    (h : ReadWorld.Tracks readerCapacity w next rest)
    (hc : w.serviceIo[i]? = some (.post callback off len)) :
    ∃ k, next = .read len k ∧ callback = some k
      ∧ slice w.reader.mem off len = rest.take len ∧ len ≤ rest.length := by
  cases h with
  | waiting _ _ _ hio =>
      rw [hio] at hc
      exact absurd (ReadWorld.getElem?_singleton hc).2 (by simp)
  | @posted n off' k chunk held _ _ _ hio hsl hlen =>
      rw [hio] at hc
      obtain ⟨rfl, hpost⟩ := ReadWorld.getElem?_singleton hc
      injection hpost with h1 h2 h3
      subst h1; subst h2; subst h3
      refine ⟨k, rfl, rfl, ?_, ?_⟩
      · rw [hsl, ← hlen, List.take_left]
      · rw [List.length_append]
        omega
  | refused _ _ _ hio =>
      rw [hio] at hc
      exact absurd hc (by simp)
  | ended _ hio =>
      rw [hio] at hc
      exact absurd hc (by simp)

/-- **What a handler asks for next is served, unless it is an oversized body.** -/
theorem next_served_iff {used chunk : List UInt8} {session : Session τ} {next : Next Handler}
    (h : Located used session.dispatched next)
    (hn : (sessionReader dispatch).need (session, next) = some chunk.length)
    (hesc : ∀ f, ((sessionReader dispatch).feed (session, next) chunk).2 ≠ .escape f) :
    (sessionReader dispatch).need ((sessionReader dispatch).feed (session, next) chunk) ≠ none
      ↔ ¬(next = .read 5 .readLength ∧ OversizedHeader chunk) := by
  have hsize := chunk_size hn
  have hhead : ∀ s : Session τ, (sessionReader dispatch).need (s, readAsyncHead) ≠ none := by
    intro s
    have h1 : (sessionReader dispatch).need (s, readAsyncHead) = some 1 :=
      flat_need_read (by decide)
    rw [h1]
    simp
  generalize hd : session.dispatched = dispatched at h
  cases h with
  | head _ =>
      obtain ⟨b, rfl⟩ := chunk_one (hsize _ _ rfl)
      refine iff_of_true ?_ (by simp [readAsyncHead])
      show (sessionReader dispatch).need (session, readAsyncFirst (ofBuffer [b])) ≠ none
      rw [readAsyncFirst_spec]
      by_cases hb : b = 0xFF
      · rw [if_pos hb, flat_need_read (by decide)]
        simp
      · rw [if_neg hb]
        exact hhead session
  | flag _ =>
      obtain ⟨b, rfl⟩ := chunk_one (hsize _ _ rfl)
      refine iff_of_true ?_ (by simp)
      have hfeed : (sessionReader dispatch).feed (session, .read 1 .readAsyncSecond) [b]
        = (session, readAsyncSecond (ofBuffer [b])) := rfl
      rw [hfeed, readAsyncSecond_spec] at hesc ⊢
      by_cases hb : b = 0xFE
      · rw [if_pos hb, flat_need_read (by decide)]
        simp
      · rw [if_neg hb] at hesc ⊢
        by_cases hv : b = 0xFF
        · rw [if_pos hv] at hesc
          exact absurd rfl (hesc _)
        · rw [if_neg hv]
          exact hhead session
  | sync _ =>
      obtain ⟨lo, hi, check, t0, t1, rfl⟩ := chunk_five (hsize _ _ rfl)
      show (sessionReader dispatch).need
        (session, readLength (ofBuffer [lo, hi, check, t0, t1])) ≠ none ↔ _
      rw [readLength_spec, oversizedHeader_iff]
      by_cases hacc : lengthAccepted (word lo hi) check
      · -- the one request whose size is read off the wire
        rw [if_pos hacc]
        by_cases hbig : 511 < (word lo hi).toNat
        · rw [flat_need_refused (by unfold readerCapacity; omega)]
          simp [hacc, hbig]
        · rw [flat_need_read (by unfold readerCapacity; omega)]
          simp [hbig]
      · rw [if_neg hacc]
        simp [hacc, hhead session]
  | @header _ _ lo hi check t0 t1 _ _ =>
      obtain ⟨body, cs, rfl, hlen⟩ := chunk_body (hsize _ _ rfl)
      refine iff_of_true ?_ (by simp)
      have hfeed : (sessionReader dispatch).feed
          (session, .read ((word lo hi).toNat + 1) (.readBody (word t0 t1))) (body ++ [cs])
          = routeBody dispatch session (word t0 t1) body cs := by
        have := (word lo hi).toNat_lt
        exact readBody_spec dispatch session _ (by omega)
      rw [hfeed] at hesc ⊢
      unfold routeBody at hesc ⊢
      split
      · rename_i hacc
        rw [if_pos hacc] at hesc
        split
        · rename_i f hf
          rw [hf] at hesc
          exact absurd rfl (hesc f)
        · exact hhead _
      · exact hhead _
  | ended _ => exact absurd hn (by simp)

/-- The session follows the stream, at a known place in a packet. -/
def OnTrack (w : ReadWorld Handler (Session τ)) : Prop :=
  ∃ used rest next, Located used w.user.dispatched next
    ∧ ReadWorld.Tracks readerCapacity w next rest

theorem onTrack_step {w w' : ReadWorld Handler (Session τ)} {e : PortEvent}
    (h : OnTrack w) (hs : w.quietStep (handle dispatch) e = some w') : OnTrack w' := by
  obtain ⟨used, rest, next, hloc, ht⟩ := h
  rcases ReadWorld.step_tracks ht hs with ⟨hu, -, ht'⟩ | ⟨chunk, rest', next', -, hn, hf, -, ht'⟩
  · exact ⟨used, rest, next, by rw [hu]; exact hloc, ht'⟩
  · have := located_feed hloc hn
    rw [← hf] at this
    exact ⟨used ++ chunk, rest', next', this, ht'⟩

theorem startRead_tracks (tables : τ) (wire : List (List UInt8)) :
    ReadWorld.Tracks readerCapacity (startRead tables wire) readAsyncHead wire.flatten :=
  ReadWorld.start_tracks readerCapacity _ readAsyncHead wire

theorem startRead_onTrack (tables : τ) (wire : List (List UInt8)) :
    OnTrack (startRead tables wire) := by
  have huser : (startRead tables wire).user = { tables := tables, dispatched := [] } :=
    ReadWorld.start_user _ _ _ _
  refine ⟨[], _, readAsyncHead, ?_, startRead_tracks tables wire⟩
  rw [huser]
  exact Located.head Parsed.nil

theorem startRead_live (dispatch : Dispatch τ) (tables : τ) (wire : List (List UInt8)) :
    Live (startRead tables wire) := by
  refine (live_iff dispatch (startRead_tracks tables wire)).mpr ?_
  have hone : (sessionReader dispatch).need ((startRead tables wire).user, readAsyncHead)
      = some 1 := flat_need_read (by decide)
  intro hnone
  exact absurd (hone.symm.trans hnone) (by simp)

/-- **One step of a live session** leaves it live unless it runs an oversized header. -/
theorem live_step {w w' : ReadWorld Handler (Session τ)} {e : PortEvent}
    (h : OnTrack w) (hlive : Live w) (hesc' : w'.escaped = none)
    (hs : w.quietStep (handle dispatch) e = some w') : Live w' ↔ ¬Oversized w e := by
  obtain ⟨used, rest, next, hloc, ht⟩ := h
  obtain ⟨hq, hs⟩ := ReadWorld.quietStep_some hs
  have hserved := (live_iff dispatch ht).mp hlive
  obtain ⟨hesc, hcases⟩ := ReadWorld.step_cases hs
  rcases hcases with ⟨rfl, chunk, wire, hw, rfl⟩ |
    ⟨i, n, c, off, size, d, rfl, hc, hp, hmin, hmax, hav, rfl⟩ | ⟨i, c, off, size, d, rfl, -⟩ |
    ⟨i, callback, off, len, rfl, hc, rfl⟩
  · have hno : ¬Oversized w .arrive := by
      rintro ⟨_, _, he, -⟩
      exact absurd he (by simp)
    exact iff_of_true hlive hno
  · have ht' := (ReadWorld.transfer_tracks ht hesc hc hp hmin hmax hav).2
    have hno : ¬Oversized w (.transfer i n) := by
      rintro ⟨_, _, he, -⟩
      exact absurd he (by simp)
    exact iff_of_true ((live_iff dispatch ht').mpr hserved) hno
  · exact absurd hq (by simp [PortEvent.isFail])
  · -- only running a callback changes what the session waits for
    obtain ⟨chunk, rest', next', hrest, hn, hf, -, ht'⟩ :=
      ReadWorld.run_tracks (handle dispatch) ht hesc hc
    obtain ⟨k, rfl, rfl, hsl, hle⟩ := posted_front ht hc
    have hlen : chunk.length = len := chunk_size hn len k rfl
    have hchunk : slice w.reader.mem off len = chunk := by
      rw [hsl, hrest, ← hlen, List.take_left]
    have hnesc : ∀ f,
        ((sessionReader dispatch).feed (w.user, .read len k) chunk).2 ≠ .escape f := by
      intro f hfeed
      rw [← hf] at hfeed
      exact ht'.not_escape hesc' f hfeed
    rw [live_iff dispatch ht', hf, next_served_iff hloc hn hnesc]
    refine not_congr ⟨?_, ?_⟩
    · rintro ⟨hnext, hbig⟩
      injection hnext with h1 h2
      subst h1; subst h2
      exact ⟨i, off, rfl, hc, by rw [hchunk]; exact hbig⟩
    · rintro ⟨j, off', he, hc', hbig⟩
      injection he with hij
      subst hij
      rw [hc] at hc'
      injection hc' with hc'
      injection hc' with h1 h2 h3
      injection h1 with h1
      subst h1; subst h2; subst h3
      rw [hchunk] at hbig
      exact ⟨rfl, hbig⟩

/--
**The read loop stays live exactly as long as no oversized header is run.** In a run
without port errors and without an exception, every state has exactly one outstanding
continuation if and only if no step runs a header that passes its check with a length
above 511.
-/
theorem read_loop_live_iff (dispatch : Dispatch τ) (tables : τ) (wire : List (List UInt8))
    (es : List PortEvent) (w : ReadWorld Handler (Session τ))
    (hx : Lts.exec (ReadWorld.quietStep (handle dispatch)) (startRead tables wire) es = some w)
    (hesc : w.escaped = none) :
    Lts.Visits (ReadWorld.quietStep (handle dispatch)) Live (startRead tables wire) es
      ↔ Lts.Takes (ReadWorld.quietStep (handle dispatch)) (fun u e => ¬Oversized u e)
        (startRead tables wire) es := by
  refine Lts.visits_iff_takes (I := OnTrack) (K := fun w => w.escaped = none) ?_ ?_ ?_ ?_ ?_ hx hesc
  · intro s e s' hI hs
    exact onTrack_step hI hs
  · intro s e s' hs _
    exact (ReadWorld.step_cases (ReadWorld.quietStep_some hs).2).1
  · intro s e s' hI hP hK hs
    exact live_step hI hP hK hs
  · exact startRead_onTrack tables wire
  · exact startRead_live dispatch tables wire

theorem not_oversized_event {w : ReadWorld Handler (Session τ)} {e : PortEvent}
    (h : ∀ i, e ≠ .run i) : ¬Oversized w e := by
  rintro ⟨i, off, he, -⟩
  exact h i he

/-- Running a continuation other than `read_length`, or on a header that fits. -/
theorem not_oversized_run {w : ReadWorld Handler (Session τ)} {i off len : Nat}
    {callback : Option Handler} (hio : w.serviceIo[i]? = some (.post callback off len))
    (h : callback = some .readLength → ¬OversizedHeader (slice w.reader.mem off 5)) :
    ¬Oversized w (.run i) := by
  rintro ⟨i', off', he, hpost, hbig⟩
  obtain rfl := PortEvent.run.inj he
  rw [hio] at hpost
  obtain ⟨rfl, rfl, -⟩ := Continuation.post.inj (Option.some.inj hpost)
  exact h rfl hbig

set_option maxRecDepth 4000 in
/-- An empty frame for topic 7, whose header announces no body bytes. -/
theorem read_loop_live_empty :
    Lts.Visits (ReadWorld.quietStep (handle ignoring)) Live
      (startRead () [[0xFF, 0xFE, 0, 0, 0xFF, 7, 0, 0xF8]])
      [.arrive, .transfer 0 8, .run 0, .run 0, .run 0, .run 0] := by
  have hrun : ∃ w, Lts.exec (ReadWorld.quietStep (handle ignoring))
      (startRead () [[0xFF, 0xFE, 0, 0, 0xFF, 7, 0, 0xF8]])
      [.arrive, .transfer 0 8, .run 0, .run 0, .run 0, .run 0] = some w
      ∧ w.escaped = none := ⟨_, rfl, rfl⟩
  obtain ⟨w, hx, hesc⟩ := hrun
  refine (read_loop_live_iff ignoring () _ _ w hx hesc).mpr ?_
  refine (Lts.takes_cons rfl).mpr ⟨not_oversized_event (by simp), ?_⟩
  refine (Lts.takes_cons rfl).mpr ⟨not_oversized_event (by simp), ?_⟩
  -- `FF`, then `FE`
  refine (Lts.takes_cons rfl).mpr ⟨not_oversized_run rfl fun h => absurd h (by decide), ?_⟩
  refine (Lts.takes_cons rfl).mpr ⟨not_oversized_run rfl fun h => absurd h (by decide), ?_⟩
  -- the header
  refine (Lts.takes_cons rfl).mpr ⟨not_oversized_run rfl fun _ => ?_, ?_⟩
  · show ¬OversizedHeader [0, 0, 0xFF, 7, 0]
    rw [oversizedHeader_iff]
    decide
  -- the body
  · exact (Lts.takes_cons rfl).mpr ⟨not_oversized_run rfl fun h => absurd h (by decide), trivial⟩

set_option maxRecDepth 4000 in
/-- The header `FF FE 00 02 FD` announces 512 bytes and passes its check. -/
theorem read_loop_silenced :
    ∃ w, Lts.exec (ReadWorld.quietStep (handle ignoring))
        (startRead () [[0xFF, 0xFE, 0, 2, 0xFD, 7, 0]])
        [.arrive, .transfer 0 7, .run 0, .run 0, .run 0] = some w
      ∧ w.escaped = none ∧ ¬Live w := by
  have hrun : ∃ w, Lts.exec (ReadWorld.quietStep (handle ignoring))
      (startRead () [[0xFF, 0xFE, 0, 2, 0xFD, 7, 0]])
      [.arrive, .transfer 0 7, .run 0, .run 0, .run 0] = some w
      ∧ w.escaped = none ∧ w.serviceIo = [] := ⟨_, rfl, rfl, rfl⟩
  obtain ⟨w, hx, hesc, hio⟩ := hrun
  exact ⟨w, hx, hesc, not_live_of_silent hio⟩

end RosserialServer
