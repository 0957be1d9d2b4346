import RosserialServer.Lib.Demand
import RosserialServer.Proof.ReadBuffer
import RosserialServer.Transport.Port

/-!
# The buffered reader refines a reader of the flat stream

The user of an `AsyncReadBuffer` is meant to see nothing but the byte stream, cut
where it asked for cuts. `flat` is that reader: a demand machine whose states are
the user's state and its outstanding request, fed straight from the stream. This
file shows that the run-time system — buffer, port, `io_context`, any chunking, any
completion sizes — is a correct implementation of it.

`Tracks` relates a world to the request it is serving and to the part of the stream
that request and all later ones will be served from. Every event either leaves both
alone or is the delivery of exactly the next requested bytes (`step_tracks`). With
the measure `supply` this gives `settles`: every run stops, and where it stops is
where the flat reader halts.
-/

namespace RosserialServer

open MemBlock

variable {κ ρ : Type}

/-- The reader of a flat stream that the callbacks `react` program. -/
def flat (react : Reaction κ ρ) (C : Nat) : Demand (ρ × Next κ) UInt8 where
  need s :=
    match s.2 with
    | .read n _ => if 0 < n ∧ n ≤ C then some n else none
    | .escape _ => none
  feed s bytes :=
    match s.2 with
    | .read _ k => react k s.1 (RosStream.ofBuffer bytes)
    | .escape _ => s
  need_pos := by
    intro s n h
    cases hs : s.2 with
    | read m k =>
        rw [hs] at h
        dsimp only at h
        split at h
        · rename_i hm
          rw [← Option.some.inj h]; exact hm.1
        · exact absurd h (by simp)
    | escape f => rw [hs] at h; exact absurd h (by simp)

theorem flat_need_read {react : Reaction κ ρ} {C n : Nat} {k : κ} {user : ρ}
    (h : 0 < n ∧ n ≤ C) : (flat react C).need (user, .read n k) = some n := if_pos h

theorem flat_need_refused {react : Reaction κ ρ} {C n : Nat} {k : κ} {user : ρ}
    (h : ¬(0 < n ∧ n ≤ C)) : (flat react C).need (user, .read n k) = none := if_neg h

/-- What is fed is as much as was asked for. -/
theorem flat_chunk {react : Reaction κ ρ} {C n : Nat} {k : κ} {user : ρ} {chunk : List UInt8}
    (hn : (flat react C).need (user, .read n k) = some chunk.length) : chunk.length = n := by
  by_cases hgood : 0 < n ∧ n ≤ C
  · rw [flat_need_read hgood] at hn
    exact (Option.some.inj hn).symm
  · rw [flat_need_refused hgood] at hn
    exact absurd hn (by simp)

@[simp] theorem flat_need_escape {react : Reaction κ ρ} {C : Nat} {f : Failure} {user : ρ} :
    (flat react C).need (user, .escape f) = none := rfl

@[simp] theorem flat_feed_read {react : Reaction κ ρ} {C n : Nat} {k : κ} {user : ρ}
    {bytes : List UInt8} : (flat react C).feed (user, .read n k) bytes
      = react k user (RosStream.ofBuffer bytes) := rfl

namespace ReadWorld

/-- The bytes of the stream that no delivery has taken yet. -/
def unread (w : ReadWorld κ ρ) : List UInt8 := w.reader.content ++ w.arrived ++ w.wire.flatten

/-- What a world is waiting for, or how it ended. -/
def phase (w : ReadWorld κ ρ) : Option (Next κ) :=
  match w.escaped with
  | some f => some (.escape f)
  | none => w.reader.readSussessCallback.map (Next.read w.reader.readRequestedBytes)

/-! ## What one event can do -/

/-- The outstanding operation is a port read into offset `off` that needs `atLeast` bytes. -/
def IsPortRead (c : Continuation κ) (off size atLeast : Nat) : Prop :=
  c = .asyncRead off size atLeast ∨ (c = .asyncReadSome off size ∧ atLeast = 1)

/-- **Everything an event can do.** -/
theorem step_cases {react : Reaction κ ρ} {w w' : ReadWorld κ ρ} {e : PortEvent}
    (h : w.step react e = some w') :
    w.escaped = none ∧
      ((e = .arrive ∧ ∃ chunk wire, w.wire = chunk :: wire
          ∧ w' = { w with arrived := w.arrived ++ chunk, wire := wire })
      ∨ (∃ i n c off size atLeast, e = .transfer i n ∧ w.serviceIo[i]? = some c
          ∧ IsPortRead c off size atLeast ∧ atLeast ≤ n ∧ n ≤ size ∧ n ≤ w.arrived.length
          ∧ w' = (w.take i).complete off n)
      ∨ (∃ i c off size atLeast, e = .fail i ∧ w.serviceIo[i]? = some c
          ∧ IsPortRead c off size atLeast ∧ w' = (w.take i).failRead)
      ∨ (∃ i callback off len, e = .run i ∧ w.serviceIo[i]? = some (.post callback off len)
          ∧ w' = (w.take i).runPosted react callback off len)) := by
  unfold step at h
  split at h
  · exact absurd h (by simp)
  · rename_i hesc
    refine ⟨by simpa using hesc, ?_⟩
    cases e with
    | arrive =>
        left
        cases hw : w.wire with
        | nil => rw [hw] at h; exact absurd h (by simp)
        | cons chunk wire =>
            rw [hw] at h
            exact ⟨rfl, chunk, wire, rfl, (Option.some.inj h).symm⟩
    | transfer i n =>
        right; left
        dsimp only at h
        split at h
        · rename_i off size atLeast hc
          split at h
          · rename_i hn
            exact ⟨i, n, _, off, size, atLeast, rfl, hc, Or.inl rfl, hn.1, hn.2.1, hn.2.2,
              (Option.some.inj h).symm⟩
          · exact absurd h (by simp)
        · rename_i off size hc
          split at h
          · rename_i hn
            exact ⟨i, n, _, off, size, 1, rfl, hc, Or.inr ⟨rfl, rfl⟩, hn.1, hn.2.1, hn.2.2,
              (Option.some.inj h).symm⟩
          · exact absurd h (by simp)
        · exact absurd h (by simp)
    | fail i =>
        right; right; left
        dsimp only at h
        split at h
        · rename_i off size atLeast hc
          exact ⟨i, _, off, size, atLeast, rfl, hc, Or.inl rfl, (Option.some.inj h).symm⟩
        · rename_i off size hc
          exact ⟨i, _, off, size, 1, rfl, hc, Or.inr ⟨rfl, rfl⟩, (Option.some.inj h).symm⟩
        · exact absurd h (by simp)
    | run i =>
        right; right; right
        dsimp only at h
        split at h
        · rename_i callback off len hc
          exact ⟨i, callback, off, len, rfl, hc, (Option.some.inj h).symm⟩
        · exact absurd h (by simp)

theorem quietStep_some {react : Reaction κ ρ} {w w' : ReadWorld κ ρ} {e : PortEvent}
    (h : w.quietStep react e = some w') : e.isFail = false ∧ w.step react e = some w' := by
  unfold quietStep at h
  split at h
  · exact absurd h (by simp)
  · rename_i he
    exact ⟨by simpa using he, h⟩

/-! ## The refinement relation -/

/--
The world serves the request `next`, and that request and all later ones are served
from `rest`.
-/
inductive Tracks (C : Nat) (w : ReadWorld κ ρ) : Next κ → List UInt8 → Prop where
  /-- A port read is outstanding. -/
  | waiting {n : Nat} {k : κ} {held : List UInt8} :
      w.escaped = none → 0 < n ∧ n ≤ C → w.reader.Waiting C n k held →
      w.serviceIo = [.asyncRead w.reader.writeIndex w.reader.tailRemainBytes
        (n - held.length)] →
      Tracks C w (.read n k) w.unread
  /-- The delivery is posted, and its slice still holds `chunk`. -/
  | posted {n off : Nat} {k : κ} {chunk held : List UInt8} :
      w.escaped = none → 0 < n ∧ n ≤ C → w.reader.Serving C n k held →
      w.serviceIo = [.post (some k) off n] → slice w.reader.mem off n = chunk →
      chunk.length = n → Tracks C w (.read n k) (chunk ++ w.unread)
  /-- The request was refused. -/
  | refused {n : Nat} {k : κ} {held : List UInt8} :
      w.escaped = none → ¬(0 < n ∧ n ≤ C) → w.reader.Serving C n k held → w.serviceIo = [] →
      Tracks C w (.read n k) w.unread
  /-- An exception ended the session. -/
  | ended {f : Failure} : w.escaped = some f → w.serviceIo = [] → Tracks C w (.escape f) w.unread

/-- Whatever a callback asks for next, the world serves it from what is unread. -/
theorem perform_tracks {C : Nat} {w : ReadWorld κ ρ} (hv : w.reader.Valid)
    (hC : w.reader.mem.length = C) (hio : w.serviceIo = []) (hesc : w.escaped = none)
    (next : Next κ) : Tracks C (w.perform next) next w.unread := by
  cases next with
  | escape f => exact Tracks.ended rfl hio
  | read n k =>
      have hperf : w.perform (.read n k) = { w with
          reader := (w.reader.read n k).1
          serviceIo := w.serviceIo ++ (w.reader.read n k).2.toList } := rfl
      rcases AsyncReadBuffer.read_cases n k hv hC with ⟨hbad, hc, hs⟩ | ⟨hgood, hc, hs⟩ |
        ⟨hgood, off, hc, hs, hsl, hn⟩
      · -- nothing was started, so nothing moves
        have hun : (w.perform (.read n k)).unread = w.unread := by
          rw [hperf]; unfold unread; rw [hs.holds]
        rw [← hun]
        exact Tracks.refused hesc hbad hs (by rw [hperf, hio, hc]; rfl)
      · -- a port read for what is missing; making room kept the unread bytes
        have hun : (w.perform (.read n k)).unread = w.unread := by
          rw [hperf]; unfold unread; rw [hs.serving.holds]
        rw [← hun]
        exact Tracks.waiting hesc hgood hs (by rw [hperf, hio, hc]; rfl)
      · -- the buffer held enough: the head of its content is posted
        have hun : w.unread = w.reader.content.take n ++ (w.perform (.read n k)).unread := by
          rw [hperf]; unfold unread; rw [hs.holds]
          simp only [← List.append_assoc, List.take_append_drop]
        rw [hun]
        exact Tracks.posted hesc hgood hs (by rw [hperf, hio, hc]; rfl) hsl
          (by rw [List.length_take]; omega)

theorem start_tracks (C : Nat) (user : ρ) (first : Next κ) (wire : List (List UInt8)) :
    Tracks C (start C user first wire) first wire.flatten := by
  have h := perform_tracks (C := C)
    (w := { reader := .new C, serviceIo := [], user := user, escaped := none
            arrived := [], wire := wire })
    (AsyncReadBuffer.valid_new C) (by simp [AsyncReadBuffer.new]) rfl rfl first
  rw [unread, AsyncReadBuffer.content_new, List.append_nil, List.nil_append] at h
  exact h

@[simp] theorem perform_user (w : ReadWorld κ ρ) (next : Next κ) :
    (w.perform next).user = w.user := by
  cases next <;> rfl

@[simp] theorem start_user (C : Nat) (user : ρ) (first : Next κ) (wire : List (List UInt8)) :
    (start C user first wire).user = user := perform_user _ _

/-- What the port still has to deliver: lowered by arrivals and by transfers. -/
def supply (w : ReadWorld κ ρ) : Nat :=
  w.wire.length + w.arrived.length + w.wire.flatten.length

/-- What is in the reader already: lowered when a delivery is run. -/
def toServe (w : ReadWorld κ ρ) : Nat :=
  w.unread.length + (w.serviceIo.map fun c => match c with
    | .post _ _ len => len
    | _ => 0).sum

theorem perform_supply (w : ReadWorld κ ρ) (next : Next κ) :
    (w.perform next).supply = w.supply := by
  cases next <;> rfl

/-! ## Each kind of event -/

theorem Tracks.not_escape {C : Nat} {w : ReadWorld κ ρ} {next : Next κ} {rest : List UInt8}
    (h : Tracks C w next rest) (hesc : w.escaped = none) (f : Failure) : next ≠ .escape f := by
  cases h with
  | waiting _ _ _ _ => simp
  | posted _ _ _ _ _ _ => simp
  | refused _ _ _ _ => simp
  | ended he _ => rw [hesc] at he; exact absurd he (by simp)

theorem Tracks.toServe {C : Nat} {w : ReadWorld κ ρ} {next : Next κ} {rest : List UInt8}
    (h : Tracks C w next rest) : w.toServe = rest.length := by
  unfold ReadWorld.toServe
  cases h with
  | waiting _ _ _ hio => simp [hio]
  | posted _ _ _ hio _ hlen => simp only [hio, List.length_append]; simp [hlen]; omega
  | refused _ _ _ hio => simp [hio]
  | ended _ hio => simp [hio]

theorem arrive_tracks {C : Nat} {w : ReadWorld κ ρ} {next : Next κ} {rest chunk : List UInt8}
    {wire : List (List UInt8)} (h : Tracks C w next rest) (hw : w.wire = chunk :: wire) :
    Tracks C { w with arrived := w.arrived ++ chunk, wire := wire } next rest := by
  have hun : ({ w with arrived := w.arrived ++ chunk, wire := wire } : ReadWorld κ ρ).unread
      = w.unread := by
    unfold unread; rw [hw]; simp
  cases h with
  | waiting h1 h2 h3 h4 => rw [← hun]; exact Tracks.waiting h1 h2 h3 h4
  | posted h1 h2 h3 h4 h5 h6 => rw [← hun]; exact Tracks.posted h1 h2 h3 h4 h5 h6
  | refused h1 h2 h3 h4 => rw [← hun]; exact Tracks.refused h1 h2 h3 h4
  | ended h1 h2 => rw [← hun]; exact Tracks.ended h1 h2

/-- The only outstanding operation of a tracked world has index 0. -/
theorem getElem?_singleton {α : Type} {x y : α} {i : Nat} (h : [x][i]? = some y) :
    i = 0 ∧ y = x := by
  cases i with
  | zero => simpa using h.symm
  | succ i => simp at h

/-- **A completed port read posts the delivery**; it never has to read again. -/
theorem complete_posts {C m n : Nat} {k : κ} {held : List UInt8} {w : ReadWorld κ ρ} {i : Nat}
    (hs : w.reader.Waiting C m k held) (hio : w.serviceIo.eraseIdx i = [])
    (hmin : m - held.length ≤ n) (hmax : n ≤ w.reader.tailRemainBytes)
    (hav : n ≤ w.arrived.length) :
    ((w.take i).complete w.reader.writeIndex n).serviceIo
      = [.post (some k) w.reader.readIndex m] := by
  have htk : (w.arrived.take n).length = n := by rw [List.length_take]; omega
  have hrc := AsyncReadBuffer.readCallback_spec hs (w.arrived.take n) (by omega) (by omega)
  rw [htk] at hrc
  show w.serviceIo.eraseIdx i ++ Option.toList _ = _
  rw [hio]
  exact congrArg Option.toList hrc.1

theorem transfer_tracks {C : Nat} {w : ReadWorld κ ρ} {next : Next κ} {rest : List UInt8}
    {i n off size atLeast : Nat} {c : Continuation κ} (h : Tracks C w next rest)
    (hesc : w.escaped = none) (hc : w.serviceIo[i]? = some c) (hp : IsPortRead c off size atLeast)
    (hmin : atLeast ≤ n) (hmax : n ≤ size) (hav : n ≤ w.arrived.length) :
    0 < n ∧ Tracks C ((w.take i).complete off n) next rest := by
  cases h with
  | @waiting m k held _ hgood hs hio =>
      rw [hio] at hc
      obtain ⟨rfl, rfl⟩ := getElem?_singleton hc
      rcases hp with hp | ⟨hp, _⟩
      · injection hp with h1 h2 h3
        subst h1; subst h2; subst h3
        have htk : (w.arrived.take n).length = n := by rw [List.length_take]; omega
        have hshort := hs.short
        refine ⟨by omega, ?_⟩
        -- the completion rule brought all that was missing, so the delivery is posted
        have hrc := AsyncReadBuffer.readCallback_spec hs (w.arrived.take n)
          (by omega) (by omega)
        rw [htk] at hrc
        have hun : ((w.take 0).complete w.reader.writeIndex n).unread
            = (held ++ w.arrived.take n).drop m ++ w.arrived.drop n ++ w.wire.flatten := by
          unfold unread
          exact congrArg (· ++ w.arrived.drop n ++ w.wire.flatten) hrc.2.1.holds
        have hrest : w.unread = (held ++ w.arrived.take n).take m
            ++ ((w.take 0).complete w.reader.writeIndex n).unread := by
          rw [hun]
          unfold unread
          rw [hs.serving.holds]
          calc held ++ w.arrived ++ w.wire.flatten
              = held ++ (w.arrived.take n ++ w.arrived.drop n) ++ w.wire.flatten := by
                rw [List.take_append_drop]
            _ = (held ++ w.arrived.take n) ++ w.arrived.drop n ++ w.wire.flatten := by
                simp only [List.append_assoc]
            _ = ((held ++ w.arrived.take n).take m ++ (held ++ w.arrived.take n).drop m)
                  ++ w.arrived.drop n ++ w.wire.flatten := by
                rw [List.take_append_drop]
            _ = _ := by simp only [List.append_assoc]
        rw [hrest]
        refine Tracks.posted hesc hgood hrc.2.1 ?_ hrc.2.2 ?_
        · exact complete_posts hs (by rw [hio]; rfl) (by omega) (by omega) (by omega)
        · rw [List.length_take, List.length_append]; omega
      · exact absurd hp (by simp)
  | posted _ _ _ hio _ _ =>
      rw [hio] at hc
      obtain ⟨rfl, rfl⟩ := getElem?_singleton hc
      rcases hp with hp | ⟨hp, _⟩ <;> exact absurd hp (by simp)
  | refused _ _ _ hio => rw [hio] at hc; exact absurd hc (by simp)
  | ended he _ => rw [hesc] at he; exact absurd he (by simp)

theorem transfer_posts {C : Nat} {w : ReadWorld κ ρ} {next : Next κ} {rest : List UInt8}
    {i n off size atLeast : Nat} {c : Continuation κ} (h : Tracks C w next rest)
    (hc : w.serviceIo[i]? = some c) (hp : IsPortRead c off size atLeast)
    (hmin : atLeast ≤ n) (hmax : n ≤ size) (hav : n ≤ w.arrived.length) :
    ∃ k off' m, ((w.take i).complete off n).serviceIo = [.post (some k) off' m] := by
  cases h with
  | waiting _ _ hs hio =>
      rw [hio] at hc
      obtain ⟨rfl, rfl⟩ := getElem?_singleton hc
      rcases hp with hp | ⟨hp, _⟩
      · injection hp with h1 h2 h3
        subst h1; subst h2; subst h3
        exact ⟨_, _, _, complete_posts hs (by rw [hio]; rfl) hmin hmax hav⟩
      · exact absurd hp (by simp)
  | posted _ _ _ hio _ _ =>
      rw [hio] at hc
      obtain ⟨rfl, rfl⟩ := getElem?_singleton hc
      rcases hp with hp | ⟨hp, _⟩ <;> exact absurd hp (by simp)
  | refused _ _ _ hio => rw [hio] at hc; exact absurd hc (by simp)
  | ended _ hio => rw [hio] at hc; exact absurd hc (by simp)

/-- **A posted callback is run on exactly the next requested bytes.** -/
theorem run_tracks (react : Reaction κ ρ) {C : Nat} {w : ReadWorld κ ρ} {next : Next κ}
    {rest : List UInt8} {i off len : Nat} {callback : Option κ} (h : Tracks C w next rest)
    (hesc : w.escaped = none) (hc : w.serviceIo[i]? = some (.post callback off len)) :
    ∃ chunk rest' next', rest = chunk ++ rest'
      ∧ (flat react C).need (w.user, next) = some chunk.length
      ∧ (((w.take i).runPosted react callback off len).user, next')
        = (flat react C).feed (w.user, next) chunk
      ∧ ((w.take i).runPosted react callback off len).supply = w.supply
      ∧ Tracks C ((w.take i).runPosted react callback off len) next' rest' := by
  cases h with
  | waiting _ _ _ hio =>
      rw [hio] at hc
      exact absurd (getElem?_singleton hc).2 (by simp)
  | @posted n off' k chunk held _ hgood hs hio hsl hlen =>
      rw [hio] at hc
      obtain ⟨rfl, hpost⟩ := getElem?_singleton hc
      injection hpost with h1 h2 h3
      subst h1; subst h2; subst h3
      have hrun : (w.take 0).runPosted react (some k) off len
          = ({ (w.take 0) with user := (react k w.user (RosStream.ofBuffer chunk)).1 }).perform
              (react k w.user (RosStream.ofBuffer chunk)).2 := by
        rw [← hsl]; rfl
      refine ⟨chunk, w.unread, (react k w.user (RosStream.ofBuffer chunk)).2, rfl, ?_, ?_, ?_, ?_⟩
      · rw [flat_need_read hgood, hlen]
      · rw [hrun, perform_user]; rfl
      · rw [hrun, perform_supply]; rfl
      · rw [hrun]
        exact perform_tracks (w := { (w.take 0) with
            user := (react k w.user (RosStream.ofBuffer chunk)).1 })
          hs.valid hs.capacity (by unfold take; rw [hio]; rfl) hesc _
  | refused _ _ _ hio => rw [hio] at hc; exact absurd hc (by simp)
  | ended he _ => rw [hesc] at he; exact absurd he (by simp)

/--
**The simulation step.** An event of a run without port errors either is invisible
to the flat reader and uses up some of the port's supply, or feeds it its next chunk.
-/
theorem step_tracks {react : Reaction κ ρ} {C : Nat} {w w' : ReadWorld κ ρ} {next : Next κ}
    {rest : List UInt8} {e : PortEvent} (h : Tracks C w next rest)
    (hs : w.quietStep react e = some w') :
    (w'.user = w.user ∧ w'.supply < w.supply ∧ Tracks C w' next rest)
    ∨ ∃ chunk rest' next', rest = chunk ++ rest'
        ∧ (flat react C).need (w.user, next) = some chunk.length
        ∧ (w'.user, next') = (flat react C).feed (w.user, next) chunk
        ∧ w'.supply = w.supply ∧ Tracks C w' next' rest' := by
  obtain ⟨hq, hs⟩ := quietStep_some hs
  obtain ⟨hesc, hcases⟩ := step_cases hs
  rcases hcases with ⟨-, chunk, wire, hw, rfl⟩ |
    ⟨i, n, c, off, size, d, -, hc, hp, hmin, hmax, hav, rfl⟩ | ⟨i, c, off, size, d, rfl, -⟩ |
    ⟨i, callback, off, len, -, hc, rfl⟩
  · refine Or.inl ⟨rfl, ?_, arrive_tracks h hw⟩
    unfold supply
    rw [hw]
    simp only [List.length_cons, List.length_append, List.flatten_cons]
    omega
  · obtain ⟨hpos, ht⟩ := transfer_tracks h hesc hc hp hmin hmax hav
    refine Or.inl ⟨rfl, ?_, ht⟩
    show w.wire.length + (w.arrived.drop n).length + w.wire.flatten.length < w.supply
    unfold supply
    rw [List.length_drop]
    omega
  · exact absurd hq (by simp [PortEvent.isFail])
  · exact Or.inr (run_tracks react h hesc hc)

/-- Nothing is left when the outstanding operation of a tracked world is taken out. -/
theorem Tracks.eraseIdx {C : Nat} {w : ReadWorld κ ρ} {next : Next κ} {rest : List UInt8} {i : Nat}
    {c : Continuation κ} (h : Tracks C w next rest) (hc : w.serviceIo[i]? = some c) :
    w.serviceIo.eraseIdx i = [] := by
  have hone : w.serviceIo = [] ∨ ∃ c', w.serviceIo = [c'] := by
    cases h with
    | waiting _ _ _ hio => exact Or.inr ⟨_, hio⟩
    | posted _ _ _ hio _ _ => exact Or.inr ⟨_, hio⟩
    | refused _ _ _ hio => exact Or.inl hio
    | ended _ hio => exact Or.inl hio
  rcases hone with hio | ⟨c', hio⟩
  · rw [hio] at hc
    exact absurd hc (by simp)
  · rw [hio] at hc ⊢
    obtain ⟨rfl, -⟩ := getElem?_singleton hc
    rfl

/-! ## Whole runs -/

/-- The world has taken the flat reader from `s` along `stream` as far as it got. -/
def Follows (react : Reaction κ ρ) (C : Nat) (s : ρ × Next κ) (stream : List UInt8)
    (w : ReadWorld κ ρ) : Prop :=
  ∃ used rest next, stream = used ++ rest ∧ (flat react C).Eats s used (w.user, next)
    ∧ Tracks C w next rest

theorem start_follows {react : Reaction κ ρ} {C : Nat} (user : ρ) (first : Next κ)
    (wire : List (List UInt8)) :
    Follows react C (user, first) wire.flatten (start C user first wire) :=
  ⟨[], wire.flatten, first, rfl, by rw [start_user]; exact Demand.Eats.refl _,
    start_tracks C user first wire⟩

theorem step_follows {react : Reaction κ ρ} {C : Nat} {s : ρ × Next κ} {stream : List UInt8}
    {w w' : ReadWorld κ ρ} {e : PortEvent} (h : Follows react C s stream w)
    (hs : w.quietStep react e = some w') : Follows react C s stream w' := by
  obtain ⟨used, rest, next, rfl, he, ht⟩ := h
  rcases step_tracks ht hs with ⟨hu, _, ht'⟩ | ⟨chunk, rest', next', rfl, hn, hf, _, ht'⟩
  · exact ⟨used, rest, next, rfl, by rw [hu]; exact he, ht'⟩
  · exact ⟨used ++ chunk, rest', next', by simp, by rw [hf]; exact Demand.Eats.tail he hn, ht'⟩

/-- Every state of a run without port errors follows the flat reader. -/
theorem exec_follows {react : Reaction κ ρ} {C : Nat} {s : ρ × Next κ} {stream : List UInt8}
    {w w' : ReadWorld κ ρ} {es : List PortEvent} (h : Follows react C s stream w)
    (hx : Lts.exec (quietStep react) w es = some w') : Follows react C s stream w' := by
  refine Lts.exec_invariant ?_ h hx
  intro u e u' hI hs
  exact step_follows hI hs

/-- The flat reader can do no more with what is left when no event is enabled. -/
theorem stuck_starved {react : Reaction κ ρ} {C : Nat} {w : ReadWorld κ ρ} {next : Next κ}
    {rest : List UInt8} (h : Tracks C w next rest) (hst : Lts.Stuck (quietStep react) w) :
    rest = w.unread ∧ (flat react C).Starved (w.user, next) rest := by
  have hq : ∀ e : PortEvent, e.isFail = false → w.step react e = none := by
    intro e he
    have := hst e
    unfold quietStep at this
    rwa [if_neg (by simp [he])] at this
  cases h with
  | @waiting n k held hesc hgood hs hio =>
      refine ⟨rfl, ?_⟩
      intro m hm
      rw [flat_need_read hgood] at hm
      obtain rfl := Option.some.inj hm
      -- a chunk that has not arrived, or enough bytes on the port, would enable an event
      have hwire : w.wire = [] := by
        cases hw : w.wire with
        | nil => rfl
        | cons chunk wire =>
            have := hq .arrive rfl
            unfold step at this
            rw [hw] at this
            simp [hesc] at this
      have hshort : w.arrived.length < n - held.length := by
        rcases Nat.lt_or_ge w.arrived.length (n - held.length) with hlt | hge
        · exact hlt
        · exfalso
          have := hq (.transfer 0 (n - held.length)) rfl
          unfold step at this
          rw [hio] at this
          have hroom := hs.room
          simp [hesc, hge, hroom] at this
      unfold unread
      rw [hs.serving.holds, hwire]
      simp only [List.flatten_nil, List.append_nil, List.length_append]
      omega
  | @posted n off k chunk held hesc hgood hs hio hsl hlen =>
      exfalso
      have := hq (.run 0) rfl
      unfold step at this
      rw [hio] at this
      simp [hesc] at this
  | refused _ hbad _ _ =>
      refine ⟨rfl, ?_⟩
      intro m hm
      rw [flat_need_refused hbad] at hm
      exact absurd hm (by simp)
  | ended _ _ =>
      refine ⟨rfl, ?_⟩
      intro m hm
      exact absurd hm (by simp)

/-- Where a run has come to rest. -/
structure Rests (react : Reaction κ ρ) (C : Nat) (t : ρ × Next κ) (rest : List UInt8)
    (w : ReadWorld κ ρ) : Prop where
  /-- The user's state. -/
  user : w.user = t.1
  /-- The request being served, or the exception that ended the session. -/
  phase : w.phase = some t.2
  /-- The bytes that were never delivered. -/
  unread : w.unread = rest
  /-- Nothing is outstanding exactly when the flat reader has stopped for good. -/
  silent : w.serviceIo = [] ↔ (flat react C).need t = none

theorem tracks_rests {react : Reaction κ ρ} {C : Nat} {w : ReadWorld κ ρ} {next : Next κ}
    {rest : List UInt8} (h : Tracks C w next rest) (hrest : rest = w.unread) :
    Rests react C (w.user, next) rest w := by
  cases h with
  | waiting hesc hgood hs hio =>
      refine ⟨rfl, ?_, hrest.symm, ?_⟩
      · unfold ReadWorld.phase; rw [hesc, hs.serving.callback, hs.serving.requested]; rfl
      · rw [hio, flat_need_read hgood]; simp
  | posted hesc hgood hs hio _ _ =>
      refine ⟨rfl, ?_, hrest.symm, ?_⟩
      · unfold ReadWorld.phase; rw [hesc, hs.callback, hs.requested]; rfl
      · rw [hio, flat_need_read hgood]; simp
  | refused hesc hbad hs hio =>
      refine ⟨rfl, ?_, hrest.symm, ?_⟩
      · unfold ReadWorld.phase; rw [hesc, hs.callback, hs.requested]; rfl
      · rw [hio, flat_need_refused hbad]; simp
  | ended hesc hio =>
      refine ⟨rfl, ?_, hrest.symm, ?_⟩
      · unfold ReadWorld.phase; rw [hesc]
      · rw [hio]; simp

theorem Follows.rest_unique {react : Reaction κ ρ} {C : Nat} {s t : ρ × Next κ}
    {stream rest : List UInt8} {w : ReadWorld κ ρ} (h : Follows react C s stream w)
    (hst : Lts.Stuck (quietStep react) w) (hh : (flat react C).Halts s stream t rest) :
    Rests react C t rest w := by
  obtain ⟨used, rest', next, rfl, he, ht⟩ := h
  obtain ⟨hrest, hstarved⟩ := stuck_starved ht hst
  obtain ⟨hteq, hreq⟩ := Demand.halts_unique hh ⟨used, rfl, he, hstarved⟩
  subst hteq; subst hreq
  exact tracks_rests ht hrest

/--
**Every run of the buffered reader without port errors stops, and stops where the
flat reader halts**, whatever the chunks, the completion sizes and the order of
events.
-/
theorem settles {react : Reaction κ ρ} {C : Nat} {user : ρ} {first : Next κ}
    {wire : List (List UInt8)} {t : ρ × Next κ} {rest : List UInt8}
    (hh : (flat react C).Halts (user, first) wire.flatten t rest) :
    Lts.Inevitably (quietStep react) (Rests react C t rest) (start C user first wire) := by
  refine Lts.Inevitably.of_measure (I := Follows react C (user, first) wire.flatten)
    (fun w => w.supply + w.toServe) ?_ ?_ ?_ _ (start_follows user first wire)
  · intro w e w' hI hs
    exact step_follows hI hs
  · intro w e w' hI hs
    -- the port's supply pays for arrivals and transfers, what is left to serve for deliveries
    obtain ⟨used, rest, next, -, -, ht⟩ := hI
    rcases step_tracks ht hs with ⟨_, hlt, ht'⟩ | ⟨chunk, rest', next', rfl, hn, _, heq, ht'⟩
    · show w'.supply + w'.toServe < w.supply + w.toServe
      rw [ht.toServe, ht'.toServe]
      omega
    · show w'.supply + w'.toServe < w.supply + w.toServe
      have hpos := (flat react C).need_pos _ _ hn
      rw [ht.toServe, ht'.toServe, heq, List.length_append]
      omega
  · intro w hI hst
    exact hI.rest_unique hst hh

end ReadWorld

end RosserialServer
