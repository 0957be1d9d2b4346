import RosserialServer.Proof.Extraction

/-!
# Finding a frame behind noise

The hunt for a head consumes noise in groups: one byte that is no sync flag, a flag with
a version byte, or a flag, the version and five bytes of a header that fails its check.
`Noise g` says that `g` splits into such groups. A frame behind `g` is found when it
starts where a group ends, and `noise_or_stuck` lists the ways it can fail to: the last
flag of the noise takes the frame's first byte, two flags in a row end the session, or
the five bytes read behind a sync flag reach into the frame.
-/

namespace RosserialServer

open Bytes RosStream

/-- The stream holds a header that passes its check at `i`. -/
def GoodHeader (stream : List UInt8) (i : Nat) : Prop :=
  ∃ lo hi check rest, stream.drop i = 0xFF :: 0xFE :: lo :: hi :: check :: rest
    ∧ lengthAccepted (word lo hi) check

/-- Bytes that the hunt consumes in whole groups. -/
inductive Noise : List UInt8 → Prop where
  | nil : Noise []
  | other {b : UInt8} {rest : List UInt8} : b ≠ 0xFF → Noise rest → Noise (b :: rest)
  | version {b : UInt8} {rest : List UInt8} :
      b ≠ 0xFE → b ≠ 0xFF → Noise rest → Noise (0xFF :: b :: rest)
  | header {lo hi check t0 t1 : UInt8} {rest : List UInt8} :
      Noise rest → Noise (0xFF :: 0xFE :: lo :: hi :: check :: t0 :: t1 :: rest)

/-- The ways a noise can end inside a group. -/
inductive Stuck : List UInt8 → Prop where
  | flag : Stuck [0xFF]
  | flags (rest : List UInt8) : Stuck (0xFF :: 0xFF :: rest)
  | header {xs : List UInt8} : xs.length < 5 → Stuck (0xFF :: 0xFE :: xs)

/-- **Every noise ends between groups or inside one.** -/
theorem noise_or_stuck (g : List UInt8) :
    Noise g ∨ ∃ pre tail, g = pre ++ tail ∧ Noise pre ∧ Stuck tail := by
  induction hk : g.length using Nat.strongRecOn generalizing g with
  | ind k ih =>
      subst hk
      -- a group in front of a shorter noise
      have hgroup : ∀ group rest : List UInt8, g = group ++ rest → group ≠ [] →
          (∀ l, Noise l → Noise (group ++ l)) →
          Noise g ∨ ∃ pre tail, g = pre ++ tail ∧ Noise pre ∧ Stuck tail := by
        intro group rest hg hne hcons
        have hpos := List.length_pos_iff.mpr hne
        have hlt : rest.length < g.length := by rw [hg, List.length_append]; omega
        rcases ih rest.length hlt rest rfl with hn | ⟨pre, tail, hr, hn, hs⟩
        · exact Or.inl (hg ▸ hcons rest hn)
        · exact Or.inr ⟨group ++ pre, tail, by rw [hg, hr, List.append_assoc], hcons pre hn, hs⟩
      match g with
      | [] => exact Or.inl Noise.nil
      | b :: rest =>
          by_cases hb : b = 0xFF
          · subst hb
            match rest with
            | [] => exact Or.inr ⟨[], _, rfl, Noise.nil, Stuck.flag⟩
            | c :: rest =>
                by_cases hff : c = 0xFF
                · subst hff
                  exact Or.inr ⟨[], _, rfl, Noise.nil, Stuck.flags rest⟩
                · by_cases hfe : c = 0xFE
                  · subst hfe
                    match rest with
                    | lo :: hi :: check :: t0 :: t1 :: rest =>
                        exact hgroup [0xFF, 0xFE, lo, hi, check, t0, t1] rest rfl (by simp)
                          fun _ hl => Noise.header hl
                    | [] => exact Or.inr ⟨[], _, rfl, Noise.nil, Stuck.header (by simp)⟩
                    | [_] => exact Or.inr ⟨[], _, rfl, Noise.nil, Stuck.header (by simp)⟩
                    | [_, _] => exact Or.inr ⟨[], _, rfl, Noise.nil, Stuck.header (by simp)⟩
                    | [_, _, _] => exact Or.inr ⟨[], _, rfl, Noise.nil, Stuck.header (by simp)⟩
                    | [_, _, _, _] => exact Or.inr ⟨[], _, rfl, Noise.nil, Stuck.header (by simp)⟩
                  · exact hgroup [0xFF, c] rest rfl (by simp) fun _ hl => Noise.version hfe hff hl
          · exact hgroup [b] rest rfl (by simp) fun _ hl => Noise.other hb hl

/-- No good header in front of a shorter stream either. -/
theorem no_header_drop (group : List UInt8) {rest f : List UInt8}
    (h : ∀ i < (group ++ rest).length, ¬GoodHeader (group ++ rest ++ f) i) :
    ∀ i < rest.length, ¬GoodHeader (rest ++ f) i := by
  intro i hi hgood
  refine h (group.length + i) (by rw [List.length_append]; omega) ?_
  unfold GoodHeader at hgood ⊢
  rwa [List.append_assoc, ← List.drop_drop, List.drop_left]

section Session

variable {τ : Type} {dispatch : Dispatch τ}

/-- A header that is not good is passed over with the two bytes behind it. -/
theorem eats_bad_header (dispatch : Dispatch τ) (session : Session τ)
    {lo hi check : UInt8} (t0 t1 : UInt8) (h : ¬lengthAccepted (word lo hi) check) :
    (sessionReader dispatch).Eats (session, readAsyncHead) [0xFF, 0xFE, lo, hi, check, t0, t1]
      (session, readAsyncHead) := by
  have := eats_header dispatch session lo hi check t0 t1
  rwa [if_neg h] at this

/-- **Noise without a good header is consumed to its end.** -/
theorem noise_eats (dispatch : Dispatch τ) (session : Session τ) {g f : List UInt8}
    (hn : Noise g) (h : ∀ i < g.length, ¬GoodHeader (g ++ f) i) :
    (sessionReader dispatch).Eats (session, readAsyncHead) g (session, readAsyncHead) := by
  induction hn with
  | nil => exact Demand.Eats.refl _
  | @other b rest hb _ ih =>
      exact (eats_other dispatch session hb).trans (ih (no_header_drop [b] h))
  | @version b rest hfe hff _ ih =>
      have hsecond := eats_second dispatch session b
      rw [if_neg hfe, if_neg hff] at hsecond
      exact hsecond.trans (ih (no_header_drop [0xFF, b] h))
  | @header lo hi check t0 t1 rest _ ih =>
      have hbad : ¬lengthAccepted (word lo hi) check := by
        intro hacc
        exact h 0 (by simp) ⟨lo, hi, check, _, rfl, hacc⟩
      exact (eats_bad_header dispatch session t0 t1 hbad).trans
        (ih (no_header_drop [0xFF, 0xFE, lo, hi, check, t0, t1] h))

/-- A dispatched body has passed through the session with its eight other bytes. -/
theorem Parsed.length_le {stream : List UInt8} {dispatched : List (UInt16 × List UInt8)}
    (h : Parsed stream dispatched) : ∀ d ∈ dispatched, d.2.length + 8 ≤ stream.length := by
  induction h with
  | nil => simp
  | skip bytes _ ih =>
      intro d hd
      have := ih d hd
      rw [List.length_append]
      omega
  | frame p _ _ ih =>
      intro d hd
      rw [List.length_append, p.length_bytes]
      rcases List.mem_append.mp hd with hd | hd
      · have := ih d hd
        omega
      · obtain rfl := List.mem_singleton.mp hd
        exact Nat.le_add_left _ _

/-- What is dispatched from the inside of a frame is shorter than the frame. -/
theorem halts_short {t : Session τ × Next Handler} {tables : τ} {l rest : List UInt8}
    (hh : (sessionReader dispatch).Halts ({ tables := tables, dispatched := [] }, readAsyncHead)
      l t rest) : ∀ d ∈ t.1.dispatched, d.2.length + 8 ≤ l.length := by
  obtain ⟨used, rfl, he, -⟩ := hh
  have hloc : Located ([] ++ used) t.1.dispatched t.2 :=
    eats_located (Located.head Parsed.nil) he
  intro d hd
  have := hloc.parsed.length_le d hd
  rw [List.length_append]
  rw [List.nil_append] at this
  omega

/-- The frame was dispatched and nothing was thrown. -/
def Dispatched (f : Packet) (w : ReadWorld Handler (Session τ)) : Prop :=
  w.escaped = none ∧ (f.topicId, f.payload) ∈ w.user.dispatched

/-- A run that halts with an exception does not dispatch the frame quietly. -/
theorem not_dispatched_of_escape {tables : τ} {wire : List (List UInt8)} {session : Session τ}
    {rest : List UInt8} {x : Failure} {f : Packet}
    (hh : (sessionReader dispatch).Halts ({ tables := tables, dispatched := [] }, readAsyncHead)
      wire.flatten (session, .escape x) rest) :
    ¬Lts.Inevitably (ReadWorld.quietStep (handle dispatch)) (Dispatched f)
      (startRead tables wire) := by
  intro h
  obtain ⟨w, hrest, hesc, -⟩ := (ReadWorld.settles hh).meet h
  have := hrest.phase
  unfold ReadWorld.phase at this
  rw [hesc] at this
  cases hk : w.reader.readSussessCallback <;> rw [hk] at this <;> exact absurd this (by simp)

/-- Neither does a run that halts without having dispatched it. -/
theorem not_dispatched_of_halts {tables : τ} {wire : List (List UInt8)}
    {t : Session τ × Next Handler} {rest : List UInt8} {f : Packet}
    (hh : (sessionReader dispatch).Halts ({ tables := tables, dispatched := [] }, readAsyncHead)
      wire.flatten t rest) (hmiss : (f.topicId, f.payload) ∉ t.1.dispatched) :
    ¬Lts.Inevitably (ReadWorld.quietStep (handle dispatch)) (Dispatched f)
      (startRead tables wire) := by
  intro h
  obtain ⟨w, hrest, -, hmem⟩ := (ReadWorld.settles hh).meet h
  rw [hrest.user] at hmem
  exact hmiss hmem

/-- A noise that ends inside a group loses the frame behind it. -/
theorem stuck_loses (dispatch : Dispatch τ) (tables : τ) {pre tail : List UInt8} {f : Packet}
    (hn : Noise pre) (hs : Stuck tail)
    (hbad : ∀ i < (pre ++ tail).length, ¬GoodHeader (pre ++ tail ++ f.bytes) i)
    {wire : List (List UInt8)} (hw : wire.flatten = pre ++ tail ++ f.bytes) :
    ¬Lts.Inevitably (ReadWorld.quietStep (handle dispatch)) (Dispatched f)
      (startRead tables wire) := by
  obtain ⟨lo, hi, t0, t1, -, -, hbytes⟩ := f.bytes_eq
  have hpre := noise_eats dispatch ({ tables := tables, dispatched := [] } : Session τ)
    (f := tail ++ f.bytes) hn (by
      intro i hi
      rw [← List.append_assoc]
      exact hbad i (by rw [List.length_append]; omega))
  have hstop : ∀ (s : Session τ) (x : Failure) (l : List UInt8),
      (sessionReader dispatch).Halts (s, .escape x) l (s, .escape x) l :=
    fun s x l => Demand.Halts.refl fun n hn => absurd hn (by simp)
  rw [List.append_assoc] at hw
  cases hs with
  | flag =>
      -- the frame's own first byte is taken for the version
      have hflags := eats_second dispatch
        ({ tables := tables, dispatched := [] } : Session τ) 0xFF
      rw [if_neg (by decide), if_pos rfl] at hflags
      have hh := (hpre.trans hflags).halts (hstop _ _ (f.bytes.drop 1))
      have hstream : wire.flatten = pre ++ [0xFF, 0xFF] ++ f.bytes.drop 1 := by
        rw [hw, hbytes, List.append_assoc]
        rfl
      rw [← hstream] at hh
      exact not_dispatched_of_escape hh
  | flags rest =>
      -- the second flag of the noise is taken for the version
      have hflags := eats_second dispatch
        ({ tables := tables, dispatched := [] } : Session τ) 0xFF
      rw [if_neg (by decide), if_pos rfl] at hflags
      have hh := (hpre.trans hflags).halts (hstop _ _ (rest ++ f.bytes))
      have hstream : wire.flatten = pre ++ [0xFF, 0xFF] ++ (rest ++ f.bytes) := by
        rw [hw, List.append_assoc]
        rfl
      rw [← hstream] at hh
      exact not_dispatched_of_escape hh
  | @header xs hx =>
      -- the five bytes behind the sync flag reach into the frame
      have hlen := f.length_bytes
      have htake : (xs ++ f.bytes.take (5 - xs.length)).length = 5 := by
        rw [List.length_append, List.length_take]
        omega
      obtain ⟨lo, hi, check, t0, t1, hfive⟩ := chunk_five htake
      have hsplit : 0xFF :: 0xFE :: xs ++ f.bytes
          = [0xFF, 0xFE, lo, hi, check, t0, t1] ++ f.bytes.drop (5 - xs.length) := by
        show 0xFF :: 0xFE :: (xs ++ f.bytes) = 0xFF :: 0xFE :: ([lo, hi, check, t0, t1] ++ _)
        rw [← hfive, List.append_assoc, List.take_append_drop]
      have hfails : ¬lengthAccepted (word lo hi) check := by
        intro hacc
        refine hbad pre.length (by rw [List.length_append]; simp)
          ⟨lo, hi, check, t0 :: t1 :: f.bytes.drop (5 - xs.length), ?_, hacc⟩
        rw [List.append_assoc, List.drop_left, hsplit]
        rfl
      have hhead := hpre.trans (eats_bad_header dispatch _ t0 t1 hfails)
      obtain ⟨t, rest, hh⟩ := Demand.halts_exists (M := sessionReader dispatch)
        ({ tables := tables, dispatched := [] }, readAsyncHead) (f.bytes.drop (5 - xs.length))
      have hwhole := hhead.halts hh
      rw [List.append_assoc, ← hsplit, ← hw] at hwhole
      refine not_dispatched_of_halts hwhole ?_
      intro hmem
      have hshort := halts_short hh _ hmem
      rw [List.length_drop] at hshort
      simp only at hshort
      omega

/-- What becomes of an accepted frame behind a noise that ends between groups. -/
theorem noise_halts (dispatch : Dispatch τ) (tables : τ) {g : List UInt8} {f : Packet}
    (hlen : f.payload.length ≤ 511) (hn : Noise g)
    (hbad : ∀ i < g.length, ¬GoodHeader (g ++ f.bytes) i) :
    (sessionReader dispatch).Eats ({ tables := tables, dispatched := [] }, readAsyncHead)
      (g ++ f.bytes)
      (routeBody dispatch { tables := tables, dispatched := [] } f.topicId f.payload f.checksum) :=
  (noise_eats dispatch _ hn hbad).trans
    (packet_eats dispatch _ f (by show _ < 512; omega))

/--
**Resynchronisation, and its exact condition.** A frame behind bytes without a good
header is dispatched without an exception if and only if those bytes end between two
groups of the hunt, and the frame's own callback returns.
-/
theorem resync_iff (dispatch : Dispatch τ) (tables : τ) (g : List UInt8) (f : Packet)
    (hlen : f.payload.length ≤ 511) (hacc : f.accepted)
    (hbad : ∀ i < g.length, ¬GoodHeader (g ++ f.bytes) i) (wire : List (List UInt8))
    (hw : wire.flatten = g ++ f.bytes) :
    Lts.Inevitably (ReadWorld.quietStep (handle dispatch))
        (fun w => w.escaped = none ∧ (f.topicId, f.payload) ∈ w.user.dispatched)
        (startRead tables wire)
      ↔ Noise g ∧ ∃ tables', dispatch f.topicId (ofBuffer f.payload) tables = .ok tables' := by
  constructor
  · intro h
    have hnoise : Noise g := by
      rcases noise_or_stuck g with hn | ⟨pre, tail, rfl, hn, hs⟩
      · exact hn
      · exact absurd h (stuck_loses dispatch tables hn hs hbad hw)
    -- the frame itself is consumed, so only its callback can fail
    refine ⟨hnoise, ?_⟩
    have heats := noise_halts dispatch tables hlen hnoise hbad
    cases hd : dispatch f.topicId (ofBuffer f.payload) tables with
    | ok tables' => exact ⟨tables', rfl⟩
    | error x =>
        rw [routeBody_error hacc hd, ← hw] at heats
        have hh := heats.halts (Demand.Halts.refl (l := []) fun n hn => absurd hn (by simp))
        rw [List.append_nil] at hh
        exact absurd h (not_dispatched_of_escape hh)
  · rintro ⟨hnoise, tables', hd⟩
    have heats := noise_halts dispatch tables hlen hnoise hbad
    rw [routeBody_ok hacc hd, ← hw] at heats
    have hh := heats.halts (Demand.Halts.refl (l := [])
      fun n hn => (sessionReader dispatch).need_pos _ n hn)
    rw [List.append_nil] at hh
    refine (ReadWorld.settles hh).mono ?_
    intro w hrest
    refine ⟨?_, ?_⟩
    · have := hrest.phase
      unfold ReadWorld.phase at this
      cases hesc : w.escaped with
      | none => rfl
      | some x =>
          rw [hesc] at this
          exact absurd this (by simp [readAsyncHead])
    · rw [hrest.user]
      simp

end Session

/-- A frame behind a stray byte and a flag with a wrong version. -/
theorem resync_noise :
    Lts.Inevitably (ReadWorld.quietStep (handle ignoring))
      (fun w => w.escaped = none ∧ ((7 : UInt16), [(3 : UInt8)]) ∈ w.user.dispatched)
      (startRead () [[0x41, 0xFF], [1, 0xFF, 0xFE, 1, 0, 0xFE, 7], [0, 3, 0xF5]]) := by
  have hbad : ∀ i < [0x41, 0xFF, 1].length,
      ¬GoodHeader ([0x41, 0xFF, 1] ++ (⟨7, [3], 0xF5, by decide⟩ : Packet).bytes) i := by
    intro i hi
    rintro ⟨lo, hi', check, rest, heq, -⟩
    match i, hi with
    | 0, _ => exact absurd (List.cons.inj heq).1 (by decide)
    | 1, _ => exact absurd (List.cons.inj (List.cons.inj heq).2).1 (by decide)
    | 2, _ => exact absurd (List.cons.inj heq).1 (by decide)
  exact (resync_iff ignoring () [0x41, 0xFF, 1] ⟨7, [3], 0xF5, by decide⟩ (by decide) (by decide)
    hbad _ (by decide)).mpr
    ⟨Noise.other (by decide) (Noise.version (by decide) (by decide) Noise.nil), (), rfl⟩

set_option maxRecDepth 4000 in
/-- A stray sync flag right in front of a good frame ends the session. -/
theorem resync_flag :
    (∀ i < 1, ¬GoodHeader ([0xFF] ++ (⟨7, [3], 0xF5, by decide⟩ : Packet).bytes) i)
      ∧ (⟨7, [3], 0xF5, by decide⟩ : Packet).accepted
      ∧ ∃ w, Lts.exec (ReadWorld.quietStep (handle ignoring))
          (startRead () [[0xFF] ++ (⟨7, [3], 0xF5, by decide⟩ : Packet).bytes])
          [.arrive, .transfer 0 10, .run 0, .run 0] = some w
        ∧ w.escaped = some (.thrown versionNotApplicable) ∧ w.user.dispatched = [] := by
  refine ⟨?_, by decide, ⟨_, rfl, rfl, rfl⟩⟩
  intro i hi
  rintro ⟨lo, hi', check, rest, heq, -⟩
  obtain rfl : i = 0 := by omega
  exact absurd (List.cons.inj (List.cons.inj heq).2).1 (by decide)

end RosserialServer
