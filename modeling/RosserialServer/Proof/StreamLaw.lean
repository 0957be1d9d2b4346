import RosserialServer.Lib.Lts
import RosserialServer.Proof.StreamPointers

/-!
# What reading from streams comes to

The reads of each stream follow each other from its head to its cursor, and a stream that
was handed out lies over the bytes of the read that handed it out (`Law`). A read keeps
that, and throws cleanly, exactly when its request does not make an address wrap
(`law_step_iff`), so a run of reads obeys the law exactly when all its requests are within
reach (`stream_law_iff`).
-/

namespace RosserialServer

open Lts StreamWorld

variable {mem : Buffer}

/-- The reads start at address `a`, follow each other and end at `b`, and give what is there. -/
def Consecutive (mem : Buffer) : Nat → List ReadRecord → Nat → Prop
  | a, [], b => a = b
  | a, r :: rs, b =>
      r.addr = a ∧ (∀ bytes, r.result = .value bytes → bytes = mem.covered a r.size)
        ∧ Consecutive mem (a + r.size) rs b

theorem Consecutive.concat {a b : Nat} {rs : List ReadRecord} {r : ReadRecord}
    (h : Consecutive mem a rs b) (hr : Consecutive mem b [r] (b + r.size)) :
    Consecutive mem a (rs ++ [r]) (b + r.size) := by
  induction rs generalizing a with
  | nil =>
      obtain rfl : a = b := h
      exact hr
  | cons q rs ih => exact ⟨h.1, h.2.1, ih h.2.2⟩

theorem Consecutive.le {a b : Nat} {rs : List ReadRecord} (h : Consecutive mem a rs b) : a ≤ b := by
  induction rs generalizing a with
  | nil => exact Nat.le_of_eq h
  | cons r rs ih => exact Nat.le_trans (Nat.le_add_right _ _) (ih h.2.2)

/-- **Put together, the reads are the bytes from the first address to the last.** -/
theorem Consecutive.flatMap {a b : Nat} {rs : List ReadRecord} (ha : mem.base ≤ a)
    (h : Consecutive mem a rs b) :
    (rs.flatMap fun r => mem.covered r.addr r.size) = mem.covered a (b - a) := by
  induction rs generalizing a with
  | nil =>
      obtain rfl : a = b := h
      rw [Nat.sub_self]
      exact (MemBlock.slice_zero _ _).symm
  | cons r rs ih =>
      obtain ⟨hr, -, hrest⟩ := h
      have hle := hrest.le
      rw [List.flatMap_cons, ih (by omega) hrest, hr]
      have hsum : b - a = r.size + (b - (a + r.size)) := by omega
      have hoff : a + r.size - mem.base = a - mem.base + r.size := by omega
      unfold Buffer.covered
      rw [hsum, MemBlock.slice_add, hoff]

/-- What holds of a stream with a buffer. -/
structure Reads (mem : Buffer) (w : StreamWorld) (k : Nat) (s : RawStream) : Prop where
  /-- It never leaves the bytes it lies over. -/
  within : Within mem s
  /-- What was read from it is its bytes up to the cursor, one read after the other. -/
  consecutive : Consecutive mem s.head.toNat (w.readsOf k) s.cur.toNat
  prefix_ : (w.readsOf k).flatMap (fun r => mem.covered r.addr r.size)
    = (mem.covered s.head.toNat (s.end_.toNat - s.head.toNat)).take (s.cur.toNat - s.head.toNat)
  /-- Consumed and remaining make up the whole. -/
  balance : (s.cur.toNat - s.head.toNat) + s.getLength.toNat = s.length.toNat

/-- The law of the streams. -/
structure Law (mem : Buffer) (w : StreamWorld) : Prop where
  sources : ∀ r ∈ w.reads, r.source < w.streams.length
  /-- The first stream is the whole buffer. -/
  whole : ∃ s, w.streams[0]? = some s ∧ s.head.toNat = mem.base
    ∧ s.length.toNat = mem.bytes.length
  /-- Every other one has no buffer and was never read from, or is lawful. -/
  each : ∀ k s, w.streams[k]? = some s →
    (∃ n, s = .ofLength n ∧ w.readsOf k = []) ∨ Reads mem w k s
  /-- What a read handed out lies over exactly the bytes of that read. -/
  handed : ∀ r ∈ w.reads, ∀ k, r.result = .stream k →
    ∃ s, w.streams[k]? = some s ∧ s.head.toNat = r.addr ∧ s.end_.toNat = r.addr + r.size

theorem Reads.of_consecutive {w : StreamWorld} {k : Nat} {s : RawStream} (h : Within mem s)
    (hreads : Consecutive mem s.head.toNat (w.readsOf k) s.cur.toNat) : Reads mem w k s := by
  have hcur := h.cur
  have hend := h.end_
  have hlen := h.length
  refine ⟨h, hreads, ?_, ?_⟩
  · rw [hreads.flatMap h.head]
    exact (MemBlock.take_slice _ _ (by omega)).symm
  · rw [h.getLength]
    omega

/-- Only the reads from the stream itself matter to it. -/
theorem Reads.congr {w w' : StreamWorld} {k : Nat} {s : RawStream} (h : Reads mem w k s)
    (hsame : w'.readsOf k = w.readsOf k) : Reads mem w' k s := by
  refine .of_consecutive h.within ?_
  rw [hsame]
  exact h.consecutive

theorem readsOf_fresh {w : StreamWorld} (h : Law mem w) {k : Nat} (hk : w.streams.length ≤ k) :
    w.readsOf k = [] := by
  unfold readsOf
  rw [List.filter_eq_nil_iff]
  intro r hr
  have := h.sources r hr
  simp only [beq_iff_eq]
  omega

theorem law_init (mem : Buffer) : Law mem (init mem) := by
  obtain ⟨hhead, hcur, -, hlen⟩ := ofBuffer_addresses mem
  refine ⟨?_, ⟨_, rfl, hhead, hlen⟩, ?_, ?_⟩
  · intro r hr
    exact absurd hr (by simp [init])
  · intro k s hk
    rcases k with _ | k
    · obtain rfl : RawStream.ofBuffer mem = s := by simpa [init] using hk
      refine Or.inr (.of_consecutive (within_ofBuffer mem) ?_)
      show (RawStream.ofBuffer mem).head.toNat = (RawStream.ofBuffer mem).cur.toNat
      rw [hhead, hcur]
    · exact absurd hk (by simp [init])
  · intro r hr
    exact absurd hr (by simp [init])

/-- A stream nothing has been read from may join the others. -/
theorem Law.extend {w : StreamWorld} (h : Law mem w) {t : RawStream}
    (ht : (∃ n, t = .ofLength n) ∨ Within mem t ∧ t.cur = t.head) :
    Law mem { w with streams := w.streams ++ [t] } := by
  obtain ⟨s₀, hs₀, hbase, hlen⟩ := h.whole
  have hold : ∀ {k : Nat} {s : RawStream}, w.streams[k]? = some s →
      (w.streams ++ [t])[k]? = some s := by
    intro k s hk
    rw [List.getElem?_append_left (List.getElem?_eq_some_iff.mp hk).1]
    exact hk
  refine ⟨?_, ⟨s₀, hold hs₀, hbase, hlen⟩, ?_, ?_⟩
  · intro r hr
    have := h.sources r hr
    rw [List.length_append]
    omega
  · intro k s hk
    have hk' : (w.streams ++ [t])[k]? = some s := hk
    by_cases hlt : k < w.streams.length
    · rw [List.getElem?_append_left hlt] at hk'
      rcases h.each k s hk' with hunbound | hreads
      · exact Or.inl hunbound
      · exact Or.inr (hreads.congr rfl)
    · -- the new one, and no read has its number yet
      have hnone := readsOf_fresh h (Nat.le_of_not_lt hlt)
      rw [List.getElem?_append_right (Nat.le_of_not_lt hlt)] at hk'
      obtain rfl : t = s := by
        rcases hsub : k - w.streams.length with _ | j
        · rw [hsub] at hk'
          simpa using hk'
        · rw [hsub] at hk'
          exact absurd hk' (by simp)
      rcases ht with ⟨n, hn⟩ | ⟨hwithin, hstart⟩
      · exact Or.inl ⟨n, hn, hnone⟩
      · refine Or.inr (.of_consecutive hwithin ?_)
        show Consecutive mem _ (w.readsOf k) _
        rw [hnone, hstart]
        rfl
  · intro r hr k hk
    obtain ⟨s, hs, haddr⟩ := h.handed r hr k hk
    exact ⟨s, hold hs, haddr⟩

/-- **A read of the next bytes keeps the law.** -/
theorem Law.read {w : StreamWorld} (h : Law mem w) {i : Nat} {s : RawStream}
    (hi : w.streams[i]? = some s) (hs : Reads mem w i s) {n : UInt64}
    (hn : s.cur.toNat + n.toNat ≤ s.end_.toNat) {result : ReadResult}
    (hvalue : ∀ bytes, result = .value bytes → bytes = mem.covered s.cur.toNat n.toNat)
    (hstream : ∀ k, result = .stream k → ∃ t, w.streams[k]? = some t
      ∧ t.head.toNat = s.cur.toNat ∧ t.end_.toNat = s.cur.toNat + n.toNat) :
    Law mem { streams := w.streams.set i (s.advance n)
              reads := w.reads ++ [⟨i, s.cur.toNat, n.toNat, result⟩] } := by
  obtain ⟨hcur, hwithin⟩ := hs.within.advance hn
  have hlt := (List.getElem?_eq_some_iff.mp hi).1
  have hset : ∀ {k : Nat} {t : RawStream}, w.streams[k]? = some t →
      ∃ t', (w.streams.set i (s.advance n))[k]? = some t' ∧ t'.head = t.head ∧ t'.end_ = t.end_
        ∧ t'.length = t.length := by
    intro k t hk
    by_cases hki : i = k
    · subst hki
      rw [hi] at hk
      obtain rfl := Option.some.inj hk
      exact ⟨_, List.getElem?_set_self hlt, rfl, rfl, rfl⟩
    · exact ⟨t, by rw [List.getElem?_set_ne hki]; exact hk, rfl, rfl, rfl⟩
  refine ⟨?_, ?_, ?_, ?_⟩
  · intro r hr
    rw [List.length_set]
    rcases List.mem_append.mp hr with hr | hr
    · exact h.sources r hr
    · obtain rfl := List.mem_singleton.mp hr
      exact hlt
  · obtain ⟨s₀, hs₀, hbase, hlen⟩ := h.whole
    obtain ⟨t, ht, hhead, -, hlength⟩ := hset hs₀
    exact ⟨t, ht, by rw [hhead]; exact hbase, by rw [hlength]; exact hlen⟩
  · intro k t hk
    have hk' : (w.streams.set i (s.advance n))[k]? = some t := hk
    by_cases hki : i = k
    · -- the stream that was read from: one more read, up to the new cursor
      subst hki
      rw [List.getElem?_set_self hlt] at hk'
      obtain rfl := Option.some.inj hk'
      refine Or.inr (.of_consecutive hwithin ?_)
      have hreads : StreamWorld.readsOf ⟨w.streams.set i (s.advance n),
          w.reads ++ [⟨i, s.cur.toNat, n.toNat, result⟩]⟩ i
          = w.readsOf i ++ [⟨i, s.cur.toNat, n.toNat, result⟩] := by
        unfold readsOf
        rw [List.filter_append]
        simp
      rw [hreads, hcur]
      exact hs.consecutive.concat ⟨rfl, hvalue, rfl⟩
    · rw [List.getElem?_set_ne hki] at hk'
      have hreads : StreamWorld.readsOf ⟨w.streams.set i (s.advance n),
          w.reads ++ [⟨i, s.cur.toNat, n.toNat, result⟩]⟩ k = w.readsOf k := by
        unfold readsOf
        rw [List.filter_append]
        simp [hki]
      rcases h.each k t hk' with ⟨m, hm, hnone⟩ | hreads'
      · exact Or.inl ⟨m, hm, hreads.trans hnone⟩
      · exact Or.inr (hreads'.congr hreads)
  · intro r hr k hk
    rcases List.mem_append.mp hr with hr | hr
    · obtain ⟨t, ht, hhead, hend⟩ := h.handed r hr k hk
      obtain ⟨t', ht', hhead', hend', -⟩ := hset ht
      exact ⟨t', ht', by rw [hhead']; exact hhead, by rw [hend']; exact hend⟩
    · obtain rfl := List.mem_singleton.mp hr
      obtain ⟨t, ht, hhead, hend⟩ := hstream k hk
      obtain ⟨t', ht', hhead', hend', -⟩ := hset ht
      exact ⟨t', ht', by rw [hhead']; exact hhead, by rw [hend']; exact hend⟩

/-! ## Any order of reads -/

/-- The request does not make an address wrap. -/
def InReach (w : StreamWorld) (call : Nat × ReadOp) : Prop :=
  ∀ s, w.streams[call.1]? = some s → call.2.InReach s

/-- If the read fails, it throws, and its stream is as it was. -/
def ThrowsCleanly (mem : Buffer) (w : StreamWorld) (call : Nat × ReadOp) : Prop :=
  ∀ s, w.streams[call.1]? = some s → ∀ f s', call.2.run mem s = .error f s' →
    (∃ e, f = .thrown e) ∧ s' = s

/-- A read that throws leaves the law as it is, with a stream that was not bound. -/
theorem Law.thrown {w : StreamWorld} (h : Law mem w) {i : Nat} {s : RawStream}
    (hi : w.streams[i]? = some s) (op : ReadOp) :
    Law mem { w with streams := w.streams.set i s ++ op.leftOver } := by
  obtain ⟨hlt, hget⟩ := List.getElem?_eq_some_iff.mp hi
  have hsame : w.streams.set i s = w.streams := by
    rw [← hget]
    exact List.set_getElem_self hlt
  rw [hsame]
  cases op with
  | scalar n => simpa [ReadOp.leftOver] using h
  | string n => simpa [ReadOp.leftOver] using h
  | stream n => exact h.extend (Or.inl ⟨n, rfl⟩)

/-- Handing out a stream: it joins the others, and its bytes have been read. -/
theorem Law.hand {w : StreamWorld} (h : Law mem w) {i : Nat} {s : RawStream}
    (hi : w.streams[i]? = some s) (hs : Reads mem w i s) {n : UInt64}
    (hn : s.cur.toNat + n.toNat ≤ s.end_.toNat) :
    Law mem {
      streams := w.streams.set i (s.advance n)
        ++ [{ head := s.cur, length := n, cur := s.cur, end_ := s.cur + n }]
      reads := w.reads ++ [⟨i, s.cur.toNat, n.toNat, .stream w.streams.length⟩] } := by
  obtain ⟨hwithin, hend⟩ := within_handed hs.within hn
  have hlt := (List.getElem?_eq_some_iff.mp hi).1
  have hjoined := h.extend (Or.inr ⟨hwithin, rfl⟩)
  rw [← List.set_append_left _ _ hlt]
  refine hjoined.read ?_ (hs.congr rfl) hn ?_ ?_
  · show (w.streams ++ _)[i]? = some s
    rw [List.getElem?_append_left hlt]
    exact hi
  · intro bytes hbytes
    exact absurd hbytes (by simp)
  · intro k hk
    obtain rfl : w.streams.length = k := by simpa using hk
    exact ⟨_, List.getElem?_concat_length, rfl, hend⟩

/-- **A read within reach keeps the law**, and if it fails it throws cleanly. -/
theorem law_step {w : StreamWorld} {call : Nat × ReadOp} (h : Law mem w) (hr : InReach w call) :
    ThrowsCleanly mem w call ∧ ∀ w', step mem w call = some w' → Law mem w' := by
  obtain ⟨i, op⟩ := call
  cases hi : w.streams[i]? with
  | none =>
      refine ⟨?_, ?_⟩
      · intro s hs
        exact absurd (hi.symm.trans hs) (by simp)
      · intro w' hw'
        unfold step at hw'
        dsimp only at hw'
        rw [hi] at hw'
        exact absurd hw' (by simp)
  | some s =>
      have hthrown : ∀ e, op.run mem s = .error (.thrown e) s →
          ThrowsCleanly mem w (i, op) ∧ ∀ w', step mem w (i, op) = some w' → Law mem w' := by
        intro e hrun
        refine ⟨?_, ?_⟩
        · intro t ht f s' hf
          obtain rfl : s = t := Option.some.inj (hi.symm.trans ht)
          rw [hrun] at hf
          injection hf with hf hs'
          exact ⟨⟨e, hf.symm⟩, hs'.symm⟩
        · intro w' hw'
          unfold step at hw'
          dsimp only at hw'
          rw [hi] at hw'
          dsimp only at hw'
          rw [hrun] at hw'
          obtain rfl := Option.some.inj hw'
          exact h.thrown hi op
      rcases h.each i s hi with ⟨n, rfl, -⟩ | hs
      · exact hthrown _ (run_ofLength mem n op)
      · rcases run_cases hs.within op (hr s hi) with ⟨hrun, hn⟩ | ⟨e, hrun⟩
        · refine ⟨?_, ?_⟩
          · intro t ht f s' hf
            obtain rfl : s = t := Option.some.inj (hi.symm.trans ht)
            rw [hrun] at hf
            exact absurd hf (by simp)
          · intro w' hw'
            unfold step at hw'
            dsimp only at hw'
            rw [hi] at hw'
            dsimp only at hw'
            rw [hrun] at hw'
            have hvalue : ∀ n : UInt64, s.cur.toNat + n.toNat ≤ s.end_.toNat →
                Law mem ⟨w.streams.set i (s.advance n), w.reads ++ [⟨i, s.cur.toNat, n.toNat,
                  .value (mem.covered s.cur.toNat n.toNat)⟩]⟩ := by
              intro n hn
              refine h.read hi hs hn ?_ ?_
              · intro bytes hbytes
                simpa using hbytes.symm
              · intro k hk
                exact absurd hk (by simp)
            -- what the read gave says which record it left
            cases op with
            | scalar n =>
                obtain rfl := Option.some.inj hw'
                exact hvalue n hn
            | string n =>
                obtain rfl := Option.some.inj hw'
                exact hvalue n hn
            | stream n =>
                obtain rfl := Option.some.inj hw'
                exact h.hand hi hs hn
        · exact hthrown e hrun

/-- **Out of reach the read breaks the law**, or means nothing. -/
theorem inReach_of_law {w : StreamWorld} {call : Nat × ReadOp} (h : Law mem w)
    (hclean : ThrowsCleanly mem w call) (hlaw : ∀ w', step mem w call = some w' → Law mem w') :
    InReach w call := by
  obtain ⟨i, op⟩ := call
  intro s hi
  have hi' : w.streams[i]? = some s := hi
  by_contra hwrap
  rcases h.each i s hi' with ⟨n, rfl, -⟩ | hs
  · -- the cursor of a stream without a buffer is the null pointer
    apply hwrap
    cases op with
    | scalar m => exact (Nat.zero_add _).trans_lt m.toNat_lt
    | string m => trivial
    | stream m => exact (Nat.zero_add _).trans_lt m.toNat_lt
  · rcases run_wrapped hs.within op hwrap with ⟨what, hrun⟩ | ⟨t, hrun, hhead, hback⟩
    · obtain ⟨⟨e, he⟩, -⟩ := hclean s hi _ _ hrun
      exact absurd he (by simp)
    · have hstep : step mem w (i, op) = some ⟨w.streams.set i (s.advance op.size) ++ [t],
          w.reads ++ [⟨i, s.cur.toNat, op.size.toNat, .stream w.streams.length⟩]⟩ := by
        unfold step
        dsimp only
        rw [hi']
        dsimp only
        rw [hrun]
      have hlast : (w.streams.set i (s.advance op.size) ++ [t])[w.streams.length]? = some t := by
        have := List.getElem?_concat_length (l := w.streams.set i (s.advance op.size)) (a := t)
        rwa [List.length_set] at this
      rcases (hlaw _ hstep).each _ t hlast with ⟨n, rfl, -⟩ | hreads
      · exact hhead rfl
      · have := hreads.within.end_
        omega

theorem law_run_iff {w : StreamWorld} (h : Law mem w) (calls : List (Nat × ReadOp)) :
    Visits (step mem) (Law mem) w calls ∧ Takes (step mem) (ThrowsCleanly mem) w calls
      ↔ Takes (step mem) InReach w calls := by
  refine visits_takes_iff ?_ h
  intro w call hw
  constructor
  · intro ⟨hclean, hlaw⟩
    exact inReach_of_law hw hclean hlaw
  · intro hreach
    exact law_step hw hreach

/--
**Reads are sequential and fail cleanly exactly within reach.** For every buffer and every
sequence of reads from its stream and from those it hands out, the law holds in all states
and whatever throws leaves its stream alone, if and only if no scalar or stream is
requested that makes `cur_ + n` wrap.
-/
theorem stream_law_iff (mem : Buffer) (calls : List (Nat × ReadOp)) :
    Visits (step mem) (Law mem) (init mem) calls
        ∧ Takes (step mem) (ThrowsCleanly mem) (init mem) calls
      ↔ Takes (step mem) InReach (init mem) calls :=
  law_run_iff (law_init mem) calls

/-- One byte at address 4096, and a stream of `SIZE_MAX` bytes is asked for. -/
theorem stream_law_broken :
    ¬(Visits (step ⟨4096, [7], by decide, by decide, by decide⟩)
          (Law ⟨4096, [7], by decide, by decide, by decide⟩)
          (init ⟨4096, [7], by decide, by decide, by decide⟩) [(0, .stream 0xFFFFFFFFFFFFFFFF)]
        ∧ Takes (step ⟨4096, [7], by decide, by decide, by decide⟩)
          (ThrowsCleanly ⟨4096, [7], by decide, by decide, by decide⟩)
          (init ⟨4096, [7], by decide, by decide, by decide⟩)
          [(0, .stream 0xFFFFFFFFFFFFFFFF)]) := by
  intro h
  obtain ⟨hreach, -⟩ := (law_run_iff (law_init _) _).mp h
  have hwrap : (4096 : Nat) + 0xFFFFFFFFFFFFFFFF < 2 ^ 64 := hreach _ rfl
  omega

end RosserialServer
