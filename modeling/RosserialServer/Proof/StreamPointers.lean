import RosserialServer.Lib.MethodCalls
import RosserialServer.Proof.StreamReads
import RosserialServer.Protocol.StreamObject

/-!
# One read, on the pointers

As long as no address wraps, a read takes the next bytes of its stream or throws and leaves
it alone (`run_cases`), and does to the pointers what `RosStream` does to its offset
(`readScalar_view` and the two after it). A request so long that `cur_ + n` wraps passes
the test `cur_ + n <= end_` (`run_wrapped`); the read of a string compares lengths instead.
-/

namespace RosserialServer

open MethodCalls

/-! ## One stream -/

/-- A stream over bytes of the buffer, with its cursor among them. -/
structure Within (mem : Buffer) (s : RawStream) : Prop where
  head : mem.base ≤ s.head.toNat
  cur : s.head.toNat ≤ s.cur.toNat
  end_ : s.cur.toNat ≤ s.end_.toNat
  fits : s.end_.toNat ≤ mem.base + mem.bytes.length
  length : s.length.toNat = s.end_.toNat - s.head.toNat

theorem ofBuffer_addresses (mem : Buffer) :
    (RawStream.ofBuffer mem).head.toNat = mem.base ∧ (RawStream.ofBuffer mem).cur.toNat = mem.base
      ∧ (RawStream.ofBuffer mem).end_.toNat = mem.base + mem.bytes.length
      ∧ (RawStream.ofBuffer mem).length.toNat = mem.bytes.length := by
  have hfits := mem.fits
  have hbase : (UInt64.ofNat mem.base).toNat = mem.base :=
    UInt64.toNat_ofNat_of_lt' (by show _ < 2 ^ 64; omega)
  refine ⟨hbase, hbase, ?_, ?_⟩
  · exact UInt64.toNat_ofNat_of_lt' (by show _ < 2 ^ 64; omega)
  · exact UInt64.toNat_ofNat_of_lt' (by show _ < 2 ^ 64; omega)

theorem within_ofBuffer (mem : Buffer) : Within mem (.ofBuffer mem) := by
  obtain ⟨hhead, hcur, hend, hlen⟩ := ofBuffer_addresses mem
  refine ⟨?_, ?_, ?_, ?_, ?_⟩ <;> omega

variable {mem : Buffer} {s : RawStream}

theorem Within.head_ne (h : Within mem s) : s.head ≠ 0 := by
  have hpos := mem.nonnull
  have hhead := h.head
  intro hzero
  rw [hzero] at hhead
  simp at hhead
  omega

/-- **What is behind the cursor and what is ahead of it make up the stream.** -/
theorem Within.getLength (h : Within mem s) :
    s.getLength.toNat = s.end_.toNat - s.cur.toNat := by
  have hshort := mem.short
  have hhead := h.head
  have hcur := h.cur
  have hend := h.end_
  have hfits := h.fits
  have hsub : (s.end_ - s.cur).toNat = s.end_.toNat - s.cur.toNat :=
    UInt64.toNat_sub_of_le _ _ (UInt64.le_iff_toNat_le.mpr hend)
  have hne : ¬(s.head = 0 ∧ s.end_ = 0) := by
    intro hnull
    exact h.head_ne hnull.1
  unfold RawStream.getLength
  rw [if_neg hne, hsub, castInt_small (by omega)]
  exact UInt64.toNat_ofNat_of_lt' (by show _ < 2 ^ 64; omega)

/-- The sum of the cursor and a request is an address again. -/
def Reaches (s : RawStream) (n : UInt64) : Prop := s.cur.toNat + n.toNat < 2 ^ 64

theorem Reaches.add {n : UInt64} (h : Reaches s n) : (s.cur + n).toNat = s.cur.toNat + n.toNat := by
  rw [UInt64.toNat_add]
  exact Nat.mod_eq_of_lt h

/-- The test of the source, where nothing wraps. -/
theorem Reaches.test_iff {n : UInt64} (h : Reaches s n) :
    s.cur + n ≤ s.end_ ↔ s.cur.toNat + n.toNat ≤ s.end_.toNat := by
  rw [UInt64.le_iff_toNat_le, h.add]

/-- A sum that wraps passes the test. -/
theorem test_of_wrap (hs : Within mem s) {n : UInt64} (h : ¬Reaches s n) :
    s.cur + n ≤ s.end_ ∧ (s.cur + n).toNat < s.cur.toNat := by
  have hn := n.toNat_lt
  have hc := s.cur.toNat_lt
  have hend := hs.end_
  unfold Reaches at h
  have hsum : (s.cur + n).toNat = s.cur.toNat + n.toNat - 2 ^ 64 := by
    rw [UInt64.toNat_add]
    omega
  refine ⟨?_, by omega⟩
  rw [UInt64.le_iff_toNat_le]
  omega

theorem Within.advance (h : Within mem s) {n : UInt64}
    (hn : s.cur.toNat + n.toNat ≤ s.end_.toNat) :
    (s.advance n).cur.toNat = s.cur.toNat + n.toNat ∧ Within mem (s.advance n) := by
  have hreach : Reaches s n := by
    have := s.end_.toNat_lt
    unfold Reaches
    omega
  have hcur := hreach.add
  refine ⟨hcur, h.head, ?_, ?_, h.fits, h.length⟩
  · have := h.cur
    show s.head.toNat ≤ (s.cur + n).toNat
    omega
  · show (s.cur + n).toNat ≤ s.end_.toNat
    omega

/-! ## One read -/

/-- What a read gives that does not throw. -/
def ReadOp.gives (mem : Buffer) (s : RawStream) : ReadOp → Returned
  | scalar size | string size => .value (mem.covered s.cur.toNat size.toNat)
  | stream size => .handed { head := s.cur, length := size, cur := s.cur, end_ := s.cur + size }

/-- The read compares an address, which must not wrap; a string's length is compared instead. -/
def ReadOp.InReach (s : RawStream) : ReadOp → Prop
  | scalar size | stream size => Reaches s size
  | string _ => True

theorem copyFromCur_ok (h : Within mem s) {n : UInt64}
    (hn : s.cur.toNat + n.toNat ≤ s.end_.toNat) :
    RawStream.copyFromCur mem n s = .ok (mem.covered s.cur.toNat n.toNat) s := by
  have hhead := h.head
  have hcur := h.cur
  have hfits := h.fits
  unfold RawStream.copyFromCur
  show (if s.cur.toNat < mem.base ∨ mem.base + mem.bytes.length < s.cur.toNat + n.toNat then _
    else _ : RawStream.Method (List UInt8)) s = _
  rw [if_neg (by omega)]
  rfl

theorem copyFromCur_outside {n : UInt64} (hn : ¬Reaches s n) :
    RawStream.copyFromCur mem n s = .error (.undefined "memcpy outside the buffer") s := by
  have hfits := mem.fits
  unfold Reaches at hn
  unfold RawStream.copyFromCur
  show (if s.cur.toNat < mem.base ∨ mem.base + mem.bytes.length < s.cur.toNat + n.toNat then _
    else _ : RawStream.Method (List UInt8)) s = _
  rw [if_pos (by omega)]
  rfl

theorem readScalar_run (h : Within mem s) (n : UInt64) :
    RawStream.readScalar mem n s
      = if s.cur + n ≤ s.end_ then
          match RawStream.copyFromCur mem n s with
          | .ok value s' => .ok value (s'.advance n)
          | .error f s' => .error f s'
        else .error (.thrown RosStream.outOfBounds) s := by
  unfold RawStream.readScalar
  show (if s.head = 0 then _ else _ : RawStream.Method (List UInt8)) s = _
  rw [if_neg h.head_ne]
  show (if s.cur + n ≤ s.end_ then _ else _ : RawStream.Method (List UInt8)) s = _
  by_cases ht : s.cur + n ≤ s.end_
  · rw [if_pos ht, if_pos ht]
    cases hc : RawStream.copyFromCur mem n s with
    | ok value s' => rw [bind_of_ok hc]; rfl
    | error f s' => rw [bind_of_error hc]
  · rw [if_neg ht, if_neg ht]
    rfl

theorem readString_run (h : Within mem s) (n : UInt64) :
    RawStream.readString mem n s
      = if n = 0 then .error (.thrown RosStream.undefinedString) s
        else if s.end_.toNat < s.cur.toNat + n.toNat then .error (.thrown RosStream.outOfBounds) s
        else .ok (mem.covered s.cur.toNat n.toNat) (s.advance n) := by
  have hend := h.end_
  have htest : s.getLength < n ↔ s.end_.toNat < s.cur.toNat + n.toNat := by
    rw [UInt64.lt_iff_toNat_lt, h.getLength]
    omega
  unfold RawStream.readString
  show (if s.head = 0 then _ else _ : RawStream.Method (List UInt8)) s = _
  rw [if_neg h.head_ne]
  show (if n = 0 then _ else _ : RawStream.Method (List UInt8)) s = _
  by_cases hzero : n = 0
  · rw [if_pos hzero, if_pos hzero]
    rfl
  · rw [if_neg hzero, if_neg hzero]
    show (if s.getLength < n then _ else _ : RawStream.Method (List UInt8)) s = _
    by_cases ht : s.getLength < n
    · rw [if_pos ht, if_pos (htest.mp ht)]
      rfl
    · have hn := mt htest.mpr ht
      rw [if_neg ht, if_neg hn, bind_of_ok (copyFromCur_ok h (by omega))]
      rfl

theorem readStream_run (h : Within mem s) (n : UInt64) :
    RawStream.readStream (.ofLength n) s
      = if s.cur + n ≤ s.end_ then
          .ok { head := s.cur, length := n, cur := s.cur, end_ := s.cur + n } (s.advance n)
        else .error (.thrown RosStream.outOfBounds) s := by
  unfold RawStream.readStream
  show (if s.head = 0 then _ else _ : RawStream.Method RawStream) s = _
  rw [if_neg h.head_ne]
  show (if s.cur + n ≤ s.end_ then _ else _ : RawStream.Method RawStream) s = _
  by_cases ht : s.cur + n ≤ s.end_
  · rw [if_pos ht, if_pos ht]
    rfl
  · rw [if_neg ht, if_neg ht]
    rfl

/-- **A read within reach takes the next bytes, or throws and leaves the stream alone.** -/
theorem run_cases (h : Within mem s) (op : ReadOp) (hr : op.InReach s) :
    (op.run mem s = .ok (op.gives mem s) (s.advance op.size)
        ∧ s.cur.toNat + op.size.toNat ≤ s.end_.toNat)
      ∨ ∃ e, op.run mem s = .error (.thrown e) s := by
  cases op with
  | scalar n =>
      have hrun := readScalar_run h n
      by_cases ht : s.cur + n ≤ s.end_
      · have hn := hr.test_iff.mp ht
        rw [if_pos ht, copyFromCur_ok h hn] at hrun
        exact Or.inl ⟨bind_of_ok hrun _, hn⟩
      · rw [if_neg ht] at hrun
        exact Or.inr ⟨_, bind_of_error hrun _⟩
  | string n =>
      have hrun := readString_run h n
      by_cases hzero : n = 0
      · rw [if_pos hzero] at hrun
        exact Or.inr ⟨_, bind_of_error hrun _⟩
      · rw [if_neg hzero] at hrun
        by_cases ht : s.end_.toNat < s.cur.toNat + n.toNat
        · rw [if_pos ht] at hrun
          exact Or.inr ⟨_, bind_of_error hrun _⟩
        · rw [if_neg ht] at hrun
          exact Or.inl ⟨bind_of_ok hrun _, Nat.le_of_not_lt ht⟩
  | stream n =>
      have hrun := readStream_run h n
      by_cases ht : s.cur + n ≤ s.end_
      · rw [if_pos ht] at hrun
        exact Or.inl ⟨bind_of_ok hrun _, hr.test_iff.mp ht⟩
      · rw [if_neg ht] at hrun
        exact Or.inr ⟨_, bind_of_error hrun _⟩

/-- A stream without a buffer gives nothing. -/
theorem run_ofLength (mem : Buffer) (n : UInt64) (op : ReadOp) :
    op.run mem (.ofLength n) = .error (.thrown RosStream.notInitialized) (.ofLength n) := by
  cases op with
  | scalar size => exact bind_of_error (x := RawStream.readScalar mem size) rfl _
  | string size => exact bind_of_error (x := RawStream.readString mem size) rfl _
  | stream size => exact bind_of_error (x := RawStream.readStream (.ofLength size)) rfl _

/--
Out of reach a scalar is copied from outside the buffer, and a stream is handed out that ends
before it begins.
-/
theorem run_wrapped (h : Within mem s) (op : ReadOp) (hr : ¬op.InReach s) :
    (∃ what, op.run mem s = .error (.undefined what) s)
      ∨ ∃ t, op.run mem s = .ok (.handed t) (s.advance op.size) ∧ t.head ≠ 0
        ∧ t.end_.toNat < t.cur.toNat := by
  cases op with
  | scalar n =>
      have hrun := readScalar_run h n
      rw [if_pos (test_of_wrap h hr).1, copyFromCur_outside hr] at hrun
      exact Or.inl ⟨_, bind_of_error hrun _⟩
  | string n => exact absurd trivial hr
  | stream n =>
      obtain ⟨htest, hback⟩ := test_of_wrap h hr
      have hrun := readStream_run h n
      rw [if_pos htest] at hrun
      have hne : s.cur ≠ 0 := by
        have hpos := mem.nonnull
        have hhead := h.head
        have hcur := h.cur
        intro hzero
        rw [hzero] at hcur
        simp at hcur
        omega
      exact Or.inr ⟨_, bind_of_ok hrun _, hne, hback⟩

/-! ## The pointers and the offset -/

/-- The stream as bytes and an offset. -/
def RawStream.view (mem : Buffer) (s : RawStream) : RosStream :=
  if s.head = 0 then .ofLength s.length.toNat
  else ⟨some (mem.covered s.head.toNat (s.end_.toNat - s.head.toNat)),
    s.cur.toNat - s.head.toNat, s.length.toNat⟩

theorem Within.view (h : Within mem s) :
    s.view mem = ⟨some (mem.covered s.head.toNat (s.end_.toNat - s.head.toNat)),
      s.cur.toNat - s.head.toNat, s.length.toNat⟩ := by
  unfold RawStream.view
  rw [if_neg h.head_ne]

theorem Within.view_advance (h : Within mem s) {n : UInt64}
    (hn : s.cur.toNat + n.toNat ≤ s.end_.toNat) :
    (s.advance n).view mem
      = { s.view mem with cur := s.cur.toNat - s.head.toNat + n.toNat } := by
  obtain ⟨hcur, hwithin⟩ := h.advance hn
  have hle := h.cur
  rw [hwithin.view, h.view, hcur]
  show RosStream.mk _ (s.cur.toNat + n.toNat - s.head.toNat) _ = _
  rw [Nat.sub_add_comm hle]
  rfl

/-- The two reads come out the same: both return, leaving what is the same stream, or both throw. -/
def SameOutcome {α β : Type} (mem : Buffer) (f : α → β) (r : EStateM.Result Failure RawStream α)
    (r' : Except StdException (β × RosStream)) : Prop :=
  (∃ a s', r = .ok a s' ∧ r' = .ok (f a, s'.view mem))
    ∨ ∃ e s', r = .error (.thrown e) s' ∧ r' = .error e

theorem Within.length_covered (h : Within mem s) :
    (mem.covered s.head.toNat (s.end_.toNat - s.head.toNat)).length
      = s.end_.toNat - s.head.toNat := by
  have hhead := h.head
  have hcur := h.cur
  have hend := h.end_
  have hfits := h.fits
  exact MemBlock.length_slice (by omega)

/-- The bytes at the cursor, in the buffer and in the stream. -/
theorem Within.slice_view (h : Within mem s) {n : Nat} (hn : s.cur.toNat + n ≤ s.end_.toNat) :
    MemBlock.slice (mem.covered s.head.toNat (s.end_.toNat - s.head.toNat))
      (s.cur.toNat - s.head.toNat) n = mem.covered s.cur.toNat n := by
  have hhead := h.head
  have hcur := h.cur
  unfold Buffer.covered
  show ((MemBlock.slice mem.bytes _ _).drop _).take n = _
  rw [MemBlock.drop_slice, MemBlock.take_slice _ _ (by omega)]
  congr 1
  omega

theorem readScalar_view (h : Within mem s) {n : UInt64} (hr : Reaches s n) :
    SameOutcome mem id (RawStream.readScalar mem n s) ((s.view mem).readScalar n.toNat) := by
  have hcur := h.cur
  have hend := h.end_
  rw [readScalar_run h n]
  unfold RosStream.readScalar
  rw [h.view]
  dsimp only
  by_cases ht : s.cur + n ≤ s.end_
  · have hn := hr.test_iff.mp ht
    rw [if_pos ht, copyFromCur_ok h hn, if_pos (by rw [h.length_covered]; omega), h.slice_view hn]
    refine Or.inl ⟨_, _, rfl, ?_⟩
    rw [h.view_advance hn, h.view]
    rfl
  · have hn := mt hr.test_iff.mpr ht
    rw [if_neg ht, if_neg (by rw [h.length_covered]; omega)]
    exact Or.inr ⟨_, _, rfl, rfl⟩

theorem readString_view (h : Within mem s) (n : UInt64) :
    SameOutcome mem id (RawStream.readString mem n s) ((s.view mem).readString n.toNat) := by
  have hshort := mem.short
  have hhead := h.head
  have hcur := h.cur
  have hend := h.end_
  have hfits := h.fits
  have hget : (s.view mem).getLength = s.end_.toNat - s.cur.toNat := by
    rw [h.view]
    show RosStream.castInt ((mem.covered _ _).length - (s.cur.toNat - s.head.toNat)) = _
    rw [h.length_covered, castInt_small (by omega)]
    omega
  have hnil : n.toNat = 0 ↔ n = 0 := by
    rw [← UInt64.toNat_inj]
    rfl
  rw [readString_run h n]
  unfold RosStream.readString
  rw [hget, h.view]
  dsimp only
  by_cases hzero : n = 0
  · rw [if_pos hzero, if_pos (hnil.mpr hzero)]
    exact Or.inr ⟨_, _, rfl, rfl⟩
  · rw [if_neg hzero, if_neg (mt hnil.mp hzero)]
    by_cases ht : s.end_.toNat < s.cur.toNat + n.toNat
    · rw [if_pos ht, if_pos (by omega)]
      exact Or.inr ⟨_, _, rfl, rfl⟩
    · rw [if_neg ht, if_neg (by omega), h.slice_view (Nat.le_of_not_lt ht)]
      refine Or.inl ⟨_, _, rfl, ?_⟩
      rw [h.view_advance (Nat.le_of_not_lt ht), h.view]
      rfl

theorem within_handed (h : Within mem s) {n : UInt64}
    (hn : s.cur.toNat + n.toNat ≤ s.end_.toNat) :
    Within mem { head := s.cur, length := n, cur := s.cur, end_ := s.cur + n }
      ∧ (s.cur + n).toNat = s.cur.toNat + n.toNat := by
  obtain ⟨hcur, -⟩ := h.advance hn
  have hsum : (s.cur + n).toNat = s.cur.toNat + n.toNat := hcur
  have hhead := h.head
  have hle := h.cur
  have hfits := h.fits
  refine ⟨⟨?_, Nat.le_refl _, ?_, ?_, ?_⟩, hsum⟩
  · show mem.base ≤ s.cur.toNat
    omega
  · show s.cur.toNat ≤ (s.cur + n).toNat
    omega
  · show (s.cur + n).toNat ≤ _
    omega
  · show n.toNat = (s.cur + n).toNat - s.cur.toNat
    omega

theorem readStream_view (h : Within mem s) {n : UInt64} (hr : Reaches s n) :
    SameOutcome mem (RawStream.view mem) (RawStream.readStream (.ofLength n) s)
      ((s.view mem).readStream (.ofLength n.toNat)) := by
  have hcur := h.cur
  have hend := h.end_
  have hget : (RosStream.ofLength n.toNat).getLength = n.toNat := rfl
  rw [readStream_run h n]
  unfold RosStream.readStream
  rw [hget, h.view]
  dsimp only
  by_cases ht : s.cur + n ≤ s.end_
  · have hn := hr.test_iff.mp ht
    obtain ⟨hwithin, hsum⟩ := within_handed h hn
    rw [if_pos ht, if_pos (by rw [h.length_covered]; omega), h.slice_view hn]
    refine Or.inl ⟨_, _, rfl, ?_⟩
    rw [h.view_advance hn, h.view, hwithin.view]
    dsimp only
    rw [hsum, Nat.add_sub_cancel_left, Nat.sub_self]
  · have hn := mt hr.test_iff.mpr ht
    rw [if_neg ht, if_neg (by rw [h.length_covered]; omega)]
    exact Or.inr ⟨_, _, rfl, rfl⟩

end RosserialServer
