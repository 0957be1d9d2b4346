import RosserialServer.Protocol.MessageSerialization

/-!
# What a read of a `Ros_Stream` returns

Every stream a handler is given lies over a buffer, and every read either takes
bytes off the front of what remains or throws. `Reading s rest` says that `s` is
such a stream with `rest` ahead of it; the lemmas below say what each read does to
`rest`, so that no later proof looks at the cursor.
-/

namespace RosserialServer

open Bytes MemBlock

theorem castInt_small {n : Nat} (h : n < 2 ^ 31) : RosStream.castInt n = n := by
  unfold RosStream.castInt
  rw [Nat.mod_eq_of_lt (by omega), if_pos h]

/-- A stream of at most `INT_MAX` bytes never seems longer than it is. -/
theorem le_of_le_castInt {n len : Nat} (hlen : len ≤ 2 ^ 31) (h : len ≤ RosStream.castInt n) :
    len ≤ n := by
  unfold RosStream.castInt at h
  split at h
  · exact Nat.le_trans h (Nat.mod_le _ _)
  · have := Nat.mod_le n (2 ^ 32)
    omega

namespace RosStream

/-- `s` lies over a buffer, and `rest` is what its cursor has not passed. -/
def Reading (s : RosStream) (rest : List UInt8) : Prop :=
  ∃ bytes, s.head = some bytes ∧ s.cur ≤ bytes.length ∧ bytes.drop s.cur = rest

theorem reading_ofBuffer (bytes : List UInt8) : (ofBuffer bytes).Reading bytes :=
  ⟨bytes, rfl, Nat.zero_le _, rfl⟩

theorem Reading.remaining {s : RosStream} {rest : List UInt8} (h : s.Reading rest) :
    s.remaining = rest := by
  obtain ⟨bytes, hhead, -, rfl⟩ := h
  unfold RosStream.remaining
  rw [hhead]
  rfl

theorem Reading.getLength {s : RosStream} {rest : List UInt8} (h : s.Reading rest) :
    s.getLength = castInt rest.length := by
  obtain ⟨bytes, hhead, -, rfl⟩ := h
  unfold RosStream.getLength
  rw [hhead, List.length_drop]

/-- Passing `n` bytes. -/
theorem Reading.advance {s : RosStream} {rest : List UInt8} {n : Nat} (h : s.Reading rest)
    (hn : n ≤ rest.length) : ({ s with cur := s.cur + n } : RosStream).Reading (rest.drop n) := by
  obtain ⟨bytes, hhead, hcur, rfl⟩ := h
  rw [List.length_drop] at hn
  refine ⟨bytes, hhead, ?_, ?_⟩
  · show s.cur + n ≤ bytes.length
    omega
  · rw [List.drop_drop]

theorem readScalar_ok {s : RosStream} {rest : List UInt8} {n : Nat} (h : s.Reading rest)
    (hn : n ≤ rest.length) :
    ∃ s', s.readScalar n = .ok (rest.take n, s') ∧ s'.Reading (rest.drop n) := by
  have hadv := h.advance hn
  obtain ⟨bytes, hhead, hcur, rfl⟩ := h
  rw [List.length_drop] at hn
  refine ⟨{ s with cur := s.cur + n }, ?_, hadv⟩
  unfold readScalar
  rw [hhead]
  dsimp only
  rw [if_pos (by omega)]
  rfl

theorem readScalar_short {s : RosStream} {rest : List UInt8} {n : Nat} (h : s.Reading rest)
    (hn : rest.length < n) : s.readScalar n = .error outOfBounds := by
  obtain ⟨bytes, hhead, hcur, rfl⟩ := h
  rw [List.length_drop] at hn
  unfold readScalar
  rw [hhead]
  dsimp only
  rw [if_neg (by omega)]

theorem readString_ok {s : RosStream} {rest : List UInt8} {len : Nat} (h : s.Reading rest)
    (hpos : 0 < len) (hlen : len ≤ castInt rest.length) (hle : len ≤ rest.length) :
    ∃ s', s.readString len = .ok (rest.take len, s') ∧ s'.Reading (rest.drop len) := by
  have hadv := h.advance hle
  have hget := h.getLength
  obtain ⟨bytes, hhead, hcur, rfl⟩ := h
  refine ⟨{ s with cur := s.cur + len }, ?_, hadv⟩
  unfold readString
  rw [hhead]
  dsimp only
  rw [if_neg (by omega), if_neg (by rw [hget]; omega)]
  rfl

/-- A string of no bytes is never read, whatever remains. -/
theorem readString_zero {s : RosStream} {rest : List UInt8} (h : s.Reading rest) :
    s.readString 0 = .error undefinedString := by
  obtain ⟨bytes, hhead, -, -⟩ := h
  unfold readString
  rw [hhead]
  rfl

theorem readString_short {s : RosStream} {rest : List UInt8} {len : Nat} (h : s.Reading rest)
    (hlen : castInt rest.length < len) : s.readString len = .error outOfBounds := by
  have hget := h.getLength
  obtain ⟨bytes, hhead, -, rfl⟩ := h
  unfold readString
  rw [hhead]
  dsimp only
  rw [if_neg (by omega), if_pos (by rw [hget]; exact hlen)]

/-! ## Numbers -/

theorem uint8_ofNat_leNat (b : UInt8) : UInt8.ofNat (leNat [b]) = b := by
  unfold leNat leNat
  simp

theorem readUInt8_cons {s : RosStream} {b : UInt8} {rest : List UInt8}
    (h : s.Reading (b :: rest)) : ∃ s', s.readUInt8 = .ok (b, s') ∧ s'.Reading rest := by
  obtain ⟨s', hread, hrest⟩ := readScalar_ok (n := 1) h (by simp)
  refine ⟨s', ?_, hrest⟩
  unfold readUInt8
  rw [hread]
  show Except.ok (UInt8.ofNat (leNat [b]), s') = _
  rw [uint8_ofNat_leNat]

theorem readUInt16_ok {s : RosStream} {lo hi : UInt8} {rest : List UInt8}
    (h : s.Reading (lo :: hi :: rest)) :
    ∃ s', s.readUInt16 = .ok (UInt16.ofNat (leNat [lo, hi]), s') ∧ s'.Reading rest := by
  obtain ⟨s', hread, hrest⟩ := readScalar_ok (n := 2) h (by simp)
  refine ⟨s', ?_, hrest⟩
  unfold readUInt16
  rw [hread]
  rfl

/-- Handing out the rest of a stream but for its last bytes. -/
theorem readStream_ok {s : RosStream} {body rest : List UInt8} (h : s.Reading (body ++ rest)) :
    ∃ s', s.readStream (ofLength body.length) = .ok (ofBuffer body, s') ∧ s'.Reading rest := by
  have hadv := h.advance (n := body.length) (by simp)
  rw [List.drop_left] at hadv
  obtain ⟨bytes, hhead, hcur, hrest⟩ := h
  refine ⟨_, ?_, hadv⟩
  have hlen := congrArg List.length hrest
  rw [List.length_drop, List.length_append] at hlen
  have hget : (ofLength body.length).getLength = body.length := rfl
  have hslice : slice bytes s.cur body.length = body := by
    unfold slice
    rw [hrest, List.take_left]
  unfold readStream
  rw [hhead, hget]
  dsimp only
  rw [if_pos (by omega), hslice]
  rfl

end RosStream

/-! ## Checksums -/

/-- Reading a whole list by index and adding up is a fold over it. -/
theorem foldl_range_getElem? (bs : List UInt8) (acc : UInt8) :
    (List.range bs.length).foldl (fun sum i => sum + (bs[i]?).getD 0) acc
      = bs.foldl (· + ·) acc := by
  induction bs generalizing acc with
  | nil => rfl
  | cons b bs ih =>
      rw [List.length_cons, List.range_succ_eq_map, List.foldl_cons, List.foldl_cons,
        List.foldl_map]
      exact ih _

/-- **The stream checksum is the sum of the bytes modulo 256.** -/
theorem datasumForCheckStream_toNat (body : List UInt8) (h : body.length < 2 ^ 31) :
    (datasumForCheckStream (RosStream.ofBuffer body)).toNat = byteSum body % 256 := by
  have hlen := (RosStream.reading_ofBuffer body).getLength
  rw [castInt_small h] at hlen
  unfold datasumForCheckStream
  rw [hlen]
  show ((List.range body.length).foldl (fun sum i => sum + (body[i]?).getD 0) 0).toNat = _
  rw [foldl_range_getElem?, foldl_add_toNat]
  simp

/-- The sum over a 16-bit word is the sum of its two bytes modulo 256. -/
theorem datasumForCheck_toNat (val : UInt16) :
    (datasumForCheck val).toNat = byteSum (leBytes 2 val.toNat) % 256 := by
  unfold datasumForCheck
  have hv := val.toNat_lt
  rw [UInt8.toNat_ofNat', Nat.shiftRight_eq_div_pow]
  simp only [leBytes, byteSum_cons, byteSum_nil, UInt8.toNat_ofNat']
  omega

end RosserialServer
