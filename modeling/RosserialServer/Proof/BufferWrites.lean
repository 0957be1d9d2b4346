import RosserialServer.Protocol.MessageSerialization

/-!
# What a write to a `Write_Buffer` does

`Wrote b bytes b'` says that `b'` is `b` with `bytes` written behind what was there.
Growing the vector never shows in `written`; it only shows in the length of the
vector, which is why a frame, sized in advance, is the whole vector at the end.
-/

namespace RosserialServer

open MemBlock

namespace WriteBuffer

/-- `b'` is `b` with `bytes` written behind what was there. -/
structure Wrote (b : WriteBuffer) (bytes : List UInt8) (b' : WriteBuffer) : Prop where
  written : b'.written = b.written ++ bytes
  length : b'.serialMsg.length = max b.serialMsg.length (b.writeLen + bytes.length)

@[simp] theorem length_written (b : WriteBuffer) : b.written.length = b.writeLen := by
  unfold written
  rw [List.length_take]
  exact Nat.min_eq_left b.written_le

theorem Wrote.writeLen {b b' : WriteBuffer} {bytes : List UInt8} (h : b.Wrote bytes b') :
    b'.writeLen = b.writeLen + bytes.length := by
  rw [← length_written b', h.written, List.length_append, length_written]

theorem Wrote.refl (b : WriteBuffer) : b.Wrote [] b := by
  have hle := b.written_le
  refine ⟨by simp, ?_⟩
  rw [List.length_nil]
  omega

theorem Wrote.trans {b b' b'' : WriteBuffer} {xs ys : List UInt8} (h : b.Wrote xs b')
    (h' : b'.Wrote ys b'') : b.Wrote (xs ++ ys) b'' := by
  have hlen := h.length
  refine ⟨by rw [h'.written, h.written, List.append_assoc], ?_⟩
  rw [h'.length, hlen, h.writeLen, List.length_append]
  omega

theorem length_grown (b : WriteBuffer) (n : Nat) :
    (b.grown n).serialMsg.length = max b.serialMsg.length (b.writeLen + n) := by
  have hle := b.written_le
  unfold grown getRemain getLen getWriteLen
  split
  · unfold ensureSize
    rw [if_neg (by omega)]
    simp only [List.length_append, List.length_replicate]
    omega
  · omega

theorem take_grown (b : WriteBuffer) (n : Nat) :
    (b.grown n).serialMsg.take b.writeLen = b.written := by
  unfold grown
  split
  · unfold ensureSize written
    split
    · rfl
    · rw [List.take_append_of_le_length b.written_le]
  · rfl

/-- **A write from memory that is there appends to what was written.** -/
theorem bufferWrite_ok (b : WriteBuffer) (src : List UInt8) {n : Nat} (h : n ≤ src.length) :
    ∃ b', b.bufferWrite (some src) n = .ok b' ∧ b.Wrote (src.take n) b' := by
  have hlen : (src.take n).length = n := by rw [List.length_take]; omega
  by_cases hn : n = 0
  · subst hn
    exact ⟨b, rfl, by simpa using Wrote.refl b⟩
  · have hgrown := length_grown b n
    have hroom := (grown_spec b n).2
    unfold bufferWrite
    rw [if_neg hn]
    refine ⟨_, rfl, ⟨?_, ?_⟩⟩
    · -- the old bytes, then the copied ones
      have hsum : (b.written ++ src.take n).length = b.writeLen + n := by
        rw [List.length_append, length_written, hlen]
      show (overwrite (b.grown n).serialMsg b.writeLen (src.take n)).take (b.writeLen + n) = _
      unfold overwrite
      rw [take_grown, List.take_append_of_le_length (Nat.le_of_eq hsum.symm),
        List.take_of_length_le (Nat.le_of_eq hsum)]
    · show (overwrite (b.grown n).serialMsg b.writeLen (src.take n)).length = _
      rw [length_overwrite (by rw [hlen]; exact hroom), hgrown, hlen]

/-- A whole run of bytes. -/
theorem bufferWrite_all (b : WriteBuffer) {src : List UInt8} {n : Nat} (h : src.length = n) :
    ∃ b', b.bufferWrite (some src) n = .ok b' ∧ b.Wrote src b' := by
  obtain ⟨b', hwrite, hwrote⟩ := bufferWrite_ok b src (Nat.le_of_eq h.symm)
  rw [← h, List.take_length] at hwrote
  exact ⟨b', hwrite, hwrote⟩

/-- A buffer written full is its contents. -/
theorem written_full {b : WriteBuffer} (h : b.serialMsg.length = b.writeLen) :
    b.getVector = b.written := by
  unfold getVector written
  rw [← h, List.take_length]

end WriteBuffer

end RosserialServer
