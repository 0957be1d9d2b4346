import RosserialServer.Lib.MethodCalls
import RosserialServer.Proof.BufferWrites
import RosserialServer.Protocol.WriteObject

/-!
# `Write_Buffer` is an append-only log

The statements of `buffer_write` do to the two fields what `WriteBuffer.bufferWrite` does
to its value, and throw before they have touched either (`bufferWrite_raw`). So a buffer in
use is at every point the raw form of a `WriteBuffer` (`IsLog`), which holds what the
accepted calls wrote, one behind the other.
-/

namespace RosserialServer

open MethodCalls

/-! ## The statements and the value -/

namespace WriteBuffer

/-- The two fields. -/
def raw (b : WriteBuffer) : RawWriteBuffer := ⟨b.writeLen, b.serialMsg⟩

theorem ensureSize_raw (b : WriteBuffer) (size : Nat) :
    RawWriteBuffer.ensureSize size b.raw = .ok () (b.ensureSize size).raw := by
  unfold ensureSize
  by_cases h : size < b.serialMsg.length
  · rw [if_pos h]
    show (if size < b.serialMsg.length then _ else _ : RawWriteBuffer.Method) b.raw = _
    rw [if_pos h]
    rfl
  · rw [if_neg h]
    show (if size < b.serialMsg.length then _ else _ : RawWriteBuffer.Method) b.raw = _
    rw [if_neg h]
    rfl

theorem makeRoom_raw (b : WriteBuffer) (n : Nat) :
    RawWriteBuffer.makeRoom n b.raw = .ok () (b.grown n).raw := by
  unfold grown
  by_cases h : b.getRemain < n
  · rw [if_pos h]
    show (if b.getRemain < n then _ else _ : RawWriteBuffer.Method) b.raw = _
    rw [if_pos h]
    exact ensureSize_raw b (b.writeLen + n)
  · rw [if_neg h]
    show (if b.getRemain < n then _ else _ : RawWriteBuffer.Method) b.raw = _
    rw [if_neg h]
    rfl

/-- There is room where the bytes go. -/
theorem copyToWptr_raw (b : WriteBuffer) (src : List UInt8) (n : Nat) :
    RawWriteBuffer.copyToWptr src n (b.grown n).raw
      = .ok () ⟨b.writeLen, MemBlock.overwrite (b.grown n).serialMsg b.writeLen (src.take n)⟩ := by
  obtain ⟨hlen, hroom⟩ := grown_spec b n
  have hfits : ¬(b.grown n).serialMsg.length < (b.grown n).writeLen + n := by
    rw [hlen]
    omega
  unfold RawWriteBuffer.copyToWptr
  show (if (b.grown n).serialMsg.length < (b.grown n).writeLen + n then _ else _ :
    RawWriteBuffer.Method) (b.grown n).raw = _
  rw [if_neg hfits]
  show EStateM.Result.ok () (RawWriteBuffer.mk (b.grown n).writeLen
    (MemBlock.overwrite (b.grown n).serialMsg (b.grown n).writeLen (src.take n))) = _
  rw [hlen]

/-- **The statements of `buffer_write` are `bufferWrite`**, and what throws touches nothing. -/
theorem bufferWrite_raw (b : WriteBuffer) (readPtr : Option (List UInt8)) (n : Nat) :
    RawWriteBuffer.bufferWrite readPtr n b.raw
      = match b.bufferWrite readPtr n with
        | .ok b' => .ok () b'.raw
        | .error e => .error (.thrown e) b.raw := by
  unfold RawWriteBuffer.bufferWrite bufferWrite
  by_cases hn : n = 0
  · rw [if_pos hn, if_pos hn]
    rfl
  · rw [if_neg hn, if_neg hn]
    cases readPtr with
    | none => rfl
    | some src =>
        dsimp only
        rw [bind_of_ok (makeRoom_raw b n), bind_of_ok (copyToWptr_raw b src n)]
        rfl

theorem readAndMvPtr_raw (b : WriteBuffer) (readPtr : Option (List UInt8)) (array : ArraySpec)
    (elemSize : Nat) :
    RawWriteBuffer.readAndMvPtr readPtr array elemSize b.raw
      = match b.readAndMvPtr readPtr array elemSize with
        | .ok b' => .ok () b'.raw
        | .error e => .error (.thrown e) b.raw := by
  unfold RawWriteBuffer.readAndMvPtr readAndMvPtr
  cases (array.isArray && (array.isUpperBound || array.arraySize == 0)) with
  | true => rfl
  | false => exact bufferWrite_raw b readPtr _

end WriteBuffer

/-! ## Calls one after the other -/

/-- What a call does to the value: it appends its bytes, or it is rejected. -/
theorem WriteCall.run_raw (b : WriteBuffer) (call : WriteCall) :
    (∃ b', call.run b.raw = .ok () b'.raw ∧ b.Wrote call.bytes b')
      ∨ ∃ e, call.run b.raw = .error (.thrown e) b.raw := by
  cases call with
  | bufferWrite src n readable =>
      obtain ⟨b', hwrite, hwrote⟩ := b.bufferWrite_ok src readable
      refine Or.inl ⟨b', ?_, hwrote⟩
      show RawWriteBuffer.bufferWrite (some src) n b.raw = _
      rw [b.bufferWrite_raw, hwrite]
  | readAndMvPtr src array elemSize readable =>
      show (∃ b', RawWriteBuffer.readAndMvPtr (some src) array elemSize b.raw = _ ∧ _) ∨ ∃ e,
        RawWriteBuffer.readAndMvPtr (some src) array elemSize b.raw = _
      rw [b.readAndMvPtr_raw]
      unfold WriteBuffer.readAndMvPtr
      cases (array.isArray && (array.isUpperBound || array.arraySize == 0)) with
      | true => exact Or.inr ⟨_, rfl⟩
      | false =>
          obtain ⟨b', hwrite, hwrote⟩ := b.bufferWrite_ok src readable
          refine Or.inl ⟨b', ?_, hwrote⟩
          show (match b.bufferWrite (some src) _ with
            | .ok b' => EStateM.Result.ok () b'.raw
            | .error e => .error (Failure.thrown e) b.raw) = _
          rw [hwrite]

/-- The buffer is a log of the writes that were accepted. -/
structure IsLog (len : Nat) (b : RawWriteBuffer) (accepted : List (WriteCall × Unit)) : Prop where
  within : b.writeLen ≤ b.serialMsg.length
  written : b.serialMsg.take b.writeLen = accepted.flatMap fun call => call.1.bytes
  length : b.serialMsg.length = max len b.writeLen
  /-- Nothing stale behind the log, unless the vector was made too large at first. -/
  vector : len ≤ b.writeLen → b.getVector = accepted.flatMap fun call => call.1.bytes

/-- A log that is the two fields of a value. -/
def LogValue (len : Nat) (w : Called RawWriteBuffer WriteCall Unit) : Prop :=
  ∃ b : WriteBuffer, w.1 = b.raw ∧ b.written = w.2.flatMap (fun call => call.1.bytes)
    ∧ b.serialMsg.length = max len b.writeLen

theorem LogValue.isLog {len : Nat} {w : Called RawWriteBuffer WriteCall Unit}
    (h : LogValue len w) : IsLog len w.1 w.2 := by
  obtain ⟨b, hraw, hwritten, hlength⟩ := h
  rw [hraw]
  refine ⟨b.written_le, hwritten, hlength, ?_⟩
  intro hlen
  have hfull : b.serialMsg.length = b.writeLen := by
    have hlen' : len ≤ b.writeLen := hlen
    omega
  exact (WriteBuffer.written_full hfull).trans hwritten

theorem logValue_init (len : Nat) : LogValue len (RawWriteBuffer.new len, []) := by
  refine ⟨.new len, rfl, rfl, ?_⟩
  show (List.replicate len (0 : UInt8)).length = max len 0
  rw [List.length_replicate, Nat.max_zero]

/-- **Preserved by every call.** -/
theorem logValue_step {len : Nat} {w w' : Called RawWriteBuffer WriteCall Unit} {call : WriteCall}
    (h : LogValue len w) (hs : step WriteCall.run w call = some w') : LogValue len w' := by
  obtain ⟨b, hraw, hwritten, hlength⟩ := h
  rcases step_cases hs with ⟨r, hcall, hlog⟩ | ⟨e, hcall, hlog⟩
  · rw [hraw] at hcall
    rcases call.run_raw b with ⟨b', hrun, hwrote⟩ | ⟨x, hrun⟩
    · rw [hrun] at hcall
      injection hcall with hr hb'
      refine ⟨b', hb'.symm, ?_, ?_⟩
      · rw [hwrote.written, hwritten, hlog, List.flatMap_append]
        simp
      · rw [hwrote.length, hwrote.writeLen, hlength]
        omega
    · rw [hrun] at hcall
      exact absurd hcall (by simp)
  · rw [hraw] at hcall
    rcases call.run_raw b with ⟨b', hrun, hwrote⟩ | ⟨x, hrun⟩
    · rw [hrun] at hcall
      exact absurd hcall (by simp)
    · rw [hrun] at hcall
      injection hcall with hx hb
      exact ⟨b, hb.symm, by rw [hlog]; exact hwritten, hlength⟩

/-- A call that fails throws, and the buffer is as it was. -/
def FailsCleanly (b : RawWriteBuffer) (call : WriteCall) : Prop :=
  ∀ (f : Failure) (b' : RawWriteBuffer), call.run b = .error f b' → (∃ e, f = .thrown e) ∧ b' = b

theorem LogValue.rejected {len : Nat} {w : Called RawWriteBuffer WriteCall Unit}
    (h : LogValue len w) (call : WriteCall) : FailsCleanly w.1 call := by
  intro f b' hf
  obtain ⟨b, hraw, -, -⟩ := h
  rw [hraw] at hf ⊢
  rcases call.run_raw b with ⟨b'', hrun, -⟩ | ⟨e, hrun⟩
  · rw [hrun] at hf
    exact absurd hf (by simp)
  · rw [hrun] at hf
    injection hf with hx hb
    exact ⟨⟨e, hx.symm⟩, hb.symm⟩

/--
**`Write_Buffer` is an append-only log.** After any calls the buffer holds what the accepted
ones wrote, in order, in a vector that is only as much longer as it was made at first; and
whatever call comes next, if it is rejected nothing has changed.
-/
theorem append_only_log (len : Nat) (calls : List WriteCall) :
    ∃ w, Lts.exec (step WriteCall.run) (RawWriteBuffer.new len, []) calls = some w
      ∧ IsLog len w.1 w.2 ∧ ∀ call, FailsCleanly w.1 call := by
  obtain ⟨w, hw⟩ := Lts.exec_total (step_total WriteCall.run) calls (RawWriteBuffer.new len, [])
  have hlog : LogValue len w :=
    Lts.exec_invariant (fun _ _ _ h hs => logValue_step h hs) (logValue_init len) hw
  refine ⟨w, hw, hlog.isLog, ?_⟩
  intro call
  exact hlog.rejected call

end RosserialServer
