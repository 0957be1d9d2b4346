import RosserialServer.Protocol.SerialStream
import RosserialServer.RosAdapter.Introspection

/-!
# `protocol/message_serialization.hpp`

The 8-bit sums behind both checksums, and `Write_Buffer`, the growing buffer that
frames and payloads are written into.
-/

namespace RosserialServer

open Bytes

/-- `datasum_for_check(uint16_t)`: the return type drops the high byte of the sum. -/
def datasumForCheck (val : UInt16) : UInt8 := UInt8.ofNat ((val.toNat >>> 8) + val.toNat)

/-- `datasum_for_check(Ros_Stream &)`: `get_length()` bytes, counted from `head_`. -/
def datasumForCheckStream (bodyStream : RosStream) : UInt8 :=
  (List.range bodyStream.getLength).foldl
    (fun sum i => sum + ((bodyStream.head.getD [])[i]?).getD 0) 0

/-- `Write_Buffer`: a vector of which the first `writeLen` bytes have been written. -/
structure WriteBuffer where
  writeLen : Nat
  serialMsg : List UInt8
  /-- What was written is in the vector. -/
  written_le : writeLen ≤ serialMsg.length
  deriving DecidableEq, Repr

namespace WriteBuffer

/-- `Write_Buffer(len)`. -/
def new (len : Nat) : WriteBuffer := ⟨0, List.replicate len 0, Nat.zero_le _⟩

def getLen (b : WriteBuffer) : Nat := b.serialMsg.length

def getRemain (b : WriteBuffer) : Nat := b.getLen - b.writeLen

def getWriteLen (b : WriteBuffer) : Nat := b.writeLen

def ensureSize (b : WriteBuffer) (size : Nat) : WriteBuffer :=
  if size < b.serialMsg.length then b
  else
    { b with
      serialMsg := b.serialMsg ++ List.replicate (size - b.serialMsg.length) 0
      written_le := by
        rw [List.length_append]
        exact Nat.le_trans b.written_le (Nat.le_add_right _ _) }

/-- `get_data()`; the data pointer of an empty vector is null. -/
def getData (b : WriteBuffer) : Option (List UInt8) :=
  if b.serialMsg = [] then none else some b.serialMsg

def getVector (b : WriteBuffer) : List UInt8 := b.serialMsg

/-- The bytes written so far. -/
def written (b : WriteBuffer) : List UInt8 := b.serialMsg.take b.writeLen

theorem le_length_ensureSize (b : WriteBuffer) (size : Nat) :
    size ≤ (b.ensureSize size).serialMsg.length := by
  unfold ensureSize
  split
  · omega
  · simp only [List.length_append, List.length_replicate]
    omega

@[simp] theorem writeLen_ensureSize (b : WriteBuffer) (size : Nat) :
    (b.ensureSize size).writeLen = b.writeLen := by
  unfold ensureSize
  split <;> rfl

/-- The buffer with room for `n` more bytes. -/
def grown (b : WriteBuffer) (n : Nat) : WriteBuffer :=
  if b.getRemain < n then b.ensureSize (b.getWriteLen + n) else b

theorem grown_spec (b : WriteBuffer) (n : Nat) :
    (b.grown n).writeLen = b.writeLen ∧ b.writeLen + n ≤ (b.grown n).serialMsg.length := by
  unfold grown
  split
  · exact ⟨writeLen_ensureSize b _, le_length_ensureSize b _⟩
  · rename_i h
    have hle := b.written_le
    unfold getRemain getLen at h
    exact ⟨rfl, by omega⟩

theorem le_length_written (b : WriteBuffer) (src : List UInt8) (n : Nat) :
    b.writeLen + n
      ≤ (MemBlock.overwrite (b.grown n).serialMsg b.writeLen (src.take n)).length := by
  have h := (grown_spec b n).2
  have hfits : b.writeLen + (src.take n).length ≤ (b.grown n).serialMsg.length := by
    rw [List.length_take]
    omega
  rw [MemBlock.length_overwrite hfits]
  exact h

/-- `buffer_write(read_ptr, n)`, where `readPtr` is the memory at the pointer. -/
def bufferWrite (b : WriteBuffer) (readPtr : Option (List UInt8)) (n : Nat) :
    Except StdException WriteBuffer :=
  if n = 0 then .ok b
  else
    match readPtr with
    | none => .error (.invalidArgument "read_ptr is null")
    | some src =>
        .ok {
          serialMsg := MemBlock.overwrite (b.grown n).serialMsg b.writeLen (src.take n)
          writeLen := b.writeLen + n
          written_le := le_length_written b src n }

/-- `read_and_mv_ptr`: a scalar, or a fixed array of scalars in one copy. -/
def readAndMvPtr (b : WriteBuffer) (readPtr : Option (List UInt8)) (array : ArraySpec)
    (elemSize : Nat) : Except StdException WriteBuffer :=
  if array.isArray && (array.isUpperBound || array.arraySize == 0) then
    .error (.runtimeError "sequence/vector not supported")
  else
    let count := if array.isArray then array.arraySize else 1
    b.bufferWrite readPtr (count * elemSize)

end WriteBuffer

end RosserialServer
