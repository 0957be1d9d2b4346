import Mathlib
import RosserialServer.Lib.MemBlock

/-!
# `parse_rosserial_frames` (`rosserial_stream_sniffer.py`)

The sniffer reads the same frames as the session, from a capture and in Python: its
numbers are unbounded and cut down with masks, and its buffer is searched by index.
-/

namespace RosserialServer

open MemBlock

/-- `calc_len_checksum`. -/
def calcLenChecksum (lengthL lengthH : Nat) : Nat := (0xFF - ((lengthL + lengthH) &&& 0xFF)) &&& 0xFF

/-- `calc_msg_checksum`. -/
def calcMsgChecksum (topicIdL topicIdH : Nat) (payload : List UInt8) : Nat :=
  let total := (topicIdL + topicIdH + (payload.map UInt8.toNat).sum) &&& 0xFF
  (0xFF - total) &&& 0xFF

/-- An entry of the list `frames`. -/
structure SnifferFrame where
  offset : Nat
  frame : List UInt8
  payloadLen : Nat
  topicId : Nat
  lenChecksum : Nat
  expectedLenChecksum : Nat
  lenChecksumOk : Bool
  msgChecksum : Nat
  expectedMsgChecksum : Nat
  msgChecksumOk : Bool
  deriving DecidableEq, Repr

/-- `buffer[i]`, at an index inside the buffer. -/
def byteAt (buffer : List UInt8) (i : Nat) : Nat := (buffer.getD i 0).toNat

/-- The entry for the frame at `i`, which is complete. -/
def frameAt (buffer : List UInt8) (i payloadLen : Nat) : SnifferFrame :=
  let lengthL := byteAt buffer (i + 2)
  let lengthH := byteAt buffer (i + 3)
  let frame := slice buffer i (8 + payloadLen)
  let lenChecksum := byteAt frame 4
  let topicIdL := byteAt frame 5
  let topicIdH := byteAt frame 6
  let payload := slice frame 7 payloadLen
  let msgChecksum := byteAt frame (frame.length - 1)
  let expectedLenChecksum := calcLenChecksum lengthL lengthH
  let expectedMsgChecksum := calcMsgChecksum topicIdL topicIdH payload
  { offset := i
    frame := frame
    payloadLen := payloadLen
    topicId := topicIdL ||| (topicIdH <<< 8)
    lenChecksum := lenChecksum
    expectedLenChecksum := expectedLenChecksum
    lenChecksumOk := lenChecksum == expectedLenChecksum
    msgChecksum := msgChecksum
    expectedMsgChecksum := expectedMsgChecksum
    msgChecksumOk := msgChecksum == expectedMsgChecksum }

/-- The loop, from index `i` on: the frames it still appends, and where it stops. -/
def parseFrom (buffer : List UInt8) (i : Nat) : List SnifferFrame × Nat :=
  if h : i + 8 ≤ buffer.length then
    if byteAt buffer i = 0xFF ∧ byteAt buffer (i + 1) = 0xFE then
      let payloadLen := byteAt buffer (i + 2) ||| (byteAt buffer (i + 3) <<< 8)
      let totalLen := 8 + payloadLen
      -- incomplete, until more arrives
      if buffer.length < i + totalLen then ([], i)
      else
        let (frames, consumed) := parseFrom buffer (i + totalLen)
        (frameAt buffer i payloadLen :: frames, consumed)
    else parseFrom buffer (i + 1)
  else ([], i)
termination_by buffer.length - i

/-- `parse_rosserial_frames`: the frames, and the number of bytes consumed. -/
def parseRosserialFrames (buffer : List UInt8) : List SnifferFrame × Nat := parseFrom buffer 0

end RosserialServer
