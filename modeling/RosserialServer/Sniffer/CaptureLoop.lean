import RosserialServer.Sniffer.ParseFrames

/-!
# The loop of the sniffer (`main`, `rosserial_stream_sniffer.py`)

What `os.read` returns is a list of chunks, of which an empty one means that there is
nothing to read yet.
-/

namespace RosserialServer

/-- The options that decide what the loop does. -/
structure SnifferArgs where
  frame : Bool
  frameHex : Bool
  maxBytes : Int
  deriving DecidableEq, Repr

structure Capture where
  totalBytes : Nat
  frameBuf : List UInt8
  /-- What has been written to `fout`. -/
  out : List UInt8
  /-- The frames printed. -/
  frames : List SnifferFrame
  deriving DecidableEq, Repr

namespace Capture

def start : Capture := { totalBytes := 0, frameBuf := [], out := [], frames := [] }

/-- One turn of the loop, with a chunk that is not empty. -/
def takeChunk (args : SnifferArgs) (c : Capture) (chunk : List UInt8) : Capture :=
  let c := { c with totalBytes := c.totalBytes + chunk.length, out := c.out ++ chunk }
  if args.frame || args.frameHex then
    let frameBuf := c.frameBuf ++ chunk
    let (frames, consumed) := parseRosserialFrames frameBuf
    { c with
      frameBuf := if consumed > 0 then frameBuf.drop consumed else frameBuf
      frames := c.frames ++ frames }
  else c

def loop (args : SnifferArgs) (c : Capture) : List (List UInt8) → Capture
  | [] => c
  | chunk :: chunks =>
      if chunk = [] then c.loop args chunks
      else
        let c := c.takeChunk args chunk
        if args.maxBytes > 0 ∧ c.totalBytes ≥ args.maxBytes then c else c.loop args chunks

end Capture

end RosserialServer
