import RosserialServer.Lib.Lts
import RosserialServer.Transport.AsyncReadBuffer

/-!
# The reading side at run time

A `ReadWorld` is an `AsyncReadBuffer` with the `io_context` that runs its callbacks
and the port that fills it. Bytes arrive on the port in chunks, reads complete with
any number of bytes the completion condition allows, and posted callbacks run; the
events may come in any order.

The user of the buffer is a parameter: `react` is what each callback does to the
user's state and what it asks for next. `SerialDrive` is one such user.
-/

namespace RosserialServer

/-- How a callback ends: with its one `async_reader_->read`, or by not returning. -/
inductive Next (κ : Type) where
  | read (requestedBytes : Nat) (callback : κ)
  | escape (f : Failure)
  deriving DecidableEq, Repr

/-- What the callbacks bound to an `AsyncReadBuffer` do. -/
abbrev Reaction (κ ρ : Type) := κ → ρ → RosStream → ρ × Next κ

structure ReadWorld (κ ρ : Type) where
  reader : AsyncReadBuffer κ
  /-- What is outstanding in `service_io_`. -/
  serviceIo : List (Continuation κ)
  user : ρ
  /-- What left a callback and the executor with it, if anything did. -/
  escaped : Option Failure
  /-- Bytes the port has received and not handed over. -/
  arrived : List UInt8
  /-- Chunks that will still arrive. -/
  wire : List (List UInt8)
  deriving DecidableEq

inductive PortEvent where
  /-- The next chunk becomes available on the port. -/
  | arrive
  /-- The `i`-th outstanding operation, a port read, completes with `n` bytes. -/
  | transfer (i n : Nat)
  /-- The `i`-th outstanding operation, a port read, fails. -/
  | fail (i : Nat)
  /-- The `i`-th outstanding operation, a posted callback, is run. -/
  | run (i : Nat)
  deriving DecidableEq, Repr

namespace PortEvent

def isFail : PortEvent → Bool
  | fail _ => true
  | _ => false

end PortEvent

namespace ReadWorld

variable {κ ρ : Type}

/-- Carry out the end of a callback. -/
def perform (w : ReadWorld κ ρ) : Next κ → ReadWorld κ ρ
  | .read n callback =>
      let (reader, continuation) := w.reader.read n callback
      { w with reader := reader, serviceIo := w.serviceIo ++ continuation.toList }
  | .escape f => { w with escaped := some f }

/-- Take the `i`-th outstanding operation out of the `io_context`. -/
def take (w : ReadWorld κ ρ) (i : Nat) : ReadWorld κ ρ :=
  { w with serviceIo := w.serviceIo.eraseIdx i }

/-- A port read into offset `off` completes with `n` bytes. -/
def complete (w : ReadWorld κ ρ) (off n : Nat) : ReadWorld κ ρ :=
  let filled := { w.reader with mem := MemBlock.overwrite w.reader.mem off (w.arrived.take n) }
  let (reader, continuation) := filled.readCallback false n
  { w with
    reader := reader
    serviceIo := w.serviceIo ++ continuation.toList
    arrived := w.arrived.drop n }

/-- A port read fails. -/
def failRead (w : ReadWorld κ ρ) : ReadWorld κ ρ :=
  let (reader, continuation) := w.reader.readCallback true 0
  { w with reader := reader, serviceIo := w.serviceIo ++ continuation.toList }

/-- Run a callback posted over `mem[off, off + len)`; it sees what `mem_` holds now. -/
def runPosted (react : Reaction κ ρ) (w : ReadWorld κ ρ) (callback : Option κ)
    (off len : Nat) : ReadWorld κ ρ :=
  match callback with
  | none => { w with escaped := some (.thrown .badFunctionCall) }
  | some k =>
      let (user, next) := react k w.user (RosStream.ofBuffer (MemBlock.slice w.reader.mem off len))
      { w with user := user }.perform next

def step (react : Reaction κ ρ) (w : ReadWorld κ ρ) (e : PortEvent) : Option (ReadWorld κ ρ) :=
  -- an exception that leaves `poll_one` ends the process
  if w.escaped.isSome then none
  else
    match e with
    | .arrive =>
        match w.wire with
        | [] => none
        | chunk :: wire => some { w with arrived := w.arrived ++ chunk, wire := wire }
    | .transfer i n =>
        match w.serviceIo[i]? with
        | some (.asyncRead off size atLeast) =>
            if atLeast ≤ n ∧ n ≤ size ∧ n ≤ w.arrived.length then
              some ((w.take i).complete off n)
            else none
        | some (.asyncReadSome off size) =>
            if 1 ≤ n ∧ n ≤ size ∧ n ≤ w.arrived.length then some ((w.take i).complete off n)
            else none
        | _ => none
    | .fail i =>
        match w.serviceIo[i]? with
        | some (.asyncRead _ _ _) | some (.asyncReadSome _ _) => some (w.take i).failRead
        | _ => none
    | .run i =>
        match w.serviceIo[i]? with
        | some (.post callback off len) => some ((w.take i).runPosted react callback off len)
        | _ => none

/-- The steps of a run in which the port reports no error. -/
def quietStep (react : Reaction κ ρ) (w : ReadWorld κ ρ) (e : PortEvent) :
    Option (ReadWorld κ ρ) :=
  if e.isFail then none else w.step react e

/-- A new buffer of the given capacity, and the first request made on it. -/
def start (capacity : Nat) (user : ρ) (first : Next κ) (wire : List (List UInt8)) :
    ReadWorld κ ρ :=
  perform { reader := .new capacity, serviceIo := [], user := user, escaped := none
            arrived := [], wire := wire } first

end ReadWorld

end RosserialServer
