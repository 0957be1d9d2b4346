import RosserialServer.Lib.Lts
import RosserialServer.Session.SerialDrive
import RosserialServer.Transport.AsyncWriteBuffer

/-!
# The node at run time (`serial_node.cpp`, `run_io_contect`)

`ReadWorld` and `WriteWorld` let the outstanding operations complete in any order. Here is
what puts them in order: `service_io_` has a queue of handlers that are ready to run, and
`run_io_contect` runs the first ones of it each time the node's timer fires. The same
thread runs the callbacks of the subscriptions, between two calls of `run_io_contect` and
never during one.

`async_read` and `async_write` are composed: the port is asked for some bytes, or given
some, and a handler of the operation itself asks again until the operation is complete.
Those handlers stand in the queue like all others and are counted like them.

The port is open and the parameters are not changed; that is in `Session/Reconfigure.lean`.
-/

namespace RosserialServer

open MemBlock

/-! ## What has been handed to ROS -/

/-- A call of `Serial_Publisher::handle`. -/
structure Handled where
  /-- The topic of the publisher. -/
  topicInfo : TopicInfo
  payload : List UInt8
  calls : List RosCall

/-- The routing tables, with the calls of `handle` that have returned. -/
structure Journal where
  routing : Tables
  handled : List Handled

namespace Journal

def new : Journal := ⟨.new, []⟩

/-- The call of `handle` that a packet leads to, if it is a data packet. -/
def entry (env : RosEnv) (tables : Tables) (topicId : UInt16) (bodyStream : RosStream) :
    List Handled :=
  match tables.callback topicId with
  | some (.handle pub) =>
      [{ topicInfo := pub.topicInfo, payload := bodyStream.head.getD []
         calls := (pub.handle env bodyStream).1 }]
  | _ => []

end Journal

/-- The routing step of `read_body`, which keeps the journal. -/
def journalled (env : RosEnv) : Dispatch Journal := fun topicId bodyStream journal =>
  match route env topicId bodyStream journal.routing with
  | .error f => .error f
  | .ok routing =>
      .ok ⟨routing, journal.handled ++ Journal.entry env journal.routing topicId bodyStream⟩

/-! ## `service_io_` -/

/-- An operation on `serial_` that is under way. -/
inductive Operation where
  /--
  A read into `mem[off, off + size)`, complete when it has got `atLeast` bytes;
  `async_read_some` is one that is complete with a single byte.
  -/
  | read (off size atLeast : Nat) (got : List UInt8)
  | write (op : WriteOp)
  deriving DecidableEq, Repr

/-- A handler that `poll_one` can run. -/
inductive ReadyHandler where
  /-- What `callSussessCallback` posted. -/
  | posted (callback : Option Handler) (off len : Nat)
  /-- The port has given the operation some bytes, or has taken some of it. -/
  | progressed (op : Operation)
  | failed (op : Operation)
  deriving DecidableEq, Repr

structure NodeWorld where
  reader : AsyncReadBuffer Handler
  writer : AsyncWriteBuffer
  session : Session Journal
  /-- The operations that wait for the port. -/
  pending : List Operation
  /-- The handlers that are ready, in the order they became so. -/
  ready : List ReadyHandler
  /-- `service_io_.stopped()`. -/
  stopped : Bool
  /-- What left a callback, and the executor with it, if anything did. -/
  escaped : Option Failure
  /-- Bytes the port has received and not handed over. -/
  arrived : List UInt8
  /-- Every byte the port has received. -/
  received : List UInt8
  /-- Every byte the port has taken. -/
  port : List UInt8
  /-- The handlers that have been run, in order. -/
  ran : List ReadyHandler
  /-- The messages the subscriptions have delivered, with what `rmw_deserialize` made of them. -/
  messages : List (SerialSubscriber × Except StdException (Option MsgObject))

/-- What goes on at the port. -/
inductive PortActivity where
  | arrive (chunk : List UInt8)
  /-- The `i`-th operation that waits, a read, gets `n` bytes. -/
  | receive (i n : Nat)
  /-- The port takes `n` bytes of the `i`-th operation that waits, a write. -/
  | take (i n : Nat)
  /-- The `i`-th operation that waits fails. -/
  | fail (i : Nat)
  deriving DecidableEq, Repr

inductive NodeEvent where
  | port (activity : PortActivity)
  /-- A message for the subscription registered under a topic id. -/
  | message (topicId : UInt16) (deserialized : Except StdException (Option MsgObject))
  /-- `run_io_contect`; `during` is what goes on at the port before each of its polls. -/
  | tick (during : List (List PortActivity))

namespace NodeWorld

/-- Start what a read buffer asks `service_io_` for, if anything. -/
def startRead (w : NodeWorld) : Option (Continuation Handler) → NodeWorld
  | none => w
  | some (.post callback off len) => { w with ready := w.ready ++ [.posted callback off len] }
  | some (.asyncRead off size atLeast) =>
      { w with pending := w.pending ++ [.read off size atLeast []] }
  | some (.asyncReadSome off size) => { w with pending := w.pending ++ [.read off size 1 []] }

/-- Start the write a locked section asks for, if any. -/
def startWrite (w : NodeWorld) (started : Option (List UInt8)) : NodeWorld :=
  { w with pending := w.pending ++ (started.map fun buffer => .write ⟨buffer, 0⟩).toList }

/-- Carry out the end of a callback. -/
def perform (w : NodeWorld) : Next Handler → NodeWorld
  | .read n callback =>
      let (reader, continuation) := w.reader.read n callback
      { w with reader := reader }.startRead continuation
  | .escape f => { w with escaped := some f }

def readCallback (w : NodeWorld) (ec : Bool) (transferBytes : Nat) : NodeWorld :=
  let (reader, continuation) := w.reader.readCallback ec transferBytes
  { w with reader := reader }.startRead continuation

def writeEcCallback (w : NodeWorld) (error : Bool) : NodeWorld :=
  let (writer, started) := w.writer.writeEcCallback error
  { w with writer := writer }.startWrite started

/-- Run a callback posted over `mem[off, off + len)`. -/
def runPosted (env : RosEnv) (w : NodeWorld) (callback : Option Handler) (off len : Nat) :
    NodeWorld :=
  match callback with
  | none => { w with escaped := some (.thrown .badFunctionCall) }
  | some k =>
      let (session, next) := handle (journalled env) k w.session
        (RosStream.ofBuffer (slice w.reader.mem off len))
      { w with session := session }.perform next

/-- Run a handler of `service_io_`. -/
def runHandler (env : RosEnv) (w : NodeWorld) : ReadyHandler → NodeWorld
  | .posted callback off len => w.runPosted env callback off len
  | .progressed (.read off size atLeast got) =>
      -- `async_read` goes on until its condition is met or its buffer is full
      if got.length < atLeast ∧ got.length < size then
        { w with pending := w.pending ++ [.read off size atLeast got] }
      else w.readCallback false got.length
  | .progressed (.write op) =>
      if op.sent < op.buffer.length then { w with pending := w.pending ++ [.write op] }
      else w.writeEcCallback false
  | .failed (.read _ _ _ _) => w.readCallback true 0
  | .failed (.write _) => w.writeEcCallback true

/-- The context stops when nothing is outstanding. -/
def settle (w : NodeWorld) : NodeWorld :=
  if w.ready = [] ∧ w.pending = [] then { w with stopped := true } else w

/-- `poll_one`, and whether it ran a handler. -/
def pollOne (env : RosEnv) (w : NodeWorld) : NodeWorld × Bool :=
  if w.stopped then (w, false)
  else
    match w.ready with
    | [] => (w.settle, false)
    | h :: ready => (({ w with ready := ready, ran := w.ran ++ [h] }.runHandler env h).settle, true)

def activityStep (w : NodeWorld) : PortActivity → Option NodeWorld
  | .arrive chunk =>
      some { w with arrived := w.arrived ++ chunk, received := w.received ++ chunk }
  | .receive i n =>
      match w.pending[i]? with
      | some (.read off size atLeast got) =>
          if 0 < n ∧ got.length + n ≤ size ∧ n ≤ w.arrived.length then
            some { w with
              reader := { w.reader with
                mem := overwrite w.reader.mem (off + got.length) (w.arrived.take n) }
              arrived := w.arrived.drop n
              pending := w.pending.eraseIdx i
              ready := w.ready ++
                [.progressed (.read off size atLeast (got ++ w.arrived.take n))] }
          else none
      | _ => none
  | .take i n =>
      match w.pending[i]? with
      | some (.write op) =>
          if 0 < n ∧ op.sent + n ≤ op.buffer.length then
            some { w with
              port := w.port ++ slice op.buffer op.sent n
              pending := w.pending.eraseIdx i
              ready := w.ready ++ [.progressed (.write { op with sent := op.sent + n })] }
          else none
      | _ => none
  | .fail i =>
      match w.pending[i]? with
      | none => none
      | some op =>
          some { w with pending := w.pending.eraseIdx i, ready := w.ready ++ [.failed op] }

/--
The loop of `run_io_contect`, with `left` more handlers to run before `poll_handle`
exceeds 50.
-/
def pollLoop (env : RosEnv) : Nat → List (List PortActivity) → NodeWorld → Option NodeWorld
  | 0, _, w => some w
  | left + 1, during, w =>
      match Lts.exec activityStep w (during.headD []) with
      | none => none
      | some w =>
          let (w, ran) := w.pollOne env
          if ran ∧ w.escaped = none then pollLoop env left during.tail w else some w

/-- `poll_handle` is compared with 50 after it has been counted up. -/
def handlerLimit : Nat := 51

def runIoContect (env : RosEnv) (during : List (List PortActivity)) (w : NodeWorld) :
    Option NodeWorld :=
  (pollLoop env handlerLimit during w).map fun w =>
    if w.escaped = none ∧ w.stopped then { w with stopped := false } else w

/-- The callback of a subscription. -/
def message (w : NodeWorld) (topicId : UInt16)
    (deserialized : Except StdException (Option MsgObject)) : Option NodeWorld :=
  match w.session.tables.routing.subscriber topicId with
  | none => none
  | some sub =>
      match sub.callback deserialized w.writer with
      | .error f => some { w with escaped := some f }
      | .ok (writer, started) =>
          some ({ w with
            writer := writer
            messages := w.messages ++ [(sub, deserialized)] }.startWrite started)

def step (env : RosEnv) (w : NodeWorld) (e : NodeEvent) : Option NodeWorld :=
  -- an exception that leaves a callback ends the process
  if w.escaped.isSome then none
  else
    match e with
    | .port activity => w.activityStep activity
    | .message topicId deserialized => w.message topicId deserialized
    | .tick during => w.runIoContect env during

/-- The node when its constructor has opened the port and called `start_read`. -/
def start : NodeWorld :=
  perform { reader := .new readerCapacity, writer := ⟨[]⟩
            session := { tables := .new, dispatched := [] }
            pending := [], ready := [], stopped := false, escaped := none
            arrived := [], received := [], port := [], ran := [], messages := [] } readAsyncHead

end NodeWorld

end RosserialServer
