import Mathlib.Logic.Function.Basic
import RosserialServer.RosAdapter.TopicHandle
import RosserialServer.Session.ReadPhases

/-!
# The routing tables of `SerialDrive` (`session/serial_session.hpp`)

`callback_`, `publisher_` and `subscriber_`, what a registration packet does to them,
and the routing step of `read_body` as a `Dispatch`.
-/

namespace RosserialServer

/-- What a `std::function` in `callback_` is bound to. -/
inductive Callback where
  | createPublisher
  | createSubscriber
  | handle (pub : SerialPublisher)

structure Tables where
  callback : UInt16 → Option Callback
  publisher : UInt16 → Option SerialPublisher
  subscriber : UInt16 → Option SerialSubscriber
  /-- The calls made for data packets so far. -/
  rosCalls : List RosCall

namespace Tables

/-- The tables as `start_read` leaves them on a new `SerialDrive`. -/
def new : Tables where
  callback := Function.update (Function.update (fun _ => none)
    TopicInfo.idPublisher (some .createPublisher)) TopicInfo.idSubscriber (some .createSubscriber)
  publisher := fun _ => none
  subscriber := fun _ => none
  rosCalls := []

end Tables

def createPublisher (env : RosEnv) (tables : Tables) (msg : RosStream) : Except Failure Tables :=
  match getTopicInfo {} msg with
  | .error e => .error (.thrown e)
  | .ok (false, _, _) => .ok tables
  | .ok (true, topicInfo, _) =>
      match SerialPublisher.new env topicInfo with
      | .error f => .error f
      | .ok pub => .ok { tables with
          publisher := Function.update tables.publisher topicInfo.topicId (some pub)
          callback := Function.update tables.callback topicInfo.topicId (some (.handle pub)) }

def createSubscriber (env : RosEnv) (tables : Tables) (msg : RosStream) : Except Failure Tables :=
  match getTopicInfo {} msg with
  | .error e => .error (.thrown e)
  | .ok (false, _, _) => .ok tables
  | .ok (true, topicInfo, _) =>
      match SerialSubscriber.new env topicInfo with
      | .error f => .error f
      | .ok sub => .ok { tables with
          subscriber := Function.update tables.subscriber topicInfo.topicId (some sub) }

/-- The routing step of `read_body`. -/
def route (env : RosEnv) : Dispatch Tables := fun topicId bodyStream tables =>
  match tables.callback topicId with
  | none => .ok tables
  | some .createPublisher => createPublisher env tables bodyStream
  | some .createSubscriber => createSubscriber env tables bodyStream
  | some (.handle pub) =>
      match pub.handle env bodyStream with
      | (_, .error f) => .error f
      | (calls, .ok ()) => .ok { tables with rosCalls := tables.rosCalls ++ calls }

end RosserialServer
