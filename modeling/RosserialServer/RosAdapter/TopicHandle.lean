import RosserialServer.RosAdapter.RosMessageAdapter
import RosserialServer.Transport.AsyncWriteBuffer

/-!
# `Serial_Publisher` and `Serial_Subscriber` (`ros_adapter/topic_handle.hpp`)

A registered topic: the rclcpp handle and the adapter for its message type. Neither
constructor looks at what `init` returns.
-/

namespace RosserialServer

structure SerialPublisher where
  topicInfo : TopicInfo
  streamDeserialized : StreamDeserialization

namespace SerialPublisher

def new (env : RosEnv) (topicInfo : TopicInfo) : Except Failure SerialPublisher := do
  (env.createGenericPublisher topicInfo.topicName topicInfo.messageType).mapError .thrown
  let (_, d) ← StreamDeserialization.init env .new topicInfo
  return { topicInfo := topicInfo, streamDeserialized := d }

def handle (env : RosEnv) (pub : SerialPublisher) (stream : RosStream) :
    List RosCall × Except Failure Unit :=
  pub.streamDeserialized.publish env stream

end SerialPublisher

structure SerialSubscriber where
  topicInfo : TopicInfo
  streamDeserialized : StreamDeserialization

namespace SerialSubscriber

def new (env : RosEnv) (topicInfo : TopicInfo) : Except Failure SerialSubscriber := do
  let (_, d) ← StreamDeserialization.init env .new topicInfo
  (env.createGenericSubscription topicInfo.topicName topicInfo.messageType).mapError .thrown
  return { topicInfo := topicInfo, streamDeserialized := d }

/-- `callback`: the writer after it, and the write it starts, if any. -/
def callback (sub : SerialSubscriber) (deserialized : Except StdException (Option MsgObject))
    (writter : AsyncWriteBuffer) :
    Except Failure (AsyncWriteBuffer × Option (List UInt8)) := do
  let serialMsg ← (sub.streamDeserialized.subscribe deserialized).2
  (writter.writeToSerial serialMsg sub.topicInfo.topicId).mapError .thrown

end SerialSubscriber

end RosserialServer
