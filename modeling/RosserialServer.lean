import RosserialServer.Proof.Framing
import RosserialServer.Proof.Extraction
import RosserialServer.Proof.Resync
import RosserialServer.Proof.Liveness
import RosserialServer.Proof.WriteOrder
import RosserialServer.Proof.Containment
import RosserialServer.Proof.Publishing
import RosserialServer.Proof.Refusals
import RosserialServer.Proof.Codec
import RosserialServer.Proof.Encoder
import RosserialServer.Proof.Exactness
import RosserialServer.Proof.Subscribing
import RosserialServer.Proof.Directions
import RosserialServer.Proof.HeaderSeq
import RosserialServer.Proof.Reencoding
import RosserialServer.Proof.HeaderReencoding
import RosserialServer.Proof.Routing
import RosserialServer.Proof.Sniffing
import RosserialServer.Proof.ByteQueue
import RosserialServer.Session.Reconfigure
import RosserialServer.Proof.Reconfiguring
import RosserialServer.Lib.MethodCalls
import RosserialServer.Proof.AppendLog
import RosserialServer.Proof.WholeFrames
import RosserialServer.Protocol.StreamObject
import RosserialServer.Proof.StreamLaw
import RosserialServer.Proof.UsableAdapters
import RosserialServer.Proof.RegistrationFormat
import RosserialServer.Proof.ParameterUpdates
import RosserialServer.Proof.Streaming
import RosserialServer.Proof.ObjectLifetime
import RosserialServer.Proof.ReopenedWrites
import RosserialServer.Lib.Fifo
import RosserialServer.Session.Node
import RosserialServer.Proof.NodeSteps
import RosserialServer.Proof.NodeRefine
import RosserialServer.Proof.PollLoop
import RosserialServer.Proof.Provenance
import RosserialServer.Proof.Monitoring
import RosserialServer.Lib.Registry
import RosserialServer.Proof.Registering
import RosserialServer.Proof.Settling
import RosserialServer.Proof.DeviceProgram
import RosserialServer.Proof.Endings
import RosserialServer.Proof.DeviceValues
import RosserialServer.Proof.Relay
import RosserialServer.Proof.Schedules
