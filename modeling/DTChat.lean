import DTChat.ProtoRoundTrip
import DTChat.PeerMessages
import DTChat.Lib.Base64Text
import DTChat.Lib.ProtoRecord
import DTChat.WireCodec
import DTChat.WireRoundTrip
import DTChat.WireFraming
import DTChat.StrayBytes
import DTChat.WireCuts
import DTChat.ProtoWeight
import DTChat.Transports
import DTChat.ChatModel
import DTChat.Lib.Runs
import DTChat.ListenerLoop
import DTChat.MessageOrder
import DTChat.MessagePrompt
import DTChat.AckMarks
import DTChat.NodeLetters
import DTChat.Lib.AckLedger
import DTChat.MeshModel
import DTChat.MeshLetters
import DTChat.MeshAddressees
import DTChat.MeshRun
import DTChat.NodeRun
import DTChat.StartupAcks
import DTChat.ArrivalOrder
import DTChat.Lib.StableSort
import DTChat.ViewOrder
import DTChat.FastInsert
import DTChat.AckChoice
import DTChat.AckExact
import DTChat.AckReplies
import DTChat.EndpointAddresses
import DTChat.IonNodes
import DTChat.TimelineRows
import DTChat.Aap2Bridge
import DTChat.BridgeInbound
import DTChat.BridgeSessions
import DTChat.AduBase64
import DTChat.Lib.LockedThreads
import DTChat.BridgeRoutes
import DTChat.BridgeRelay
import DTChat.BpStack
import DTChat.BpBinding
import DTChat.BpOrder
import DTChat.BpPayload
import DTChat.BpProgress
import DTChat.BpSending
import DTChat.FramePaths
import DTChat.MeshTraffic
import DTChat.ViewSwitch
import DTChat.BridgeDelivery
import DTChat.Lib.Grouping
import DTChat.TimelineSeries
import DTChat.FrameLengths
import DTChat.Lib.Growth
import DTChat.MessageList
import DTChat.MeshCounts
