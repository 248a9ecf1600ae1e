import Fluvora.Domain.Room
import Fluvora.Domain.Invariants
import Fluvora.Domain.Restore
import Fluvora.ApiServer.Persistence
import Fluvora.ApiServer.Restart
import Fluvora.DataChannel.Association
import Fluvora.DataChannel.Sending
import Fluvora.DataChannel.Receiving
import Fluvora.DataChannel.Reachable
import Fluvora.DataChannel.SendWindow
import Fluvora.DataChannel.Reordering
import Fluvora.DataChannel.Rejection
import Fluvora.DataChannel.Acceptance
import Fluvora.DataChannel.ReceiveLog
import Fluvora.DataChannel.Delivery
import Fluvora.DataChannel.SendNumbering
import Fluvora.DataChannel.StreamOrder
import Fluvora.Rtp.Packet
import Fluvora.Rtcp.Packet
import Fluvora.Srtp.Context
import Fluvora.Srtp.Outbound
import Fluvora.Srtp.Keystream
import Fluvora.Rtp.Header
import Fluvora.Srtp.EndToEnd
import Fluvora.MediaCodec.Payload
import Fluvora.Sfu.DownTrack
import Fluvora.Sfu.Room
import Fluvora.Sfu.Indices
import Fluvora.Sfu.Continuity
import Fluvora.Sfu.Isolation
import Fluvora.DataChannel.Bounds
import Fluvora.DataChannel.EventView
import Fluvora.DataChannel.Encoding
import Fluvora.DataChannel.Resets
import Fluvora.DataChannel.Handshake
import Fluvora.DataChannel.Closing
import Fluvora.Lib.Expiry
import Fluvora.Net.Address
import Fluvora.Turn.Allocation
import Fluvora.Turn.Authorisation
import Fluvora.TurnServer.Server
import Fluvora.TurnServer.Quota
import Fluvora.TurnServer.Relay
import Fluvora.Rtcp.Encoding
import Fluvora.Rtp.RoundTrip
import Fluvora.Rtcp.TransportFeedback
import Fluvora.Rtcp.RoundTrip
import Fluvora.Net.Codec
import Fluvora.Stun.Message
import Fluvora.Protocol.Envelope
import Fluvora.Domain.Deduplication
import Fluvora.Ice.Agent
import Fluvora.Net.Datagram
import Fluvora.ApiServer.RoomSnapshots
import Fluvora.DataChannel.RoundTrip
import Fluvora.Ice.Nomination
import Fluvora.Lib.Identifiers
import Fluvora.MediaGateway.Metadata
import Fluvora.MediaNode.Concurrency
import Fluvora.MediaNode.RoomMaps
import Fluvora.MediaNode.Routing
import Fluvora.MediaNode.SfuConsistency
import Fluvora.MediaWorker.AssignmentState
import Fluvora.Services.Fallback
import Fluvora.Sfu.Feedback
import Fluvora.ApiServer.RoomCommands
import Fluvora.ApiServer.SignalLog
import Fluvora.ControlStore.Leases
import Fluvora.ControlStore.Placements
import Fluvora.Lib.Calls
import Fluvora.MediaWorker.Handout
import Fluvora.MediaWorker.Replacement
import Fluvora.ApiServer.Revocations
import Fluvora.MediaPipeline.Asset
import Fluvora.MediaPipeline.Lifecycle
import Fluvora.Lib.Codecs
import Fluvora.MediaStore.Objects
import Fluvora.MediaStore.Publication
import Fluvora.MediaGateway.Assets
import Fluvora.MediaGateway.Uploads
import Fluvora.MediaGateway.VodJobs
import Fluvora.MediaGateway.Completion
import Fluvora.ControlStore.Outbox
import Fluvora.EventDispatcher.Dispatch
import Fluvora.MediaStore.Synchronisation
import Fluvora.MediaGateway.AssetSections
import Fluvora.MediaGateway.Consistency
import Fluvora.MediaGateway.LiveDeletion
import Fluvora.DataChannel.Checksum
import Fluvora.DataChannel.Acknowledgement
import Fluvora.DataChannel.ForwardTsn
import Fluvora.Lib.Hex
import Fluvora.WebSdk.RealtimeEnvelope
import Fluvora.ApiServer.SideEffects
import Fluvora.CongestionControl.Estimator
import Fluvora.CongestionControl.LayerSelector
import Fluvora.Ice.Refusals
import Fluvora.Lib.Frames
import Fluvora.Lib.Lines
import Fluvora.MediaPipeline.LiveWindow
import Fluvora.Rtp.Extensions
import Fluvora.Sfu.KeyframeRequests
import Fluvora.Turn.ChannelData
import Fluvora.TurnServer.Bandwidth
import Fluvora.TurnServer.Framing
import Fluvora.TurnServer.RelayPorts
import Fluvora.ApiServer.GiftReceipts
import Fluvora.Lib.Words
import Fluvora.Rtp.Sequence
import Fluvora.Sdp.Answer
import Fluvora.Sdp.Correspondence
import Fluvora.Srtp.Window
import Fluvora.Auth.Tokens
import Fluvora.Lib.Scans
import Fluvora.CongestionControl.Overflow
import Fluvora.MediaCodec.Descriptors
import Fluvora.MediaCodec.Inspection
import Fluvora.TranscodeBridge.Sharing
import Fluvora.TranscodeBridge.Negotiation
import Fluvora.ApiServer.TranscodeResources
import Fluvora.ApiServer.TranscodeSharing
import Fluvora.ApiServer.IceServers
import Fluvora.ApiServer.SessionAgreement
import Fluvora.ApiServer.EventDelivery
