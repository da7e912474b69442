import Libjingle.Base.FifoQueue
import Libjingle.PseudoTcp.Assertions
import Libjingle.PseudoTcp.Translation
import Libjingle.PseudoTcp.Network
import Libjingle.P2p.Authentication
import Libjingle.P2p.RelayRuns
import Libjingle.Media.RtxAssociation
import Libjingle.Media.NegotiatedCodecs
import Libjingle.Media.StreamAllocation
import Libjingle.Media.Renegotiation
import Libjingle.Webrtc.DescriptionAtomicity
import Libjingle.Webrtc.IceRestart
import Libjingle.Webrtc.RemoteTracks
import Libjingle.Webrtc.DataChannelRuns
import Libjingle.Base.AsyncTcpSocket
import Libjingle.Base.MessageDelivery
import Libjingle.Base.HttpChunked
import Libjingle.Base.NetworkChanges
import Libjingle.P2p.DtlsMirror
import Libjingle.P2p.RequestOutcomes
import Libjingle.P2p.CandidatesAnnounced
import Libjingle.PseudoTcp.FlowControl
import Libjingle.PseudoTcp.PacketReads
import Libjingle.PseudoTcp.WindowScale
import Libjingle.PseudoTcp.ClockAgreement
import Libjingle.P2p.PairPriority
import Libjingle.Stun.ValidatorReads
import Libjingle.P2p.SwitchHysteresis
import Libjingle.P2p.PingClock
import Libjingle.P2p.ConnectionDeletion
import Libjingle.P2p.ChannelBindings
import Libjingle.P2p.AllocationMap
import Libjingle.Media.SrtpStat
import Libjingle.Sdp.CodecLines
import Libjingle.Sdp.CandidateNumbers
import Libjingle.Sdp.CandidateText
import Libjingle.Sdp.RejectedSections
import Libjingle.Sdp.MessageAccesses
import Libjingle.Base.DelayedOrder
import Libjingle.Base.SocketAddressText
import Libjingle.Base.SocksProxy
import Libjingle.Base.HttpAttributes
import Libjingle.Base.ByteBufferRuns
import Libjingle.Base.HttpLineMemory
import Libjingle.Base.HexStrings
import Libjingle.Base.Base64Codec
import Libjingle.Media.RtpDumpFiles
import Libjingle.Base.IpPrefixes
import Libjingle.Base.RateTracker
import Libjingle.Base.StreamFlow
import Libjingle.Base.TimeComparisons
import Libjingle.Media.FrameValidation
import Libjingle.Media.ViewRequests
import Libjingle.Media.CurrentSpeaker
import Libjingle.P2p.RememberedCandidates
import Libjingle.P2p.SequenceLives
import Libjingle.Media.RtpDataPackets
