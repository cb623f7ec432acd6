import LiveCDN.Library.IncrementalReader
import LiveCDN.Library.GuardedRun
import LiveCDN.Agent.FlvDemuxer
import LiveCDN.Agent.FrameProtocol
import LiveCDN.Protocol.Compatibility
import LiveCDN.Agent.CascadeSelector
import LiveCDN.Agent.UpstreamPolicy
import LiveCDN.Agent.ViewerConnection
import LiveCDN.Agent.Playlist
import LiveCDN.Agent.StartupJoin
import LiveCDN.Controller.Dispatch
import LiveCDN.Controller.NodeAdmission
import LiveCDN.Controller.Persistence
import LiveCDN.Controller.SerialOrder
import LiveCDN.System.Cascade
import LiveCDN.Agent.BurstDecoding
import LiveCDN.Agent.ClientAccounting
import LiveCDN.Agent.RelayLifecycle
import LiveCDN.Agent.EncryptedJoin
import LiveCDN.Controller.QualityReports
import LiveCDN.Controller.Authorization
import LiveCDN.Controller.AuditLog
import LiveCDN.Agent.HttpFlvRequest
import LiveCDN.Agent.ConnectionPeek
import LiveCDN.Agent.StreamRelay
import LiveCDN.Agent.GoRelay
import LiveCDN.Agent.SwitchRule
import LiveCDN.System.Capacity
import LiveCDN.Controller.TierHistory
import LiveCDN.Controller.Ejection
import LiveCDN.Controller.EjectionBackoff
import LiveCDN.Controller.OutlierFilter
import LiveCDN.Controller.EffectiveWeight
import LiveCDN.Controller.TwoChoices
import LiveCDN.Controller.ScoreBounds
import LiveCDN.Controller.Stickiness
import LiveCDN.Controller.ComplaintCooldown
import LiveCDN.Controller.LatencyEvidence
import LiveCDN.Controller.SessionEviction
import LiveCDN.Controller.DomainPool
import LiveCDN.Controller.RotationFrame
import LiveCDN.Protocol.Reencoding
import LiveCDN.Protocol.FrameReading
import LiveCDN.Library.BlockChaining
import LiveCDN.Protocol.ChunkCipher
import LiveCDN.Library.ImplicitCounter
import LiveCDN.System.ChunkCorruption
import LiveCDN.Controller.AuditQuery
import LiveCDN.Controller.ConsistentHash
import LiveCDN.Agent.FlvRecords
import LiveCDN.Agent.BandwidthShaping
import LiveCDN.Agent.FlvReconnect
import LiveCDN.Agent.PacketDrop
import LiveCDN.Agent.PlaylistRendering
import LiveCDN.Agent.PlaylistAgreement
import LiveCDN.Agent.SelfUpdate
import LiveCDN.Controller.KeyReplay
import LiveCDN.Controller.PublishedUrls
import LiveCDN.Agent.GoRelayTable
import LiveCDN.Controller.SlicePanics
import LiveCDN.Controller.SliceSafety
import LiveCDN.Controller.WeightedSelection
import LiveCDN.Controller.NodeLease
import LiveCDN.Controller.SessionLease
import LiveCDN.System.AgentRounds
import LiveCDN.System.Migration
import LiveCDN.Controller.StreamLease
import LiveCDN.Player.MediaBuffer
import LiveCDN.Player.ChunkDecryption
import LiveCDN.Player.FrameReading
import LiveCDN.Agent.GoClientTable
import LiveCDN.Controller.BinaryDownload
import LiveCDN.Library.Base64
import LiveCDN.Library.Slot
import LiveCDN.Player.PlaybackSession
import LiveCDN.System.KeyTransport
