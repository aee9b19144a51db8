import SiprecServer.Media.SsrcRecovery
import SiprecServer.Media.RecordingAlignment
import SiprecServer.Sip.CombinedLegs
import SiprecServer.Sip.CallFinalized
import SiprecServer.Sip.LabelsKept
import SiprecServer.Sip.DialogCSeq
import SiprecServer.Sip.ForeignRequests
import SiprecServer.Sip.DialogReaper
import SiprecServer.Sip.PauseKept
import SiprecServer.Sip.CallRecords
import SiprecServer.Siprec.StreamParticipants
import SiprecServer.Stt.TranscriptionFilter
import SiprecServer.Sip.SdpAnswer
import SiprecServer.Media.PortPairs
import SiprecServer.Media.CombineReaders
import SiprecServer.Media.AudioRedaction
import SiprecServer.Pii.InPlace
import SiprecServer.Auth.NonceReplay
import SiprecServer.Auth.IpAccess
import SiprecServer.Siprec.Policy
import SiprecServer.Siprec.ValidationSound
import SiprecServer.Siprec.SessionRecovery
import SiprecServer.Media.G711
import SiprecServer.Media.G722
import SiprecServer.Sip.OfferAttributes
import SiprecServer.Ratelimit.SipLimiter
import SiprecServer.Media.Mute
import SiprecServer.Sip.CallbackDial
import SiprecServer.Compliance.AuditChain
import SiprecServer.Stt.TranscriptionService
import SiprecServer.Http.AnalyticsHub
import SiprecServer.Compliance.Erasure
import SiprecServer.Encryption.Rotation
import SiprecServer.Audio.RecordedAudio
import SiprecServer.Media.LinearAudio
import SiprecServer.Media.PausableReader
import SiprecServer.Sip.CrlfDatagrams
import SiprecServer.Sip.NatRewriter
import SiprecServer.Media.RiffChunks
import SiprecServer.Siprec.Normalization
import SiprecServer.Sip.SessionStore
import SiprecServer.Sip.ShardedMap
import SiprecServer.Sip.Subscriptions
import SiprecServer.Auth.DigestHeader
import SiprecServer.Pii.CardNumbers
import SiprecServer.Pii.ContextBounds
import SiprecServer.Pii.SecondRun
import SiprecServer.Messaging.AmqpPool
import SiprecServer.Media.PortStats
import SiprecServer.Alerting.AlertManager
import SiprecServer.Cluster.SplitBrain
import SiprecServer.Media.JitterHeap
import SiprecServer.Stt.TransitionSmoother
