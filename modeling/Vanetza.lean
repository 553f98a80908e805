import Vanetza.Common.RuntimeRuns
import Vanetza.Dcc.BurstBudget
import Vanetza.Dcc.FlowControlRuns
import Vanetza.Dcc.FullyMeshedStateMachine
import Vanetza.Dcc.LimericBudget
import Vanetza.Dcc.LimericRuns
import Vanetza.Facilities.PathSymmetry
import Vanetza.Geodesy.CountryDataReader
import Vanetza.Geonet.BeaconTimer
import Vanetza.Geonet.CbfDeadline
import Vanetza.Geonet.CbrAggregator
import Vanetza.Geonet.DuplicatePackets
import Vanetza.Geonet.GreedyForwarding
import Vanetza.Geonet.IndicationForms
import Vanetza.Geonet.LifetimeAccuracy
import Vanetza.Geonet.PacketBufferRuns
import Vanetza.Geonet.PassUp
import Vanetza.Geonet.PositionUpdates
import Vanetza.Geonet.RepetitionChain
import Vanetza.Geonet.SecuredParsing
import Vanetza.Geonet.SoftStateExpiry
import Vanetza.Pki.DcCommand
import Vanetza.Pki.PruneCommand
import Vanetza.Pki.TrustedRoots
import Vanetza.Security.PeerRequestTracker
import Vanetza.Security.Pqc.BuiltChains
import Vanetza.Security.Pqc.SigningSafety
import Vanetza.Security.V2.LengthDecoding
import Vanetza.Security.V2.PayloadLength
import Vanetza.Security.V3.HeaderRuns
import Vanetza.Security.V3.LocationChecker
import Vanetza.Security.V3.MessageRuns
import Vanetza.Security.V3.SignService
import Vanetza.Common.LruCache
import Vanetza.Pki.Ecies
import Vanetza.Pki.SignedBuilder
import Vanetza.Security.V2.CertificateCacheRuns
import Vanetza.Btp.PortDispatcher
import Vanetza.Security.CamSsp
