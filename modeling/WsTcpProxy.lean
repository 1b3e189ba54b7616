import WsTcpProxy.Library.Runs
import WsTcpProxy.Library.Table
import WsTcpProxy.Library.TimedQueue
import WsTcpProxy.Addr
import WsTcpProxy.Limits
import WsTcpProxy.LimitSystem
import WsTcpProxy.ReferenceLedger
import WsTcpProxy.Proofs.LimiterRows
import WsTcpProxy.Proofs.LeaseLedger
import WsTcpProxy.Proofs.WindowHistory
import WsTcpProxy.Proofs.SlidingWindows
import WsTcpProxy.Proofs.ReferenceRefinement
import WsTcpProxy.AddrText
import WsTcpProxy.Dest
import WsTcpProxy.InetAton
import WsTcpProxy.Proofs.TextLemmas
import WsTcpProxy.Proofs.AddrGrammar
import WsTcpProxy.Proofs.NumericHosts
import WsTcpProxy.Proto
import WsTcpProxy.Library.Feeding
import WsTcpProxy.Metrics
import WsTcpProxy.Probe
import WsTcpProxy.Proofs.TlsRecords
import WsTcpProxy.Proofs.TlsFragmentation
import WsTcpProxy.Proofs.GreetingSegmentation
import WsTcpProxy.Config
import WsTcpProxy.Connection
import WsTcpProxy.Proofs.SessionSteps
import WsTcpProxy.Proofs.ByteStreams
import WsTcpProxy.Proofs.ProbeGate
import WsTcpProxy.Proofs.SessionBytes
import WsTcpProxy.Dial
import WsTcpProxy.Headers
import WsTcpProxy.Proofs.DialSafety
import WsTcpProxy.HandlerOrder
import WsTcpProxy.Library.BitPrefix
import WsTcpProxy.Library.CountedFields
import WsTcpProxy.Proofs.AddressClasses
import WsTcpProxy.Proofs.CidrMembership
import WsTcpProxy.Proofs.ClientHelloGrammar
import WsTcpProxy.Proofs.DestKeys
import WsTcpProxy.Proofs.ForeignNames
import WsTcpProxy.Proofs.ForwardedClient
import WsTcpProxy.Proofs.LimitKeys
import WsTcpProxy.Proofs.SessionLifetime
import WsTcpProxy.Proofs.TrackedPrefixes
import WsTcpProxy.Proofs.RequestOrder
import WsTcpProxy.Library.CursorLoop
import WsTcpProxy.Proofs.AuthTokens
import WsTcpProxy.Proofs.HostAllowlist
import WsTcpProxy.Proofs.InetAtonForms
import WsTcpProxy.Proofs.ParserSafety
import WsTcpProxy.Library.Population
import WsTcpProxy.Proxy
import WsTcpProxy.Proofs.ProxySteps
import WsTcpProxy.Proofs.ProxyRefinement
import WsTcpProxy.Proofs.ProxyResources
import WsTcpProxy.Proofs.ProxyTraffic
import WsTcpProxy.Startup
import WsTcpProxy.Proofs.StartupSafety
import WsTcpProxy.Proofs.PublicDeployment
import WsTcpProxy.Proofs.AddrDisplay
import WsTcpProxy.Proofs.DestSpellings
import WsTcpProxy.Proofs.RemoteText
import WsTcpProxy.Proofs.PrefixIsolation
import WsTcpProxy.Proofs.LimiterRecovery
import WsTcpProxy.Proofs.Refusals
import WsTcpProxy.Proofs.HandlerHistories
import WsTcpProxy.ClientHello
import WsTcpProxy.Proofs.ClientHelloRoundtrip
import WsTcpProxy.Proofs.SessionAvailability
import WsTcpProxy.Proofs.TokenScope
import WsTcpProxy.Proofs.ClientMessages
import WsTcpProxy.Proofs.BufferBounds
import WsTcpProxy.Proofs.WindDown
