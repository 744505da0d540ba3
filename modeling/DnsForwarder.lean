import DnsForwarder.Address.Endpoint
import DnsForwarder.Address.Ip
import DnsForwarder.Address.Reader
import DnsForwarder.Answer
import DnsForwarder.Cache
import DnsForwarder.Client.Adapter
import DnsForwarder.Client.Basic
import DnsForwarder.CommandLine.Invocation
import DnsForwarder.CommandLine.Outcome
import DnsForwarder.CommandLine.Words
import DnsForwarder.Config.Basic
import DnsForwarder.Config.Reader
import DnsForwarder.Config.Validation
import DnsForwarder.DomainName.Labels
import DnsForwarder.DomainName.Normal
import DnsForwarder.DomainName.Presentation
import DnsForwarder.DomainName.Reverse
import DnsForwarder.Engine.Attempt
import DnsForwarder.Engine.Basic
import DnsForwarder.Engine.Lifecycle
import DnsForwarder.Engine.Resolve
import DnsForwarder.Engine.Settings
import DnsForwarder.Error
import DnsForwarder.Main
import DnsForwarder.Memory
import DnsForwarder.Message.Basic
import DnsForwarder.Message.Cursor
import DnsForwarder.Message.Form
import DnsForwarder.Message.NameReader
import DnsForwarder.Message.Options
import DnsForwarder.Message.Reader
import DnsForwarder.Message.Response
import DnsForwarder.Message.Service
import DnsForwarder.Message.Writer
import DnsForwarder.Octets
import DnsForwarder.Question
import DnsForwarder.Reactor.Basic
import DnsForwarder.Reactor.Bridge
import DnsForwarder.Reactor.Dispatcher
import DnsForwarder.Reactor.Timers
import DnsForwarder.Record
import DnsForwarder.RecordType
import DnsForwarder.Server.Basic
import DnsForwarder.Server.Handler
import DnsForwarder.Server.Listener
import DnsForwarder.Server.Pool
import DnsForwarder.Server.Sockets
import DnsForwarder.Server.Startup
import DnsForwarder.Simulation.ClientSession
import DnsForwarder.Simulation.ClientWorld
import DnsForwarder.Simulation.Components
import DnsForwarder.Simulation.Desk
import DnsForwarder.Simulation.DispatcherSession
import DnsForwarder.Simulation.Echo
import DnsForwarder.Simulation.Household
import DnsForwarder.Simulation.ListenerSession
import DnsForwarder.Simulation.NameServers
import DnsForwarder.Simulation.Request
import DnsForwarder.Simulation.Session
import DnsForwarder.Simulation.Workshop
import DnsForwarder.Simulation.World
import DnsForwarder.Text.Blank
import DnsForwarder.Text.Numeral
import DnsForwarder.Text.Split
import DnsForwarder.Text.Utf8
import DnsForwarder.Toml.DateTime
import DnsForwarder.Toml.Document
import DnsForwarder.Toml.Number
import DnsForwarder.Toml.Quoted
import DnsForwarder.Toml.Scalar
import DnsForwarder.Toml.Value
import DnsForwarder.Transport.Datagram
import DnsForwarder.Transport.Route
import DnsForwarder.Transport.Stream
import DnsForwarder.Proofs.Cache
import DnsForwarder.Proofs.Engine.Entries
import DnsForwarder.Proofs.Engine.Treatment
import DnsForwarder.Proofs.Engine.Run
import DnsForwarder.Proofs.Engine.Attempts
import DnsForwarder.Proofs.Engine.Course
import DnsForwarder.Proofs.Engine.Life
import DnsForwarder.Proofs.Engine.Delivery
import DnsForwarder.Proofs.Engine.Contexts
import DnsForwarder.Proofs.Engine.Ledger
import DnsForwarder.Proofs.Text.Utf8
import DnsForwarder.Proofs.DomainName.Spelling
import DnsForwarder.Proofs.Message.Decoding
import DnsForwarder.Proofs.Message.Encoding
import DnsForwarder.Proofs.Message.Replies
import DnsForwarder.Proofs.Message.Names
import DnsForwarder.Proofs.Message.Pieces
import DnsForwarder.Proofs.Message.Sections
import DnsForwarder.Proofs.Message.Regular
import DnsForwarder.Proofs.Message.RoundTrip
import DnsForwarder.Proofs.Server.Replies
import DnsForwarder.Proofs.Server.Reception
import DnsForwarder.Proofs.Server.Journal
import DnsForwarder.Proofs.Reactor.Traffic
import DnsForwarder.Proofs.Client.Adapter
import DnsForwarder.Proofs.Client.Custody
import DnsForwarder.Proofs.Client.Futures
import DnsForwarder.Proofs.Message.Matching
import DnsForwarder.Proofs.Engine.Caching
import DnsForwarder.Proofs.Engine.Provenance
import DnsForwarder.Proofs.Engine.Freshness
import DnsForwarder.Proofs.Engine.Cancellation
import DnsForwarder.Proofs.Server.Relay
import DnsForwarder.Proofs.Server.Slots
import DnsForwarder.Proofs.Engine.Budget
import DnsForwarder.Proofs.Message.Extent
import DnsForwarder.Proofs.Server.Size
import DnsForwarder.Proofs.Simulation.Agenda
import DnsForwarder.Proofs.Simulation.Upstream
import DnsForwarder.Proofs.Engine.Apart
import DnsForwarder.Proofs.Simulation.Calls
import DnsForwarder.Proofs.Simulation.Share
import DnsForwarder.Proofs.Simulation.Work
import DnsForwarder.Proofs.Simulation.Showing
import DnsForwarder.Proofs.Simulation.Isolation
import DnsForwarder.Proofs.Simulation.Reach
import DnsForwarder.Proofs.Simulation.Households
import DnsForwarder.Proofs.Simulation.Order
import DnsForwarder.Proofs.Engine.Renumbering
import DnsForwarder.Proofs.Engine.Restart
import DnsForwarder.Proofs.Reactor.Workplace
import DnsForwarder.Proofs.Reactor.Errands
import DnsForwarder.Proofs.Reactor.Undisturbed
import DnsForwarder.Proofs.Server.Echo
import DnsForwarder.Proofs.Server.Aging
import DnsForwarder.Proofs.Question
import DnsForwarder.Proofs.Server.Forwarding
import DnsForwarder.Proofs.Server.Failures
import DnsForwarder.Proofs.Text.Padding
import DnsForwarder.Proofs.DomainName.ReverseReading
import DnsForwarder.Proofs.Address.Grammar
import DnsForwarder.Proofs.Address.Text
import DnsForwarder.Proofs.Reactor.Lifecycle
import DnsForwarder.Proofs.Question.Spelling
import DnsForwarder.Proofs.Cache.Access
import DnsForwarder.Proofs.Cache.Store
import DnsForwarder.Proofs.Cache.Recency
import DnsForwarder.Proofs.Engine.Views
import DnsForwarder.Proofs.DomainName.Grammar
import DnsForwarder.Proofs.Engine.Rejection
import DnsForwarder.Proofs.Engine.Turnover
import DnsForwarder.Proofs.Engine.Tally
import DnsForwarder.Proofs.Engine.Positions
import DnsForwarder.Proofs.Engine.Rotation
import DnsForwarder.Proofs.Config.Servers
import DnsForwarder.Proofs.Server.Startup
