import ScrapeDiscovery.Agent.Api
import ScrapeDiscovery.Agent.Basic
import ScrapeDiscovery.Agent.Environment
import ScrapeDiscovery.Agent.Measures
import ScrapeDiscovery.Agent.Startup
import ScrapeDiscovery.Client.Address
import ScrapeDiscovery.Client.Arguments
import ScrapeDiscovery.Client.Command
import ScrapeDiscovery.Client.Exchange
import ScrapeDiscovery.Client.Host
import ScrapeDiscovery.Client.Style
import ScrapeDiscovery.Client.View
import ScrapeDiscovery.Cluster.Access
import ScrapeDiscovery.Cluster.Object
import ScrapeDiscovery.Cluster.SourceWatch
import ScrapeDiscovery.Cluster.Watching
import ScrapeDiscovery.Datum.Basic
import ScrapeDiscovery.Datum.OfJson
import ScrapeDiscovery.Datum.OfYaml
import ScrapeDiscovery.Decimal.Double
import ScrapeDiscovery.Decimal.Layout
import ScrapeDiscovery.Decimal.Numeral
import ScrapeDiscovery.Decimal.Shortest
import ScrapeDiscovery.Discoverer.Basic
import ScrapeDiscovery.Discoverer.Install
import ScrapeDiscovery.Discoverer.Routing
import ScrapeDiscovery.Duration.Basic
import ScrapeDiscovery.Duration.Parser
import ScrapeDiscovery.Duration.Printer
import ScrapeDiscovery.Election.Elector
import ScrapeDiscovery.Election.Lease
import ScrapeDiscovery.Error
import ScrapeDiscovery.Filter
import ScrapeDiscovery.Glob
import ScrapeDiscovery.Health
import ScrapeDiscovery.Json.Basic
import ScrapeDiscovery.Json.Number
import ScrapeDiscovery.Json.Parser
import ScrapeDiscovery.Json.Printer
import ScrapeDiscovery.KeyMap
import ScrapeDiscovery.Leadership
import ScrapeDiscovery.LogEvent
import ScrapeDiscovery.LogFilter
import ScrapeDiscovery.Main
import ScrapeDiscovery.Manager.Basic
import ScrapeDiscovery.Manager.Tasks
import ScrapeDiscovery.Proofs.Agent.Namespaces
import ScrapeDiscovery.Proofs.Agent.Values
import ScrapeDiscovery.Proofs.Agent.Whereabouts
import ScrapeDiscovery.Proofs.Client.Answers
import ScrapeDiscovery.Proofs.Client.Endpoints
import ScrapeDiscovery.Proofs.Client.Hosts
import ScrapeDiscovery.Proofs.Cluster.Knowledge
import ScrapeDiscovery.Proofs.Cluster.Objects
import ScrapeDiscovery.Proofs.Datum.Records
import ScrapeDiscovery.Proofs.Discoverer.Accounting
import ScrapeDiscovery.Proofs.Discoverer.Applied
import ScrapeDiscovery.Proofs.Discoverer.Asking
import ScrapeDiscovery.Proofs.Discoverer.Calls
import ScrapeDiscovery.Proofs.Discoverer.Claims
import ScrapeDiscovery.Proofs.Discoverer.ClusterTargets
import ScrapeDiscovery.Proofs.Discoverer.Commuting
import ScrapeDiscovery.Proofs.Discoverer.Dispatch
import ScrapeDiscovery.Proofs.Discoverer.Entries
import ScrapeDiscovery.Proofs.Discoverer.Exclusion
import ScrapeDiscovery.Proofs.Discoverer.Handover
import ScrapeDiscovery.Proofs.Discoverer.Holding
import ScrapeDiscovery.Proofs.Discoverer.Idempotence
import ScrapeDiscovery.Proofs.Discoverer.Invariants
import ScrapeDiscovery.Proofs.Discoverer.Lasting
import ScrapeDiscovery.Proofs.Discoverer.Ledger
import ScrapeDiscovery.Proofs.Discoverer.Metadata
import ScrapeDiscovery.Proofs.Discoverer.Ownership
import ScrapeDiscovery.Proofs.Discoverer.Phases
import ScrapeDiscovery.Proofs.Discoverer.Precedence
import ScrapeDiscovery.Proofs.Discoverer.Providers
import ScrapeDiscovery.Proofs.Discoverer.Reapplication
import ScrapeDiscovery.Proofs.Discoverer.Reconciliation
import ScrapeDiscovery.Proofs.Discoverer.Refusal
import ScrapeDiscovery.Proofs.Discoverer.Resting
import ScrapeDiscovery.Proofs.Discoverer.Runs
import ScrapeDiscovery.Proofs.Discoverer.Separation
import ScrapeDiscovery.Proofs.Discoverer.Shelves
import ScrapeDiscovery.Proofs.Discoverer.Sources
import ScrapeDiscovery.Proofs.Discoverer.Stocking
import ScrapeDiscovery.Proofs.Duration.Roundtrip
import ScrapeDiscovery.Proofs.Election.Contest
import ScrapeDiscovery.Proofs.Election.Custody
import ScrapeDiscovery.Proofs.Election.Outcomes
import ScrapeDiscovery.Proofs.Election.Overlap
import ScrapeDiscovery.Proofs.Election.Rivalry
import ScrapeDiscovery.Proofs.Election.Tenure
import ScrapeDiscovery.Proofs.Election.Transitions
import ScrapeDiscovery.Proofs.Json.Roundtrip
import ScrapeDiscovery.Proofs.Json.Values
import ScrapeDiscovery.Proofs.Manager.Driving
import ScrapeDiscovery.Proofs.Manager.Following
import ScrapeDiscovery.Proofs.Manager.Footing
import ScrapeDiscovery.Proofs.Manager.Leftovers
import ScrapeDiscovery.Proofs.Manager.Local
import ScrapeDiscovery.Proofs.Manager.Mirroring
import ScrapeDiscovery.Proofs.Manager.Moves
import ScrapeDiscovery.Proofs.Manager.Overlooked
import ScrapeDiscovery.Proofs.Manager.Pausing
import ScrapeDiscovery.Proofs.Manager.Pickup
import ScrapeDiscovery.Proofs.Manager.Remembered
import ScrapeDiscovery.Proofs.Manager.Reordering
import ScrapeDiscovery.Proofs.Manager.Replay
import ScrapeDiscovery.Proofs.Manager.Resync
import ScrapeDiscovery.Proofs.Manager.Settling
import ScrapeDiscovery.Proofs.Manager.Steady
import ScrapeDiscovery.Proofs.Manager.Turns
import ScrapeDiscovery.Proofs.Manager.Wakeups
import ScrapeDiscovery.Proofs.OnlySince
import ScrapeDiscovery.Proofs.Roster.Calls
import ScrapeDiscovery.Proofs.Roster.Confinement
import ScrapeDiscovery.Proofs.Roster.Consistency
import ScrapeDiscovery.Proofs.Roster.Converging
import ScrapeDiscovery.Proofs.Roster.Effects
import ScrapeDiscovery.Proofs.Roster.Interleaving
import ScrapeDiscovery.Proofs.Roster.Ledger
import ScrapeDiscovery.Proofs.Roster.Locality
import ScrapeDiscovery.Proofs.Roster.Races
import ScrapeDiscovery.Proofs.Roster.Views
import ScrapeDiscovery.Proofs.Rule.Documents
import ScrapeDiscovery.Proofs.Rule.Selection
import ScrapeDiscovery.Proofs.Scrape.Address
import ScrapeDiscovery.Proofs.Scrape.Consulted
import ScrapeDiscovery.Proofs.Scrape.Encoding
import ScrapeDiscovery.Proofs.Scrape.Inputs
import ScrapeDiscovery.Proofs.Scrape.Ports
import ScrapeDiscovery.Proofs.Scrape.Spellings
import ScrapeDiscovery.Proofs.Scrape.Tags
import ScrapeDiscovery.Proofs.Scrape.Templates
import ScrapeDiscovery.Proofs.Scrape.Timing
import ScrapeDiscovery.Proofs.Settings.Changes
import ScrapeDiscovery.Proofs.Settings.History
import ScrapeDiscovery.Proofs.Settings.Watched
import ScrapeDiscovery.Proofs.Steps
import ScrapeDiscovery.Proofs.Text.Canonical
import ScrapeDiscovery.Proofs.Text.Digits
import ScrapeDiscovery.Proofs.Text.Gaps
import ScrapeDiscovery.Proofs.Text.Places
import ScrapeDiscovery.Proofs.Uri.Reading
import ScrapeDiscovery.Proofs.Uri.Syntax
import ScrapeDiscovery.Provider
import ScrapeDiscovery.Resource
import ScrapeDiscovery.Resource.Document
import ScrapeDiscovery.Roster.Basic
import ScrapeDiscovery.Roster.Upkeep
import ScrapeDiscovery.Rule.Basic
import ScrapeDiscovery.Rule.Document
import ScrapeDiscovery.Scrape.Config
import ScrapeDiscovery.Scrape.Encoder
import ScrapeDiscovery.Settings.Basic
import ScrapeDiscovery.Settings.Document
import ScrapeDiscovery.Settings.Live
import ScrapeDiscovery.Settings.Mounted
import ScrapeDiscovery.Settings.Source
import ScrapeDiscovery.Text.Base64
import ScrapeDiscovery.Text.Blank
import ScrapeDiscovery.Text.Calendar
import ScrapeDiscovery.Text.Hidden
import ScrapeDiscovery.Text.Numeral
import ScrapeDiscovery.Text.Quoted
import ScrapeDiscovery.Text.Ranges
import ScrapeDiscovery.Text.Search
import ScrapeDiscovery.Text.Table
import ScrapeDiscovery.Text.UrlEncoded
import ScrapeDiscovery.Text.Utf8
import ScrapeDiscovery.Text.Width
import ScrapeDiscovery.Yaml.Cursor
import ScrapeDiscovery.Yaml.Node
import ScrapeDiscovery.Yaml.Token.Basic
import ScrapeDiscovery.Yaml.Token.Lexer
import ScrapeDiscovery.Yaml.Token.Property
import ScrapeDiscovery.Yaml.Token.Scalar
