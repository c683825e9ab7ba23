import Thoroughfare.Config.Basic
import Thoroughfare.Config.File
import Thoroughfare.Csv.Records
import Thoroughfare.Csv.Table
import Thoroughfare.Csv.Writer
import Thoroughfare.Decimal.Binary64
import Thoroughfare.Decimal.Layout
import Thoroughfare.Decimal.Literal
import Thoroughfare.Decimal.Numeral
import Thoroughfare.Decimal.Shortest
import Thoroughfare.Delay.File
import Thoroughfare.Delay.Table
import Thoroughfare.Event.Basic
import Thoroughfare.Event.Bus
import Thoroughfare.Event.File
import Thoroughfare.Event.Log
import Thoroughfare.Grid.Chance
import Thoroughfare.Grid.Commuters
import Thoroughfare.Grid.Program
import Thoroughfare.Grid.Streets
import Thoroughfare.Ident
import Thoroughfare.Network.Basic
import Thoroughfare.Network.Files
import Thoroughfare.Network.Names
import Thoroughfare.Network.Partition
import Thoroughfare.Plan.Agent
import Thoroughfare.Plan.Files
import Thoroughfare.Plan.Itinerary
import Thoroughfare.Plan.Route
import Thoroughfare.Plan.WakeQueue
import Thoroughfare.Point
import Thoroughfare.Quantity
import Thoroughfare.Road.FlowBucket
import Thoroughfare.Road.LinkQueue
import Thoroughfare.Simulation.Basic
import Thoroughfare.Simulation.District
import Thoroughfare.Simulation.Effects
import Thoroughfare.Simulation.Error
import Thoroughfare.Simulation.File
import Thoroughfare.Simulation.Movement
import Thoroughfare.Simulation.Offer
import Thoroughfare.Simulation.Report
import Thoroughfare.Simulation.Resolution
import Thoroughfare.Simulation.Run
import Thoroughfare.Simulation.Step
import Thoroughfare.Simulation.Waking
import Thoroughfare.Text.Blank
import Thoroughfare.Text.Combining
import Thoroughfare.Text.Ignorable
import Thoroughfare.Text.Printable
import Thoroughfare.Text.Quoted
import Thoroughfare.Text.Ranges
import Thoroughfare.Text.Split
import Thoroughfare.Time.Clock
import Thoroughfare.Time.OfDay
import Thoroughfare.Toml.Document
import Thoroughfare.Toml.Grammar
import Thoroughfare.Toml.Layout
import Thoroughfare.Toml.Quoted
import Thoroughfare.Toml.Scalar
import Thoroughfare.Toml.Table
import Thoroughfare.Toml.Value
import Thoroughfare.Main
import Thoroughfare.Proofs.Arrangement
import Thoroughfare.Proofs.Plan.Course
import Thoroughfare.Proofs.Plan.WakeUps
import Thoroughfare.Proofs.Simulation.Situation
import Thoroughfare.Proofs.Simulation.Soundness
import Thoroughfare.Proofs.Simulation.Waking
import Thoroughfare.Proofs.Event.Merging
import Thoroughfare.Proofs.Plan.Words
import Thoroughfare.Proofs.Simulation.CarryingOut
import Thoroughfare.Proofs.Simulation.Census
import Thoroughfare.Proofs.Simulation.Decisions
import Thoroughfare.Proofs.Simulation.Histories
import Thoroughfare.Proofs.Simulation.Safety
import Thoroughfare.Proofs.Simulation.Splits
import Thoroughfare.Proofs.Simulation.Telling
import Thoroughfare.Proofs.Simulation.Whereabouts
import Thoroughfare.Proofs.Simulation.Passing
import Thoroughfare.Proofs.Simulation.Roads
import Thoroughfare.Proofs.Simulation.Fifo
import Thoroughfare.Proofs.Simulation.Phases
import Thoroughfare.Proofs.Simulation.Room
import Thoroughfare.Proofs.Road.Credit
import Thoroughfare.Proofs.Road.Throughput
import Thoroughfare.Proofs.Road.Calls
import Thoroughfare.Proofs.Simulation.Idling
import Thoroughfare.Proofs.Plan.Stays
import Thoroughfare.Proofs.Simulation.Punctuality
import Thoroughfare.Proofs.Event.Keys
import Thoroughfare.Proofs.Simulation.Ordering
import Thoroughfare.Proofs.Simulation.Refusals
import Thoroughfare.Proofs.Simulation.Holds
import Thoroughfare.Proofs.Simulation.Balances
import Thoroughfare.Proofs.Simulation.Tallies
import Thoroughfare.Proofs.Simulation.Counters
import Thoroughfare.Proofs.Simulation.Statistics
import Thoroughfare.Proofs.Plan.Footprint
import Thoroughfare.Proofs.Simulation.Footprints
import Thoroughfare.Proofs.Simulation.Separation
import Thoroughfare.Proofs.Simulation.Strangers
import Thoroughfare.Proofs.Simulation.Stepwise
import Thoroughfare.Proofs.Simulation.Company
import Thoroughfare.Proofs.Simulation.Rounds
import Thoroughfare.Proofs.Simulation.Endings
import Thoroughfare.Proofs.Simulation.Truncation
import Thoroughfare.Proofs.Simulation.Contention
import Thoroughfare.Proofs.Simulation.Allotment
import Thoroughfare.Proofs.Simulation.Spacious
import Thoroughfare.Proofs.Delay.Journals
import Thoroughfare.Proofs.Delay.Sums
import Thoroughfare.Proofs.Delay.Accounts
import Thoroughfare.Proofs.Delay.Traversals
import Thoroughfare.Proofs.Delay.Interleavings
import Thoroughfare.Proofs.Simulation.Driving
import Thoroughfare.Proofs.Simulation.Delays
import Thoroughfare.Proofs.InPlace
import Thoroughfare.Proofs.Plan.Transitions
import Thoroughfare.Proofs.Plan.Progress
import Thoroughfare.Proofs.Road.Offers
import Thoroughfare.Proofs.Road.Releases
import Thoroughfare.Proofs.Event.Deliveries
import Thoroughfare.Proofs.Event.Replays
import Thoroughfare.Proofs.Plan.Buckets
import Thoroughfare.Proofs.Plan.Wakers
import Thoroughfare.Proofs.Network.Building
import Thoroughfare.Proofs.Network.Rows
import Thoroughfare.Proofs.Network.Sizes
import Thoroughfare.Proofs.Network.Cut
import Thoroughfare.Proofs.Network.Refinement
import Thoroughfare.Proofs.Network.Growth
import Thoroughfare.Proofs.Network.NodeByNode
import Thoroughfare.Proofs.Network.Splitting
import Thoroughfare.Proofs.Network.Intake
import Thoroughfare.Proofs.Network.Loading
import Thoroughfare.Proofs.Decimal.Numerals
import Thoroughfare.Proofs.Time.OfDay
import Thoroughfare.Proofs.Plan.Routes
import Thoroughfare.Proofs.Plan.Gathering
import Thoroughfare.Proofs.Plan.Populations
import Thoroughfare.Proofs.Csv.Written
import Thoroughfare.Proofs.Event.Tables
