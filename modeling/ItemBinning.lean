import ItemBinning.Act
import ItemBinning.Bin
import ItemBinning.Bin.State
import ItemBinning.CommandLine.Answer
import ItemBinning.CommandLine.Request
import ItemBinning.Configuration
import ItemBinning.DataSize
import ItemBinning.Decimal.Binary64
import ItemBinning.Decimal.FieldNumeral
import ItemBinning.Decimal.FloatText
import ItemBinning.Decimal.Numeral
import ItemBinning.Decimal.Remainder
import ItemBinning.Decimal.Shortest
import ItemBinning.Depot
import ItemBinning.Document.BlockText
import ItemBinning.Document.Cursor
import ItemBinning.Document.Kind
import ItemBinning.Document.Lexer
import ItemBinning.Document.Node
import ItemBinning.Document.PlainText
import ItemBinning.Document.Property
import ItemBinning.Document.QuotedText
import ItemBinning.Document.Reading
import ItemBinning.Document.Scalar
import ItemBinning.Document.Token
import ItemBinning.Duration
import ItemBinning.Engine.Activation
import ItemBinning.Engine.Basic
import ItemBinning.Engine.Creation
import ItemBinning.Engine.Drain
import ItemBinning.Engine.Intake
import ItemBinning.Engine.Migration
import ItemBinning.Engine.Statistics
import ItemBinning.Engine.Suspension
import ItemBinning.Fault
import ItemBinning.Flow
import ItemBinning.Hook.Grouping
import ItemBinning.Hook.Preprocessor
import ItemBinning.Hook.Processor
import ItemBinning.Hook.Script
import ItemBinning.Item
import ItemBinning.Item.Creation
import ItemBinning.Main
import ItemBinning.Moment
import ItemBinning.Number
import ItemBinning.Policy
import ItemBinning.Problem
import ItemBinning.Proofs.Bin.Measure
import ItemBinning.Proofs.Bin.Room
import ItemBinning.Proofs.Contract
import ItemBinning.Proofs.Engine.Chunks
import ItemBinning.Proofs.Engine.Conservation
import ItemBinning.Proofs.Engine.Custody
import ItemBinning.Proofs.Engine.DrainCustody
import ItemBinning.Proofs.Engine.DrainRules
import ItemBinning.Proofs.Engine.Haulage
import ItemBinning.Proofs.Engine.IntakeCustody
import ItemBinning.Proofs.Engine.IntakeProgress
import ItemBinning.Proofs.Engine.IntakeRules
import ItemBinning.Proofs.Engine.Isolation
import ItemBinning.Proofs.Engine.Landing
import ItemBinning.Proofs.Engine.Migration
import ItemBinning.Proofs.Engine.Outcomes
import ItemBinning.Proofs.Engine.Progress
import ItemBinning.Proofs.Engine.Recovery
import ItemBinning.Proofs.Engine.Run
import ItemBinning.Proofs.Engine.Sorting
import ItemBinning.Proofs.Engine.Stowage
import ItemBinning.Proofs.Flow.Accounts
import ItemBinning.Proofs.Flow.Carried
import ItemBinning.Proofs.Flow.Delivery
import ItemBinning.Proofs.Flow.Handover
import ItemBinning.Proofs.Flow.Movement
import ItemBinning.Proofs.Flow.Operations
import ItemBinning.Proofs.Hook.Adornment
import ItemBinning.Proofs.Hook.Conduct
import ItemBinning.Proofs.Session.Coherence
import ItemBinning.Proofs.Shelf.Arrangement
import ItemBinning.Proofs.Shelf.Departure
import ItemBinning.Proofs.Shelf.Ledger
import ItemBinning.Proofs.Shelf.Placement
import ItemBinning.Proofs.Storage
import ItemBinning.Quantity
import ItemBinning.Scheduler
import ItemBinning.Scheduler.Creation
import ItemBinning.Session
import ItemBinning.Settings
import ItemBinning.Settings.LogFormat
import ItemBinning.Settings.Store
import ItemBinning.Settings.VariableFile
import ItemBinning.Shelf.Offer
import ItemBinning.Shelf.Removal
import ItemBinning.Simulation
import ItemBinning.Slots
import ItemBinning.Sorted
import ItemBinning.Table
import ItemBinning.Text.Alphanumeric
import ItemBinning.Text.Blank
import ItemBinning.Text.DecimalDigit
import ItemBinning.Text.Printable
import ItemBinning.Text.Quoted
import ItemBinning.Text.UpperCase
import ItemBinning.Thresholds
import ItemBinning.TypedField
import ItemBinning.Value
import ItemBinning.Proofs.Engine.Stock
import ItemBinning.Proofs.Hook.Discretion
import ItemBinning.Proofs.Engine.Upkeep
import ItemBinning.Proofs.Engine.Contents
import ItemBinning.Proofs.Engine.DrainFaults
import ItemBinning.Proofs.Engine.Lifecycle
import ItemBinning.Proofs.Engine.Whereabouts
import ItemBinning.Proofs.Flow.Balance
import ItemBinning.Proofs.Engine.Endurance
import ItemBinning.Proofs.Engine.Turnover
import ItemBinning.Proofs.Engine.Quiescence
import ItemBinning.Proofs.Engine.Starvation
import ItemBinning.Proofs.Flow.Representation
import ItemBinning.Proofs.Shelf.FirstFit
import ItemBinning.Proofs.Bin.Packing
import ItemBinning.Proofs.Engine.Dealing
import ItemBinning.Proofs.Engine.ChunkBoundaries
import ItemBinning.Proofs.Hook.Preparation
import ItemBinning.Proofs.Engine.Versions
import ItemBinning.Proofs.Engine.Shipment
import ItemBinning.Proofs.Engine.Deliveries
import ItemBinning.Proofs.Engine.Bookkeeping
import ItemBinning.Proofs.Engine.PullOrder
import ItemBinning.Proofs.Engine.Annals
import ItemBinning.Proofs.Engine.BinOrder
import ItemBinning.Proofs.Engine.ResetOrder
import ItemBinning.Proofs.Engine.Aloofness
import ItemBinning.Proofs.Hook.Bundling
import ItemBinning.Proofs.Engine.Bundles
import ItemBinning.Proofs.Flow.Restoration
import ItemBinning.Proofs.Engine.Restart
import ItemBinning.Proofs.Shelf.Refusal
import ItemBinning.Proofs.Settings.Readiness
import ItemBinning.Proofs.Scheduler.Lifecycle
import ItemBinning.Proofs.InsertionOrder
import ItemBinning.Proofs.Shelf.Seniority
import ItemBinning.Proofs.Bin.Due
import ItemBinning.Proofs.Shelf.ReadyBins
import ItemBinning.Proofs.Flow.Passage
import ItemBinning.Proofs.Shelf.Admission
import ItemBinning.Proofs.Shelf.Offers
import ItemBinning.Proofs.Engine.Timekeeping
import ItemBinning.Proofs.Engine.Eviction
import ItemBinning.Proofs.Engine.Strays
import ItemBinning.Proofs.Engine.ProcessingOrder
import ItemBinning.Proofs.Flow.PartWay
import ItemBinning.Proofs.Shelf.Fullness
import ItemBinning.Proofs.Shelf.FailedOffers
import ItemBinning.Proofs.Engine.Cancellation
import ItemBinning.Proofs.Flow.Pulling
import ItemBinning.Proofs.Flow.Course
import ItemBinning.Proofs.Flow.Destinations
import ItemBinning.Proofs.Decimal.Doubles
import ItemBinning.Proofs.Settings.Quantities
import ItemBinning.Proofs.Settings.Sizes
import ItemBinning.Proofs.Settings.Checking
import ItemBinning.Proofs.Settings.Acceptance
import ItemBinning.Proofs.Settings.Numbers
import ItemBinning.Proofs.Settings.Durations
import ItemBinning.Proofs.Settings.Ages
import ItemBinning.Proofs.Settings.Entries
import ItemBinning.Proofs.Settings.Overrides
import ItemBinning.Proofs.Settings.Loading
import ItemBinning.Proofs.Decimal.Rounding
import ItemBinning.Proofs.Decimal.WholeDoubles
import ItemBinning.Proofs.Settings.WholeSizes
