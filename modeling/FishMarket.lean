import FishMarket.Auction
import FishMarket.Bid
import FishMarket.Cache.Call
import FishMarket.Cache.Memory
import FishMarket.Cache.Place
import FishMarket.Cache.Shared
import FishMarket.Calendar.BusinessTime
import FishMarket.Calendar.Date
import FishMarket.Calendar.Instant
import FishMarket.Calendar.Reading
import FishMarket.Calendar.TimeOfDay
import FishMarket.Command
import FishMarket.Database.Call
import FishMarket.Database.Script
import FishMarket.Database.Statement
import FishMarket.Database.Store
import FishMarket.Failure
import FishMarket.Http.Extract
import FishMarket.Http.MediaType
import FishMarket.Http.Message
import FishMarket.Http.Path
import FishMarket.Http.Resource
import FishMarket.Http.Respond
import FishMarket.Invoice
import FishMarket.Item
import FishMarket.Json.Bytes
import FishMarket.Json.Number
import FishMarket.Json.Quoted
import FishMarket.Json.Token
import FishMarket.Json.Value
import FishMarket.Listing
import FishMarket.Main
import FishMarket.Market.Answer
import FishMarket.Market.Auctions
import FishMarket.Market.Basic
import FishMarket.Market.Items
import FishMarket.Market.Ledger
import FishMarket.Market.Table
import FishMarket.Market.Venues
import FishMarket.Party
import FishMarket.Proofs.Bid
import FishMarket.Proofs.Cache.Lifetime
import FishMarket.Proofs.Cache.Mirror
import FishMarket.Proofs.Cache.Recall
import FishMarket.Proofs.Calendar.BusinessClock
import FishMarket.Proofs.Calendar.BusinessTime
import FishMarket.Proofs.Calendar.Civil
import FishMarket.Proofs.Calendar.Reading
import FishMarket.Proofs.Database.Transactions
import FishMarket.Proofs.Database.Writes
import FishMarket.Proofs.Floor.Basic
import FishMarket.Proofs.Floor.Between
import FishMarket.Proofs.Floor.Cached
import FishMarket.Proofs.Floor.Coherence
import FishMarket.Proofs.Floor.Errands
import FishMarket.Proofs.Floor.Highest
import FishMarket.Proofs.Floor.Invoices
import FishMarket.Proofs.Floor.ItemStatus
import FishMarket.Proofs.Floor.Ledger
import FishMarket.Proofs.Floor.Lifecycle
import FishMarket.Proofs.Floor.Log
import FishMarket.Proofs.Floor.Moments
import FishMarket.Proofs.Floor.Openings
import FishMarket.Proofs.Floor.Orderly
import FishMarket.Proofs.Floor.Parties
import FishMarket.Proofs.Floor.Reconcilers
import FishMarket.Proofs.Floor.Removal
import FishMarket.Proofs.Floor.Sold
import FishMarket.Proofs.Floor.Tasks
import FishMarket.Proofs.Floor.Venues
import FishMarket.Proofs.Http.Bidding
import FishMarket.Proofs.Http.Errands
import FishMarket.Proofs.Http.Failures
import FishMarket.Proofs.Http.Privileges
import FishMarket.Proofs.Http.Surfacing
import FishMarket.Proofs.Json.Quoted
import FishMarket.Proofs.Json.Size
import FishMarket.Proofs.Json.Token
import FishMarket.Proofs.Market.Change
import FishMarket.Proofs.Market.Consistency
import FishMarket.Proofs.Market.Deadlines
import FishMarket.Proofs.Market.Deletion
import FishMarket.Proofs.Market.Identity
import FishMarket.Proofs.Market.Lifecycle
import FishMarket.Proofs.Market.Listings
import FishMarket.Proofs.Market.Ordering
import FishMarket.Proofs.Market.References
import FishMarket.Proofs.Market.Rows
import FishMarket.Proofs.Market.Stability
import FishMarket.Proofs.Market.Staging
import FishMarket.Proofs.Record.Entities
import FishMarket.Proofs.Record.Flattened
import FishMarket.Proofs.Record.Range
import FishMarket.Proofs.Record.RoundTrip
import FishMarket.Proofs.Routine
import FishMarket.Proofs.Sequence.Agreement
import FishMarket.Proofs.Sequence.Faults
import FishMarket.Proofs.Sequence.Forgetting
import FishMarket.Proofs.Sequence.Ranges
import FishMarket.Proofs.Sequence.Tidying
import FishMarket.Proofs.Sequence.Transparency
import FishMarket.Proofs.Sequence.Visits
import FishMarket.Proofs.Service.BreakingOff
import FishMarket.Proofs.Service.Caching
import FishMarket.Proofs.Service.Completion
import FishMarket.Proofs.Service.Composition
import FishMarket.Proofs.Service.Course
import FishMarket.Proofs.Service.Failing
import FishMarket.Proofs.Service.Interleaved
import FishMarket.Proofs.Service.ItemChange
import FishMarket.Proofs.Service.Plain
import FishMarket.Proofs.Service.Promises
import FishMarket.Proofs.Service.StatusChange
import FishMarket.Proofs.Service.Surfacing
import FishMarket.Proofs.Service.Sweeping
import FishMarket.Proofs.Service.Weather
import FishMarket.Proofs.Settings
import FishMarket.Proofs.Settlement.Alone
import FishMarket.Proofs.Settlement.Atomicity
import FishMarket.Proofs.Settlement.Course
import FishMarket.Proofs.Settlement.Deletion
import FishMarket.Proofs.Settlement.Progress
import FishMarket.Proofs.Settlement.Protocol
import FishMarket.Proofs.Settlement.Requests
import FishMarket.Proofs.Table
import FishMarket.Proofs.Text.Decimal
import FishMarket.Query
import FishMarket.Record.Datum
import FishMarket.Record.Flattened
import FishMarket.Record.Reader
import FishMarket.Record.Writer
import FishMarket.Routine
import FishMarket.Service.Action
import FishMarket.Service.Handles
import FishMarket.Service.Memory
import FishMarket.Service.Rehearsal
import FishMarket.Service.Remote
import FishMarket.Settings
import FishMarket.Startup.Address
import FishMarket.Startup.Notice
import FishMarket.Startup.Rehearsal
import FishMarket.Startup.Sequence
import FishMarket.Status
import FishMarket.Store.Call
import FishMarket.Text.Blank
import FishMarket.Text.Decimal
import FishMarket.Text.Quoted
import FishMarket.Text.Visible
import FishMarket.Venue
