import ExpenseLedger.Books
import ExpenseLedger.Cache.Key
import ExpenseLedger.Cache.Memory
import ExpenseLedger.Cache.Shared
import ExpenseLedger.Calendar.Date
import ExpenseLedger.Calendar.Instant
import ExpenseLedger.Calendar.Period
import ExpenseLedger.Calendar.Timestamp
import ExpenseLedger.Callback.Client
import ExpenseLedger.Callback.Endpoint
import ExpenseLedger.Callback.Reply
import ExpenseLedger.CommandLine.Command
import ExpenseLedger.CommandLine.Parse
import ExpenseLedger.CommandLine.Words
import ExpenseLedger.Commands.Accounts
import ExpenseLedger.Commands.Machine
import ExpenseLedger.Commands.Output
import ExpenseLedger.Commands.Reporting
import ExpenseLedger.Commands.Run
import ExpenseLedger.Commands.SpendingReport
import ExpenseLedger.Commands.Working
import ExpenseLedger.Error
import ExpenseLedger.ExchangeRates
import ExpenseLedger.Home.ConfigFile
import ExpenseLedger.Home.Database
import ExpenseLedger.Home.DatabaseText
import ExpenseLedger.Home.Directory
import ExpenseLedger.Http.MediaType
import ExpenseLedger.Http.Peer
import ExpenseLedger.Http.Status
import ExpenseLedger.Json.Codec
import ExpenseLedger.Json.Reader
import ExpenseLedger.Json.Record
import ExpenseLedger.Json.Text
import ExpenseLedger.Json.Value
import ExpenseLedger.Ledger.Accounts
import ExpenseLedger.Ledger.Writing
import ExpenseLedger.Main
import ExpenseLedger.Money.Amount
import ExpenseLedger.Money.Conversion
import ExpenseLedger.Money.Rate
import ExpenseLedger.Net.Ipv4
import ExpenseLedger.Net.Ipv6
import ExpenseLedger.Net.SocketAddress
import ExpenseLedger.Numeric.Binary64
import ExpenseLedger.Numeric.Binary64.Reading
import ExpenseLedger.Numeric.Binary64.Shortest
import ExpenseLedger.Numeric.Decimal
import ExpenseLedger.Numeric.Decimal.Binary
import ExpenseLedger.Numeric.Decimal.Reading
import ExpenseLedger.Numeric.IntegerText
import ExpenseLedger.Numeric.PlainDecimal
import ExpenseLedger.Numeric.Power
import ExpenseLedger.Numeric.Rounding
import ExpenseLedger.Proofs.Books
import ExpenseLedger.Proofs.Cache
import ExpenseLedger.Proofs.Cache.Contents
import ExpenseLedger.Proofs.Cache.Interchange
import ExpenseLedger.Proofs.Cache.Memory
import ExpenseLedger.Proofs.Callback
import ExpenseLedger.Proofs.Json.Codec
import ExpenseLedger.Proofs.Json.Reading
import ExpenseLedger.Proofs.Ledger.Accounting
import ExpenseLedger.Proofs.Ledger.Errands
import ExpenseLedger.Proofs.Ledger.History
import ExpenseLedger.Proofs.Ledger.Integrity
import ExpenseLedger.Proofs.Ledger.Limits
import ExpenseLedger.Proofs.Ledger.Run
import ExpenseLedger.Proofs.Numeric.IntegerText
import ExpenseLedger.Proofs.Outcome
import ExpenseLedger.Proofs.Report.Entries
import ExpenseLedger.Proofs.Report.Freshness
import ExpenseLedger.Proofs.Report.Interleaving
import ExpenseLedger.Proofs.Report.Job
import ExpenseLedger.Proofs.Report.Labels
import ExpenseLedger.Proofs.Report.Pairing
import ExpenseLedger.Proofs.Report.Past
import ExpenseLedger.Proofs.Report.Sources
import ExpenseLedger.Proofs.Report.Totals
import ExpenseLedger.Proofs.Report.Upkeep
import ExpenseLedger.Proofs.Report.World
import ExpenseLedger.Proofs.Request.Order
import ExpenseLedger.Proofs.Request.Queue
import ExpenseLedger.Proofs.Request.Run
import ExpenseLedger.Proofs.Request.Wire
import ExpenseLedger.Proofs.Rows
import ExpenseLedger.Proofs.Store.Booked
import ExpenseLedger.Proofs.Store.Frame
import ExpenseLedger.Proofs.Store.Integrity
import ExpenseLedger.Proofs.Store.Sound
import ExpenseLedger.Proofs.Store.Statements
import ExpenseLedger.Proofs.Uuid
import ExpenseLedger.Report.Aggregate
import ExpenseLedger.Report.Basic
import ExpenseLedger.Report.Call
import ExpenseLedger.Report.Desk
import ExpenseLedger.Report.Expense
import ExpenseLedger.Request.Basic
import ExpenseLedger.Request.Message
import ExpenseLedger.Request.Queue
import ExpenseLedger.Retry
import ExpenseLedger.Rows
import ExpenseLedger.Store.Basic
import ExpenseLedger.Store.Currencies
import ExpenseLedger.Store.Expenses
import ExpenseLedger.Store.Tables
import ExpenseLedger.Store.Users
import ExpenseLedger.Text.Blank
import ExpenseLedger.Text.Folding
import ExpenseLedger.Text.Pieces
import ExpenseLedger.Url.Basic
import ExpenseLedger.Url.Encoding
import ExpenseLedger.Url.Form
import ExpenseLedger.Url.Host
import ExpenseLedger.Url.Path
import ExpenseLedger.Url.Punycode
import ExpenseLedger.Url.Reading
import ExpenseLedger.Uuid
import ExpenseLedger.Worker
import ExpenseLedger.Proofs.Request.Leases
import ExpenseLedger.Proofs.Request.Streams
import ExpenseLedger.Proofs.Worker.Delivery
import ExpenseLedger.Proofs.Worker.Rounds
import ExpenseLedger.Proofs.Home.Opening
import ExpenseLedger.Proofs.Users.Alike
import ExpenseLedger.Proofs.Users.Commands
import ExpenseLedger.Proofs.Users.Machines
import ExpenseLedger.Proofs.Users.Separation
import ExpenseLedger.Proofs.Numeric.Decimal
import ExpenseLedger.Proofs.Money.Conversion
import ExpenseLedger.Proofs.Money.RoundTrip
import ExpenseLedger.Proofs.Cache.Entries
import ExpenseLedger.Proofs.Report.Effects
import ExpenseLedger.Proofs.Ledger.Regular
import ExpenseLedger.Proofs.Ledger.Acceptance
import ExpenseLedger.Proofs.Report.Acceptance
import ExpenseLedger.Proofs.Report.Waiters
import ExpenseLedger.Proofs.Report.Failures
import ExpenseLedger.Proofs.Numeric.Monotone
import ExpenseLedger.Proofs.Report.Solvency
import ExpenseLedger.Proofs.Money.Order
import ExpenseLedger.Proofs.Report.Grouping
import ExpenseLedger.Proofs.Report.Orders
import ExpenseLedger.Proofs.Ledger.Erasure
import ExpenseLedger.Proofs.Users.Everybody
import ExpenseLedger.Proofs.Users.Erasure
import ExpenseLedger.Proofs.Users.Reached
import ExpenseLedger.Proofs.Calendar.Date
import ExpenseLedger.Proofs.Calendar.Period
import ExpenseLedger.Proofs.Numeric.Numeral
import ExpenseLedger.Proofs.Money.Hundredths
import ExpenseLedger.Proofs.Money.Amount
import ExpenseLedger.Proofs.Store.Rates
import ExpenseLedger.Proofs.ExchangeRates
import ExpenseLedger.Proofs.Json.Yields
import ExpenseLedger.Proofs.Json.Canonical
import ExpenseLedger.Proofs.Commands.Telling
import ExpenseLedger.Proofs.Retry
import ExpenseLedger.Proofs.Ledger.Recording
import ExpenseLedger.Proofs.Ledger.AllTime
import ExpenseLedger.Proofs.Numeric.Doubles
import ExpenseLedger.Proofs.Home.Lived
import ExpenseLedger.Proofs.Home.Processes
import ExpenseLedger.Proofs.Home.Currencies
import ExpenseLedger.Proofs.Home.StoredRates
import ExpenseLedger.Proofs.Text.Bytes
import ExpenseLedger.Proofs.Cache.Keys
import ExpenseLedger.Proofs.Calendar.Fields
import ExpenseLedger.Proofs.Calendar.DateText
import ExpenseLedger.Proofs.Calendar.Timestamp
