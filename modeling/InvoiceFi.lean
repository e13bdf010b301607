import InvoiceFi.Lib.Fallible
import InvoiceFi.Lib.Word
import InvoiceFi.Lib.Machine
import InvoiceFi.Lib.Journal
import InvoiceFi.Lib.Book
import InvoiceFi.Lib.Total
import InvoiceFi.Lib.Share
import InvoiceFi.Lib.Installments
import InvoiceFi.Lib.BubbleSort
import InvoiceFi.Lib.Markers
import InvoiceFi.Contracts.Host
import InvoiceFi.Contracts.CheckedMath
import InvoiceFi.Contracts.AccessControl
import InvoiceFi.Contracts.AccessControl.Quorum
import InvoiceFi.Contracts.AccessControl.Timelock
import InvoiceFi.Contracts.AccessControl.Ballots
import InvoiceFi.Contracts.AccessControl.Pausing
import InvoiceFi.Contracts.AccessControl.Roles
import InvoiceFi.Contracts.AccessControl.Authority
import InvoiceFi.Contracts.AccessControl.Recovery
import InvoiceFi.Contracts.Invoice
import InvoiceFi.Contracts.Invoice.Steps
import InvoiceFi.Contracts.Invoice.Ids
import InvoiceFi.Contracts.Invoice.Lifecycle
import InvoiceFi.Contracts.Invoice.Ownership
import InvoiceFi.Contracts.Invoice.Journal
import InvoiceFi.Contracts.Invoice.Authority
import InvoiceFi.Contracts.Pool
import InvoiceFi.Contracts.Pool.Ledger
import InvoiceFi.Contracts.Pool.Deficit
import InvoiceFi.Contracts.Pool.Journal
import InvoiceFi.Contracts.Pool.Authority
import InvoiceFi.Contracts.Pool.Pricing
import InvoiceFi.Contracts.Pool.Funding
import InvoiceFi.Contracts.Settlement
import InvoiceFi.Contracts.Settlement.Steps
import InvoiceFi.Contracts.Settlement.Nonces
import InvoiceFi.Contracts.Settlement.Principal
import InvoiceFi.Contracts.Settlement.Repayments
import InvoiceFi.Contracts.Settlement.Records
import InvoiceFi.Contracts.Settlement.Approvals
import InvoiceFi.Contracts.Settlement.Fees
import InvoiceFi.Contracts.Settlement.Journal
import InvoiceFi.Contracts.Settlement.Payoff
import InvoiceFi.Contracts.Pause
import InvoiceFi.Contracts.Upgrade
import InvoiceFi.Contracts.Upgrade.Isolation
import InvoiceFi.Contracts.Oracle
import InvoiceFi.Contracts.Oracle.Aggregation
import InvoiceFi.Contracts.Oracle.Freshness
import InvoiceFi.Contracts.Oracle.Selection
import InvoiceFi.Contracts.Oracle.Submitters
import InvoiceFi.Backend.EventParser
import InvoiceFi.Backend.EventParser.Agreement
import InvoiceFi.Backend.SettlementSync
import InvoiceFi.Backend.SettlementSync.Cursor
import InvoiceFi.Backend.Errors
import InvoiceFi.Backend.Runtime
import InvoiceFi.Lib.Async
import InvoiceFi.Lib.Coupling
import InvoiceFi.Lib.Json
import InvoiceFi.Lib.JsValue
import InvoiceFi.Lib.Utf8
import InvoiceFi.Lib.Base64
import InvoiceFi.Lib.PercentEncoding
import InvoiceFi.Lib.JsonParse
import InvoiceFi.Lib.Csv
import InvoiceFi.Lib.SlidingWindow
import InvoiceFi.Lib.TrimmedWindow
import InvoiceFi.Backend.Database
import InvoiceFi.Backend.Services
import InvoiceFi.Backend.Network
import InvoiceFi.Backend.Services.Mirror
import InvoiceFi.Backend.Services.Rows
import InvoiceFi.Backend.Services.Convergence
import InvoiceFi.Backend.Compliance
import InvoiceFi.Backend.Compliance.Reporting
import InvoiceFi.Backend.Compliance.Amounts
import InvoiceFi.Backend.Compliance.Exports
import InvoiceFi.Backend.Compliance.TravelRule
import InvoiceFi.Backend.Compliance.Balance
import InvoiceFi.Backend.Compliance.Scoping
import InvoiceFi.Backend.Compliance.Isolation
import InvoiceFi.Backend.Compliance.Queued
import InvoiceFi.Backend.Compliance.Jwt
import InvoiceFi.Backend.Compliance.AccessGuard
import InvoiceFi.Backend.Compliance.CsvDocument
import InvoiceFi.Backend.FinancialCalculations
import InvoiceFi.Backend.Services.CallerTransaction
import InvoiceFi.Backend.Services.Announcement
import InvoiceFi.Backend.Idempotency
import InvoiceFi.Backend.Idempotency.Stored
import InvoiceFi.Backend.Idempotency.Calls
import InvoiceFi.Backend.Idempotency.AtMostOnce
import InvoiceFi.Backend.Idempotency.Replay
import InvoiceFi.Backend.Idempotency.Responses
import InvoiceFi.Backend.Idempotency.Fingerprint
import InvoiceFi.Backend.Monitoring.AnomalyDetector
import InvoiceFi.Backend.OracleMonitor
import InvoiceFi.Backend.OracleMonitor.Freshness
import InvoiceFi.Backend.OracleMonitor.Alerts
import InvoiceFi.Backend.OracleMonitor.Premium
import InvoiceFi.Backend.CircuitBreaker
import InvoiceFi.Backend.CircuitBreaker.Automaton
import InvoiceFi.Backend.InvoiceReminder
import InvoiceFi.Backend.InvoiceReminder.Jobs
import InvoiceFi.Backend.InvoiceReminder.Once
import InvoiceFi.Backend.InvoiceReminder.AsWritten
import InvoiceFi.Backend.RateLimiter
import InvoiceFi.Backend.RateLimiter.RetryAfter
import InvoiceFi.Backend.WebhookSubscriptions
import InvoiceFi.Backend.WebhookUrl
import InvoiceFi.Backend.WebhookWorker
import InvoiceFi.Backend.WebhookWorker.Outcomes
import InvoiceFi.Backend.WebhookWorker.Schedule
import InvoiceFi.Frontend.NetworkStatus
import InvoiceFi.Frontend.OfflineQueue
import InvoiceFi.Frontend.OfflineQueue.Stages
import InvoiceFi.Frontend.OfflineQueue.Kept
import InvoiceFi.Frontend.OfflineQueue.Order
import InvoiceFi.Frontend.OfflineQueue.Once
import InvoiceFi.Backend.Monitoring.HorizonMonitor
import InvoiceFi.Backend.FinancialCalculations.Repayment
import InvoiceFi.Lib.Guarantee
import InvoiceFi.Backend.Compliance.Signing
import InvoiceFi.Backend.SettlementSync.Backfill
import InvoiceFi.Backend.SettlementSync.Gaps
import InvoiceFi.Backend.RateLimiter.Middleware
import InvoiceFi.Backend.WebhookWorker.Signatures
import InvoiceFi.Backend.WebhookApi
import InvoiceFi.Backend.WebhookApi.Isolation
import InvoiceFi.Backend.InvoiceReminder.DeadLetterQueue
import InvoiceFi.Backend.InvoiceReminder.DeadLetters
import InvoiceFi.Frontend.OfflineQueue.Attempts
import InvoiceFi.Frontend.OfflineQueue.OneHook
