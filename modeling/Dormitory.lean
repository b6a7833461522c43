import Dormitory.Txn.Alone
import Dormitory.AnnouncementService
import Dormitory.Batch
import Dormitory.Finality
import Dormitory.Growth
import Dormitory.Interceptors
import Dormitory.InvoiceService
import Dormitory.Pipeline
import Dormitory.Race
import Dormitory.Replay
import Dormitory.VoidInvoice
import Dormitory.Rollup
import Dormitory.Lifecycle
import Dormitory.Txn.Jobs
import Dormitory.Push
import Dormitory.QrPayload
import Dormitory.Exact
import Dormitory.Totals
import Dormitory.Invoicing
import Dormitory.Payable
import Dormitory.BatchRuns
import Dormitory.Txn.Slot
import Dormitory.Broadcast
import Dormitory.Txn.Script
import Dormitory.Tenancy
import Dormitory.TenantInviteService
import Dormitory.Invites
import Dormitory.Bindings
import Dormitory.LineNotificationProcessor
import Dormitory.Delivery
import Dormitory.Leasing
import Dormitory.ContractService
import Dormitory.MeterService
import Dormitory.BilledReadings
import Dormitory.ContractDates
import Dormitory.Odometer
import Dormitory.ReadingChains
import Dormitory.DoubleBooking
import Dormitory.BindConflict
import Dormitory.AuthService
import Dormitory.TenantSessions
import Dormitory.AdminSessions
import Dormitory.LineWebhookService
import Dormitory.Txn.Insert
import Dormitory.WebhookDedup
import Dormitory.Txn.Performs
import Dormitory.EventIsolation
import Dormitory.LineEventProcessor
import Dormitory.EventStatus
import Dormitory.Owners
import Dormitory.Premises
import Dormitory.PropertyService
import Dormitory.OwnReferences
import Dormitory.OwnBooks
import Dormitory.ForeignKeys
import Dormitory.Calendar
import Dormitory.DueDate
import Dormitory.DashboardService
import Dormitory.Maintenance
import Dormitory.MaintenanceService
import Dormitory.TicketHistory
import Dormitory.ViewUrls
import Dormitory.TicketRace
import Dormitory.OverlapRefusal
import Dormitory.ReadingsGrid
import Dormitory.GridSaves
import Dormitory.Buffer
import Dormitory.Cursor
import Dormitory.Keyset
import Dormitory.Listing
import Dormitory.TenantInvoices
import Dormitory.Digits
import Dormitory.ShiftRegister
import Dormitory.Checksum
import Dormitory.Periods
import Dormitory.Arrears
import Dormitory.InviteCodes
import Dormitory.Slug
import Dormitory.WireDecimals
import Dormitory.ReadingArithmetic
import Dormitory.JsonValue
import Dormitory.SyntheticIds
import Dormitory.Interleaved
import Dormitory.SqlStatements
import Dormitory.RowLevelSecurity
import Dormitory.HttpApi
import Dormitory.Uploads
import Dormitory.Payee
