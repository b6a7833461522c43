import Dormitory.Money
import Dormitory.Table

/-!
# The schema

The tables of `packages/db/prisma/schema.prisma` that billing, announcements
and the audit log use, with the columns these services read or write. Ids are
opaque numbers, instants are milliseconds since 1970 UTC, and the items of an
invoice, which exist only with it, are stored in its row.
-/

namespace Dormitory

abbrev Id := Nat

abbrev Instant := Int

inductive InvoiceStatus where
  | draft | issued | partially_paid | paid | void | overdue
  deriving DecidableEq, Repr

inductive InvoiceItemKind where
  | rent | water | electric | common_fee | late_fee | deposit | other
  deriving DecidableEq, Repr

inductive PaymentMethod where
  | promptpay | cash | bank_transfer
  deriving DecidableEq, Repr

inductive PaymentStatus where
  | pending | confirmed | rejected
  deriving DecidableEq, Repr

inductive ContractStatus where
  | draft | active | ended | terminated
  deriving DecidableEq, Repr

inductive MeterKind where
  | water | electric
  deriving DecidableEq, Repr

inductive TenantStatus where
  | active | moved_out | blocked
  deriving DecidableEq, Repr

inductive AnnouncementStatus where
  | draft | scheduled | sending | sent | failed | cancelled
  deriving DecidableEq, Repr

/-- `announcementTargetSchema`. -/
inductive AnnouncementTarget where
  | all
  | property (propertyId : Id)
  | floor (propertyId : Id) (floor : Nat)
  | unit (unitIds : List Id)
  | tenant (tenantIds : List Id)
  deriving DecidableEq, Repr

/-- A billing period `YYYY-MM` (`PERIOD_REGEX`). -/
structure Period where
  year : Nat
  month : Nat
  valid : year < 10000 ∧ 1 ≤ month ∧ month ≤ 12
  deriving DecidableEq

/-- The decimal digits of `n`, with leading zeros up to `width`. -/
def padStart (width n : Nat) : String :=
  String.ofList (List.replicate (width - (Nat.toDigits 10 n).length) '0' ++ Nat.toDigits 10 n)

def Period.toString (p : Period) : String := padStart 4 p.year ++ "-" ++ padStart 2 p.month

/-- `Decimal.toString()`: no trailing zeros after the point. -/
def Numeric.toString {p s : Nat} (x : Numeric p s) : String :=
  let whole := Nat.toDigits 10 (x.units.natAbs / 10 ^ s)
  let padded := (padStart s (x.units.natAbs % 10 ^ s)).toList
  let fraction := (padded.reverse.dropWhile (· = '0')).reverse
  String.ofList ((if x.units < 0 then ['-'] else []) ++ whole ++
    (if fraction.isEmpty then [] else '.' :: fraction))

structure Company where
  id : Id
  slug : String
  promptPayId : Option String
  deriving DecidableEq, Repr

structure User where
  id : Id
  companyId : Id
  deriving DecidableEq, Repr

structure Tenant where
  id : Id
  companyId : Id
  lineUserId : Option String
  status : TenantStatus
  deriving DecidableEq, Repr

structure CompanyLineChannel where
  id : Id
  companyId : Id
  deriving DecidableEq, Repr

/-- `Unit`: a rentable room. -/
structure DormUnit where
  id : Id
  companyId : Id
  propertyId : Id
  unitNumber : String
  deriving DecidableEq, Repr

structure Contract where
  id : Id
  companyId : Id
  unitId : Id
  tenantId : Id
  rentAmount : Numeric 10 2
  status : ContractStatus
  deriving DecidableEq

structure Meter where
  id : Id
  companyId : Id
  unitId : Id
  kind : MeterKind
  unitOfMeasure : String
  ratePerUnit : Numeric 10 4
  deriving DecidableEq

structure Reading where
  id : Id
  companyId : Id
  meterId : Id
  period : Period
  consumption : Numeric 12 2
  deriving DecidableEq

structure InvoiceItem where
  companyId : Id
  kind : InvoiceItemKind
  description : String
  quantity : Numeric 12 2
  unitPrice : Numeric 10 4
  lineTotal : Numeric 10 2
  readingId : Option Id
  sortOrder : Nat
  deriving DecidableEq

structure Invoice where
  id : Id
  companyId : Id
  contractId : Id
  unitId : Id
  tenantId : Id
  period : Period
  issueDate : Instant
  dueDate : Instant
  subtotal : Numeric 10 2
  total : Numeric 10 2
  status : InvoiceStatus
  promptPayRef : Option String
  items : List InvoiceItem
  deriving DecidableEq

structure Payment where
  id : Id
  companyId : Id
  invoiceId : Id
  tenantId : Id
  amount : Numeric 10 2
  method : PaymentMethod
  status : PaymentStatus
  paidAt : Option Instant
  confirmedAt : Option Instant
  confirmedByUserId : Option Id
  rejectionReason : Option String
  idempotencyKey : String
  deriving DecidableEq

structure Announcement where
  id : Id
  companyId : Id
  title : String
  body : String
  target : AnnouncementTarget
  status : AnnouncementStatus
  scheduledAt : Option Instant
  sentAt : Option Instant
  deliveredCount : Nat
  failedCount : Nat
  createdByUserId : Id
  idempotencyKey : String
  deriving DecidableEq, Repr

structure AuditLog where
  id : Id
  companyId : Id
  actorUserId : Option Id
  action : String
  resource : String
  resourceId : Option String
  metadata : List (String × String)
  ipAddress : Option String
  userAgent : Option String
  deriving DecidableEq, Repr

instance : Keyed Company Id := ⟨Company.id⟩
instance : Keyed User Id := ⟨User.id⟩
instance : Keyed Tenant Id := ⟨Tenant.id⟩
instance : Keyed CompanyLineChannel Id := ⟨CompanyLineChannel.id⟩
instance : Keyed DormUnit Id := ⟨DormUnit.id⟩
instance : Keyed Contract Id := ⟨Contract.id⟩
instance : Keyed Meter Id := ⟨Meter.id⟩
instance : Keyed Reading Id := ⟨Reading.id⟩
instance : Keyed Invoice Id := ⟨Invoice.id⟩
instance : Keyed Payment Id := ⟨Payment.id⟩
instance : Keyed Announcement Id := ⟨Announcement.id⟩
instance : Keyed AuditLog Id := ⟨AuditLog.id⟩

/-- The database. -/
structure Db where
  companies : Table Company := default
  users : Table User := default
  tenants : Table Tenant := default
  channels : Table CompanyLineChannel := default
  units : Table DormUnit := default
  contracts : Table Contract := default
  meters : Table Meter := default
  readings : Table Reading := default
  invoices : Table Invoice := default
  payments : Table Payment := default
  announcements : Table Announcement := default
  auditLogs : Table AuditLog := default

@[simp] theorem key_invoice (i : Invoice) : key i = i.id := rfl
@[simp] theorem key_payment (p : Payment) : key p = p.id := rfl
@[simp] theorem key_announcement (a : Announcement) : key a = a.id := rfl

/-! ## Rows a company sees

Row-level security shows a request the rows of its own company only. -/

namespace Db

def invoice? (db : Db) (company id : Id) : Option Invoice :=
  (db.invoices.find? id).filter fun i => i.companyId = company

def payment? (db : Db) (company id : Id) : Option Payment :=
  (db.payments.find? id).filter fun p => p.companyId = company

def company? (db : Db) (company id : Id) : Option Company :=
  (db.companies.find? id).filter fun c => c.id = company

/-- The company's payment under an idempotency key. -/
def paymentByKey? (db : Db) (company : Id) (idempotencyKey : String) : Option Payment :=
  db.payments.rows.find? fun p => p.companyId = company ∧ p.idempotencyKey = idempotencyKey

/-- The company's confirmed payments of an invoice. -/
def confirmedPayments (db : Db) (company invoiceId : Id) : List Payment :=
  db.payments.rows.filter fun p =>
    p.companyId = company ∧ p.invoiceId = invoiceId ∧ p.status = .confirmed

def announcementByKey? (db : Db) (company : Id) (idempotencyKey : String) : Option Announcement :=
  db.announcements.rows.find? fun a => a.companyId = company ∧ a.idempotencyKey = idempotencyKey

/-- The company's invoices of a period that still occupy their slot. -/
def openInvoices (db : Db) (company : Id) (contractIds : List Id) (period : Period) :
    List Invoice :=
  db.invoices.rows.filter fun i =>
    i.companyId = company ∧ i.contractId ∈ contractIds ∧ i.period = period ∧ i.status ≠ .void

end Db
end Dormitory
