import Dormitory.Schema
import Dormitory.Txn.Alone
import Dormitory.Txn.Machine

/-!
# The database client

The `prisma.*` calls of the services as statements of a transaction, what each
answers and writes, and the errors they raise. Foreign keys to rows the service
has read itself always hold, since nothing here deletes a row; the others are
checked. Two things belong to the server and not to this repository, and are
parameters: how Prisma reports the columns of a violated unique index, and
which strings Postgres reads as an `inet`.
-/

namespace Dormitory
open Txn

/-- `meta.target` of a unique-constraint error. -/
inductive Target where
  | null
  | notAvailable
  | columns (names : List String)
  | constraint (name : String)
  deriving DecidableEq, Repr

inductive HttpStatus where
  | badRequest | notFound | conflict | internal
  deriving DecidableEq, Repr

/-- What a service call can throw: an error of the database client, a Nest
exception (its `error` is empty where the source passes a message only), or a
plain `Error`. -/
inductive Failure where
  | prisma (code : String) (target : Target)
  | http (status : HttpStatus) (error message : String)
  | error (message : String)
  deriving DecidableEq, Repr

/-- A statement's value does not fit its column. -/
def Failure.tooLarge : Failure := .prisma "P2020" .null

def Failure.tooLong : Failure := .prisma "P2000" .null

def Failure.foreignKey : Failure := .prisma "P2003" .null

/-- `update` found no row. -/
def Failure.missing : Failure := .prisma "P2025" .null

/-- 25P02, `current transaction is aborted`. -/
def Failure.aborted : Failure := .prisma "25P02" .null

/-- The columns `payment.update` sets. -/
structure PaymentPatch where
  status : PaymentStatus
  confirmedAt : Option Instant := none
  confirmedByUserId : Option Id := none
  rejectionReason : Option String := none
  deriving DecidableEq, Repr

def PaymentPatch.apply (d : PaymentPatch) (p : Payment) : Payment :=
  { p with
    status := d.status
    confirmedAt := d.confirmedAt <|> p.confirmedAt
    confirmedByUserId := d.confirmedByUserId <|> p.confirmedByUserId
    rejectionReason := d.rejectionReason <|> p.rejectionReason }

/-- The columns `invoice.update` sets. -/
structure InvoicePatch where
  status : InvoiceStatus
  issueDate : Option Instant := none
  promptPayRef : Option String := none
  deriving DecidableEq, Repr

def InvoicePatch.apply (d : InvoicePatch) (i : Invoice) : Invoice :=
  { i with
    status := d.status
    issueDate := d.issueDate.getD i.issueDate
    promptPayRef := d.promptPayRef <|> i.promptPayRef }

@[simp] theorem PaymentPatch.apply_id (d : PaymentPatch) (p : Payment) : (d.apply p).id = p.id :=
  rfl
@[simp] theorem PaymentPatch.apply_companyId (d : PaymentPatch) (p : Payment) :
    (d.apply p).companyId = p.companyId := rfl
@[simp] theorem PaymentPatch.apply_invoiceId (d : PaymentPatch) (p : Payment) :
    (d.apply p).invoiceId = p.invoiceId := rfl
@[simp] theorem PaymentPatch.apply_amount (d : PaymentPatch) (p : Payment) :
    (d.apply p).amount = p.amount := rfl
@[simp] theorem PaymentPatch.apply_status (d : PaymentPatch) (p : Payment) :
    (d.apply p).status = d.status := rfl
@[simp] theorem InvoicePatch.apply_id (d : InvoicePatch) (i : Invoice) : (d.apply i).id = i.id :=
  rfl
@[simp] theorem InvoicePatch.apply_companyId (d : InvoicePatch) (i : Invoice) :
    (d.apply i).companyId = i.companyId := rfl
@[simp] theorem InvoicePatch.apply_total (d : InvoicePatch) (i : Invoice) :
    (d.apply i).total = i.total := rfl
@[simp] theorem InvoicePatch.apply_status (d : InvoicePatch) (i : Invoice) :
    (d.apply i).status = d.status := rfl

/-- An item of a nested `invoice.create`, before its columns round it. -/
structure ItemData where
  companyId : Id
  kind : InvoiceItemKind
  description : String
  quantity : Decimal
  unitPrice : Decimal
  lineTotal : Decimal
  readingId : Option Id
  sortOrder : Nat
  deriving DecidableEq, Repr

structure InvoiceData where
  id : Id
  companyId : Id
  contractId : Id
  unitId : Id
  tenantId : Id
  period : Period
  issueDate : Instant
  dueDate : Instant
  subtotal : Decimal
  total : Decimal
  status : InvoiceStatus
  items : List ItemData
  deriving DecidableEq

def ItemData.store (d : ItemData) : Option InvoiceItem := do
  let quantity ← Numeric.store 12 2 d.quantity
  let unitPrice ← Numeric.store 10 4 d.unitPrice
  let lineTotal ← Numeric.store 10 2 d.lineTotal
  if d.description.length ≤ 255 then
    return ⟨d.companyId, d.kind, d.description, quantity, unitPrice, lineTotal, d.readingId,
      d.sortOrder⟩
  else none

/-- The statements. Every request runs on a connection whose
`app.company_id` is its company, so each statement carries the company. -/
inductive Query where
  | invoiceFindUnique (id : Id)
  | invoiceFindFirst (id tenantId : Id)
  | invoiceFindOpen (contractIds : List Id) (period : Period)
  | invoiceCreate (data : InvoiceData)
  | invoiceUpdate (id : Id) (data : InvoicePatch)
  | paymentFindUnique (id : Id)
  | paymentFindByKey (idempotencyKey : String)
  | paymentFindConfirmed (invoiceId : Id)
  | paymentCreate (data : Payment)
  | paymentUpdate (id : Id) (data : PaymentPatch)
  | companyFindUnique (id : Id)
  | companyFindFirst
  | contractFindUnique (id : Id)
  | contractFindMany (propertyId : Option Id)
  | meterFindMany (unitIds : List Id)
  | readingFindMany (meterIds : List Id) (period : Period)
  | channelFindFirst
  | tenantFindBound
  | announcementFindByKey (idempotencyKey : String)
  | announcementCreate (data : Announcement)
  | auditLogCreate (data : AuditLog)
  deriving DecidableEq

@[reducible] def Query.Ans : Query → Type
  | invoiceFindUnique _ | invoiceFindFirst _ _ => Option Invoice
  | invoiceFindOpen _ _ => List Invoice
  | invoiceCreate _ | invoiceUpdate _ _ => Invoice
  | paymentFindUnique _ | paymentFindByKey _ => Option Payment
  | paymentFindConfirmed _ => List Payment
  | paymentCreate _ | paymentUpdate _ _ => Payment
  | companyFindUnique _ | companyFindFirst => Option Company
  | contractFindUnique _ => Option Contract
  | contractFindMany _ => List (Contract × DormUnit)
  | meterFindMany _ => List Meter
  | readingFindMany _ _ => List Reading
  | channelFindFirst => Option CompanyLineChannel
  | tenantFindBound => List Tenant
  | announcementFindByKey _ => Option Announcement
  | announcementCreate _ => Announcement
  | auditLogCreate _ => AuditLog

structure Statement where
  company : Id
  query : Query
  deriving DecidableEq

/-- A row version written by a statement. -/
inductive Row where
  | invoice (r : Invoice)
  | payment (r : Payment)
  | announcement (r : Announcement)
  | auditLog (r : AuditLog)
  deriving DecidableEq

/-- Rows and unique-index entries that a write locks. -/
inductive Lock where
  | invoice (id : Id)
  | invoiceSlot (contractId : Id) (period : Period)
  | payment (id : Id)
  | paymentKey (companyId : Id) (idempotencyKey : String)
  | announcement (id : Id)
  | announcementKey (companyId : Id) (idempotencyKey : String)
  | auditLog (id : Id)
  deriving DecidableEq

def Row.apply (db : Db) : Row → Db
  | invoice r => { db with invoices := db.invoices.put r }
  | payment r => { db with payments := db.payments.put r }
  | announcement r => { db with announcements := db.announcements.put r }
  | auditLog r => { db with auditLogs := db.auditLogs.put r }

/-- A void invoice is in no partial unique index. -/
def Row.locks : Row → List Lock
  | invoice r =>
    .invoice r.id :: if r.status = .void then [] else [.invoiceSlot r.contractId r.period]
  | payment r => [.payment r.id, .paymentKey r.companyId r.idempotencyKey]
  | announcement r => [.announcement r.id, .announcementKey r.companyId r.idempotencyKey]
  | auditLog r => [.auditLog r.id]

/-- The parts of the server that are not in this repository. -/
structure Server where
  report : List String → Target
  inet : String → Bool

/-- Prisma names the columns of a violated index by their database names, or
says that it does not know them. -/
def Server.Reports (S : Server) (columns : List String) : Prop :=
  S.report columns = .columns columns ∨ S.report columns = .notAvailable

/-- The contract's slot for the period is taken by an invoice that is not void. -/
def Db.slotTaken (db : Db) (contractId : Id) (period : Period) : Prop :=
  ∃ i ∈ db.invoices.rows, i.contractId = contractId ∧ i.period = period ∧ i.status ≠ .void

instance (db : Db) (contractId : Id) (period : Period) :
    Decidable (db.slotTaken contractId period) :=
  inferInstanceAs (Decidable (∃ i ∈ db.invoices.rows, _))

namespace Server

/-- `invoice.create` with nested items: the invoice row first (its columns,
then its indexes), then the items. -/
def createInvoice (S : Server) (d : InvoiceData) (db : Db) : Except Failure (List Row × Invoice) :=
  match Numeric.store 10 2 d.subtotal, Numeric.store 10 2 d.total with
  | some subtotal, some total =>
    if (db.invoices.find? d.id).isSome then .error (.prisma "P2002" (S.report ["id"]))
    else if d.status ≠ .void ∧ db.slotTaken d.contractId d.period then
      .error (.prisma "P2002" (S.report ["contract_id", "period"]))
    else match d.items.mapM ItemData.store with
      | some items =>
        if ∀ i ∈ items, ∀ r ∈ i.readingId, (db.readings.find? r).isSome then
          let r : Invoice := ⟨d.id, d.companyId, d.contractId, d.unitId, d.tenantId, d.period,
            d.issueDate, d.dueDate, subtotal, total, d.status, none, items⟩
          .ok ([.invoice r], r)
        else .error .foreignKey
      | none => .error .tooLarge
  | _, _ => .error .tooLarge

def createPayment (S : Server) (r : Payment) (db : Db) : Except Failure (List Row × Payment) :=
  if (db.payments.find? r.id).isSome then .error (.prisma "P2002" (S.report ["id"]))
  else if (db.paymentByKey? r.companyId r.idempotencyKey).isSome then
    .error (.prisma "P2002" (S.report ["company_id", "idempotency_key"]))
  else .ok ([.payment r], r)

def createAnnouncement (S : Server) (r : Announcement) (db : Db) :
    Except Failure (List Row × Announcement) :=
  if (db.announcements.find? r.id).isSome then .error (.prisma "P2002" (S.report ["id"]))
  else if (db.announcementByKey? r.companyId r.idempotencyKey).isSome then
    .error (.prisma "P2002" (S.report ["company_id", "idempotency_key"]))
  else if (db.users.find? r.createdByUserId).isNone then .error .foreignKey
  else .ok ([.announcement r], r)

def updatePayment (c id : Id) (data : PaymentPatch) (db : Db) :
    Except Failure (List Row × Payment) :=
  match db.payment? c id with
  | none => .error .missing
  | some p =>
    if ∀ u ∈ data.confirmedByUserId, (db.users.find? u).isSome then
      .ok ([.payment (data.apply p)], data.apply p)
    else .error .foreignKey

/-- The audit row fits its columns and names an existing user. -/
def AuditFits (S : Server) (r : AuditLog) (db : Db) : Prop :=
  r.action.length ≤ 64 ∧ r.resource.length ≤ 64 ∧ (∀ u ∈ r.userAgent, u.length ≤ 512) ∧
  (∀ ip ∈ r.ipAddress, S.inet ip) ∧ (∀ u ∈ r.actorUserId, (db.users.find? u).isSome)

instance (S : Server) (r : AuditLog) (db : Db) : Decidable (S.AuditFits r db) :=
  inferInstanceAs (Decidable (_ ∧ _ ∧ _ ∧ _ ∧ _))

def createAuditLog (S : Server) (r : AuditLog) (db : Db) : Except Failure (List Row × AuditLog) :=
  if S.AuditFits r db then
    if (db.auditLogs.find? r.id).isSome then .error (.prisma "P2002" (S.report ["id"]))
    else .ok ([.auditLog r], r)
  else .error .tooLong

/-- One statement under the row-level security of company `c`. -/
def run (S : Server) (c : Id) : (q : Query) → Db → Except Failure (List Row × q.Ans)
  | .invoiceFindUnique id, db => .ok ([], db.invoice? c id)
  | .invoiceFindFirst id tenantId, db =>
    .ok ([], (db.invoice? c id).filter fun i => i.tenantId = tenantId)
  | .invoiceFindOpen contractIds period, db => .ok ([], db.openInvoices c contractIds period)
  | .invoiceCreate data, db => S.createInvoice data db
  | .invoiceUpdate id data, db =>
    match db.invoice? c id with
    | some i => .ok ([.invoice (data.apply i)], data.apply i)
    | none => .error .missing
  | .paymentFindUnique id, db => .ok ([], db.payment? c id)
  | .paymentFindByKey idempotencyKey, db => .ok ([], db.paymentByKey? c idempotencyKey)
  | .paymentFindConfirmed invoiceId, db => .ok ([], db.confirmedPayments c invoiceId)
  | .paymentCreate data, db => S.createPayment data db
  | .paymentUpdate id data, db => updatePayment c id data db
  | .companyFindUnique id, db => .ok ([], (db.company? c id))
  | .companyFindFirst, db => .ok ([], db.company? c c)
  | .contractFindUnique id, db =>
    .ok ([], (db.contracts.find? id).filter fun k => k.companyId = c)
  | .contractFindMany propertyId, db =>
    .ok ([], db.contracts.rows.filterMap fun k =>
      if k.companyId = c then
        (db.units.find? k.unitId).bind fun u =>
          if propertyId = none ∨ propertyId = some u.propertyId then some (k, u) else none
      else none)
  | .meterFindMany unitIds, db =>
    .ok ([], db.meters.rows.filter fun m => m.companyId = c ∧ m.unitId ∈ unitIds)
  | .readingFindMany meterIds period, db =>
    .ok ([], db.readings.rows.filter fun r =>
      r.companyId = c ∧ r.meterId ∈ meterIds ∧ r.period = period)
  | .channelFindFirst, db => .ok ([], db.channels.rows.find? fun h => h.companyId = c)
  | .tenantFindBound, db =>
    .ok ([], db.tenants.rows.filter fun t =>
      t.companyId = c ∧ t.status = .active ∧ t.lineUserId ≠ none)
  | .announcementFindByKey idempotencyKey, db => .ok ([], db.announcementByKey? c idempotencyKey)
  | .announcementCreate data, db => S.createAnnouncement data db
  | .auditLogCreate data, db => S.createAuditLog data db

end Server

/-! ## Jobs -/

/-- `LineNotificationJobData`. -/
inductive Job where
  | invoice_issued (companyId : Id) (companySlug : String) (tenantId invoiceId : Id)
      (period : Period) (totalAmount dueDate : String)
  | payment_approved (companyId : Id) (companySlug : String) (tenantId invoiceId : Id)
      (period : Period)
  | payment_rejected (companyId : Id) (companySlug : String) (tenantId invoiceId : Id)
      (period : Period) (reason : String)
  | announcement (companyId : Id) (companySlug : String) (tenantId announcementId : Id)
      (title body : String) (totalRecipients : Nat)
  deriving DecidableEq

@[reducible] def billing : Sig where
  Stmt := Statement
  Ans s := s.query.Ans
  Err := Failure
  St := Db
  Write := Row
  Lock := Lock
  Job := Job

def engine (S : Server) : Engine billing where
  exec s db := S.run s.company s.query db
  apply := Row.apply
  locks := Row.locks
  aborted := .aborted
  noSavepoint := .prisma "3B001" .null
  queueDown := .error "Connection is closed."

/-- A service call inside a request's transaction. -/
abbrev Call (α : Type) := Prog billing α

/-- The request's context: `getTenantContext()`. -/
structure Ctx where
  companyId : Id
  deriving DecidableEq, Repr

/-- `prisma.*`, on the connection of the request. -/
def prisma (ctx : Ctx) (q : Query) : Call q.Ans := @Prog.query billing ⟨ctx.companyId, q⟩

section
variable {α : Type} (S : Server) (ctx : Ctx) (q : Query)

theorem prisma_bind (f : q.Ans → Call α) :
    prisma ctx q >>= f = @Prog.sql billing α ⟨ctx.companyId, q⟩ fun r => Prog.uncaught r >>= f :=
      rfl

theorem exec_broken (db : Db) {x : Session billing} (h : x.broken = true) :
    x.exec (engine S) db ⟨ctx.companyId, q⟩ = (x, .error .aborted) :=
  Session.exec_broken h

theorem exec_ok (db : Db) {x : Session billing} (h : x.broken = false) {ws : List Row} {a : q.Ans}
    (hr : S.run ctx.companyId q (x.view (engine S) db) = .ok (ws, a)) :
    x.exec (engine S) db ⟨ctx.companyId, q⟩ =
      ({ x with
          writes := x.writes ++ ws
          trace := x.trace ++ [(⟨ctx.companyId, q⟩, x.view (engine S) db)] }, .ok a) :=
  Session.exec_ok h hr

theorem exec_error (db : Db) {x : Session billing} (h : x.broken = false) {e : Failure}
    (hr : S.run ctx.companyId q (x.view (engine S) db) = .error e) :
    x.exec (engine S) db ⟨ctx.companyId, q⟩ = ({ x with broken := true }, .error e) :=
  Session.exec_error h hr

/-- A statement of a program that goes through. -/
theorem runIn_prisma (env : Env billing) (f : q.Ans → Call α) (n : Nat) {ws ws' : List Row}
    {sv : List (String × List Row)} {tr : List (Statement × Db)} {a : q.Ans}
    (hr : S.run ctx.companyId q (ws.foldl Row.apply (env.db n)) = .ok (ws', a)) :
    (prisma ctx q >>= f).runIn (engine S) env n ⟨ws, sv, false, tr⟩ =
      (f a).runIn (engine S) env (n + 1)
        ⟨ws ++ ws', sv, false, tr ++ [(⟨ctx.companyId, q⟩, ws.foldl Row.apply (env.db n))]⟩ :=
  Prog.runIn_query (engine S) env n hr

theorem runIn_prisma_error (env : Env billing) (f : q.Ans → Call α) (n : Nat) {ws : List Row}
    {sv : List (String × List Row)} {tr : List (Statement × Db)} {e : Failure}
    (hr : S.run ctx.companyId q (ws.foldl Row.apply (env.db n)) = .error e) :
    (prisma ctx q >>= f).runIn (engine S) env n ⟨ws, sv, false, tr⟩ =
      ⟨.error e, ⟨ws, sv, true, tr⟩, n + 1⟩ :=
  Prog.runIn_query_error (engine S) env n hr

end

/-! ## A small dormitory

One company with a configured PromptPay id, its admin, two tenants and a LINE
channel: the data on which concrete runs are evaluated. -/

namespace Demo

def server : Server where
  report names := .columns names
  inet s := s.toList.all fun c => c.isDigit || c = '.'

def ctx : Ctx := ⟨1⟩

def april : Period := ⟨2026, 4, by decide⟩

/-- An amount that the column keeps. -/
def baht (n : Nat) : Numeric 10 2 := ⟨(n * 100 % 10 ^ 10 : Nat), by omega⟩

def invoice (id tenantId : Id) (total : Numeric 10 2) (status : InvoiceStatus) : Invoice where
  id := id
  companyId := 1
  contractId := 100 + id
  unitId := 200 + id
  tenantId := tenantId
  period := april
  issueDate := 0
  dueDate := 0
  subtotal := total
  total := total
  status := status
  promptPayRef := none
  items := []

def payment (id invoiceId tenantId : Id) (amount : Numeric 10 2) (idempotencyKey : String) :
    Payment where
  id := id
  companyId := 1
  invoiceId := invoiceId
  tenantId := tenantId
  amount := amount
  method := .cash
  status := .pending
  paidAt := none
  confirmedAt := none
  confirmedByUserId := none
  rejectionReason := none
  idempotencyKey := idempotencyKey

def db (invoices : List Invoice) (payments : List Payment) : Db where
  companies := Table.put default ⟨1, "acme", some "0812345678"⟩
  users := Table.put default ⟨7, 1⟩
  tenants := (Table.put default ⟨11, 1, some "U11", .active⟩).put ⟨12, 1, some "U12", .active⟩
  channels := Table.put default ⟨9, 1⟩
  invoices := invoices.foldl Table.put default
  payments := payments.foldl Table.put default

end Demo
end Dormitory
