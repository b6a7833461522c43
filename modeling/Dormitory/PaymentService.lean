import Dormitory.Notification

/-!
# PaymentService

`modules/billing/payment.service.ts`. A call runs inside `withTenant`, so its
context is always there. What the source takes from its surroundings (the
fresh primary key of an insert, the clock) is an argument.
-/

namespace Dormitory

/-- `String.prototype.includes`. -/
def includes (s sub : String) : Bool := sub.toList <:+: s.toList

/-- `CreatePaymentInput`; `moneySchema` gives the amount the width of its
column. -/
structure CreatePaymentInput where
  invoiceId : Id
  amount : Numeric 10 2
  method : PaymentMethod
  paidAt : Option Instant
  deriving DecidableEq

namespace PaymentService
open Txn

/-- The file's own `isUniqueConstraintError`: a target that Prisma could not
name counts as a match. -/
def isUniqueConstraintError (err : Failure) (columns : List String) : Bool :=
  match err with
  | .prisma "P2002" .null => true
  | .prisma "P2002" .notAvailable => true
  | .prisma "P2002" (.columns names) => columns.all fun c => names.any fun t => includes t c
  | .prisma "P2002" (.constraint name) => columns.all fun c => includes name c
  | _ => false

def getById (ctx : Ctx) (id : Id) : Call Payment := do
  let row ← prisma ctx (.paymentFindUnique id)
  match row with
  | none => Prog.throw (.http .notFound "" s!"Payment {id} not found")
  | some row => pure row

/-- What `create` does with the error of its INSERT, back at the savepoint. -/
def existingOrRethrow (ctx : Ctx) (idempotencyKey : String) (err : Failure) : Call Payment := do
  if isUniqueConstraintError err ["company_id", "idempotency_key"] then
    let existing ← prisma ctx (.paymentFindByKey idempotencyKey)
    match existing with
    | some existing => pure existing
    | none => Prog.throw err
  else Prog.throw err

/-- The guarded INSERT of `create`. -/
def insertOnce (ctx : Ctx) (row : Payment) : Call Payment :=
  Prog.attempt
    (do
      let row ← prisma ctx (.paymentCreate row)
      Prog.control (.release "idempotent_payment_create")
      pure row)
    fun err => do
      Prog.control (.rollbackTo "idempotent_payment_create")
      existingOrRethrow ctx row.idempotencyKey err

/-- The row `create` inserts. -/
def pendingRow (ctx : Ctx) (id : Id) (invoice : Invoice) (input : CreatePaymentInput)
    (idempotencyKey : String) : Payment where
  id := id
  companyId := ctx.companyId
  invoiceId := invoice.id
  tenantId := invoice.tenantId
  amount := input.amount
  method := input.method
  status := .pending
  paidAt := input.paidAt
  confirmedAt := none
  confirmedByUserId := none
  rejectionReason := none
  idempotencyKey := idempotencyKey

def invalidInvoiceId (id : Id) : Failure :=
  .http .badRequest "InvalidInvoiceId" s!"Invoice {id} does not exist or is not accessible"

/-- The guards of `create`, in the order the source makes them. -/
def refusal (invoice : Invoice) (input : CreatePaymentInput) : Option Failure :=
  if invoice.status = .draft then
    some (.http .conflict "InvoiceNotIssued" "Cannot pay a draft invoice — issue it first")
  else if invoice.status = .void then
    some (.http .conflict "InvoiceVoid" "Cannot pay a voided invoice")
  else if input.amount.units ≤ 0 then
    some (.http .badRequest "InvalidAmount" "Payment amount must be greater than zero")
  else none

/-- `newId` is the primary key the database draws. -/
def create (ctx : Ctx) (newId : Id) (input : CreatePaymentInput) (idempotencyKey : String) :
    Call Payment := do
  let invoice ← prisma ctx (.invoiceFindUnique input.invoiceId)
  match invoice with
  | none => Prog.throw (invalidInvoiceId input.invoiceId)
  | some invoice =>
    match refusal invoice input with
    | some err => Prog.throw err
    | none =>
      let replay ← prisma ctx (.paymentFindByKey idempotencyKey)
      match replay with
      | some replay => pure replay
      | none =>
        Prog.control (.savepoint "idempotent_payment_create")
        insertOnce ctx (pendingRow ctx newId invoice input idempotencyKey)

def createForTenant (ctx : Ctx) (newId : Id) (input : CreatePaymentInput)
    (idempotencyKey : String) (tenantId : Id) : Call Payment := do
  let invoice ← prisma ctx (.invoiceFindFirst input.invoiceId tenantId)
  match invoice with
  | none => Prog.throw (invalidInvoiceId input.invoiceId)
  | some _ => create ctx newId input idempotencyKey

/-- The status the confirmed amounts call for; `none` leaves the old one. -/
def nextStatus (total : Numeric 10 2) (confirmed : List Payment) : Option InvoiceStatus :=
  let paidTotal := toStorage (moneySum (confirmed.map fun p => p.amount.toDecimal))
  let outstanding := toStorage (moneySub total.toDecimal (satang paidTotal))
  if outstanding ≤ 0 then some .paid
  else if paidTotal > 0 then some .partially_paid
  else none

def recomputeInvoiceStatus (ctx : Ctx) (invoiceId : Id) : Call Unit := do
  let invoice ← prisma ctx (.invoiceFindUnique invoiceId)
  match invoice with
  | none => pure ()
  | some invoice =>
    if invoice.status = .void then pure ()
    else
      let confirmedPayments ← prisma ctx (.paymentFindConfirmed invoiceId)
      match nextStatus invoice.total confirmedPayments with
      | none => pure ()
      | some next =>
        if next = invoice.status then pure ()
        else do
          let _ ← prisma ctx (.invoiceUpdate invoiceId { status := next })
          pure ()

inductive Verdict where
  | approved
  | rejected (reason : String)
  deriving DecidableEq

def enqueuePaymentNotification (ctx : Ctx) (invoiceId : Id) (kind : Verdict) : Call Unit := do
  let invoice ← prisma ctx (.invoiceFindUnique invoiceId)
  let company ← prisma ctx (.companyFindUnique ctx.companyId)
  match invoice, company with
  | some invoice, some company =>
    match kind with
    | .approved =>
      NotificationService.enqueuePaymentApproved ctx.companyId company.slug invoice.tenantId
        invoiceId invoice.period
    | .rejected reason =>
      NotificationService.enqueuePaymentRejected ctx.companyId company.slug invoice.tenantId
        invoiceId invoice.period reason
  | _, _ => pure ()

def confirm (ctx : Ctx) (now : Instant) (id confirmedByUserId : Id) : Call Payment := do
  let existing ← getById ctx id
  match existing.status with
  | .confirmed => pure existing
  | .rejected =>
    Prog.throw (.http .conflict "PaymentAlreadyRejected"
      "Cannot confirm a rejected payment — create a new one")
  | .pending =>
    let payment ← prisma ctx (.paymentUpdate id
      { status := .confirmed
        confirmedAt := some now
        confirmedByUserId := some confirmedByUserId })
    recomputeInvoiceStatus ctx payment.invoiceId
    enqueuePaymentNotification ctx payment.invoiceId .approved
    pure payment

def reject (ctx : Ctx) (id : Id) (rejectionReason : String) : Call Payment := do
  let existing ← getById ctx id
  match existing.status with
  | .rejected => pure existing
  | .confirmed =>
    Prog.throw (.http .conflict "PaymentAlreadyConfirmed"
      "Cannot reject a confirmed payment — use a refund flow instead")
  | .pending =>
    let updated ← prisma ctx (.paymentUpdate id
      { status := .rejected, rejectionReason := some rejectionReason })
    enqueuePaymentNotification ctx updated.invoiceId (.rejected rejectionReason)
    pure updated

end PaymentService
end Dormitory
