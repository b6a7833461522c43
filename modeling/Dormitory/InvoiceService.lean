import Dormitory.Date
import Dormitory.Notification
import Dormitory.PromptPay
import Dormitory.PaymentService

/-!
# InvoiceService

`modules/billing/invoice.service.ts`: single invoices and the monthly batch.
Fresh primary keys and the clock are arguments, as in `PaymentService`.
-/

namespace Dormitory

structure CreateInvoiceItem where
  kind : InvoiceItemKind
  description : String
  quantity : Decimal
  unitPrice : Decimal
  readingId : Option Id
  sortOrder : Option Nat
  deriving DecidableEq

structure CreateInvoiceInput where
  contractId : Id
  period : Period
  dueDate : Instant
  items : List CreateInvoiceItem
  deriving DecidableEq

structure BatchAdditionalItem where
  kind : InvoiceItemKind
  description : String
  quantity : Decimal
  unitPrice : Decimal
  deriving DecidableEq

structure BatchGenerateInvoicesInput where
  period : Period
  propertyId : Option Id
  dueDayOfMonth : Nat
  additionalItems : List BatchAdditionalItem
  deriving DecidableEq

inductive BatchSkipReason where
  | missing_water_reading | missing_electric_reading | duplicate_invoice | inactive_contract
  | no_active_contract
  deriving DecidableEq, Repr

structure Skip where
  unitId : Id
  contractId : Id
  reason : BatchSkipReason
  deriving DecidableEq, Repr

structure BatchGenerateInvoicesResult where
  generatedInvoiceIds : List Id
  skipped : List Skip
  deriving DecidableEq, Repr

def InvoiceStatus.toString : InvoiceStatus → String
  | draft => "draft"
  | issued => "issued"
  | partially_paid => "partially_paid"
  | paid => "paid"
  | void => "void"
  | overdue => "overdue"

namespace InvoiceService
open Txn

/-- The file's own `isUniqueConstraintError`: a target that Prisma could not
name is no match. -/
def isUniqueConstraintError (err : Failure) (columns : List String) : Bool :=
  match err with
  | .prisma "P2002" (.columns names) => columns.all fun c => names.any fun t => includes t c
  | .prisma "P2002" (.constraint name) => columns.all fun c => includes name c
  | .prisma "P2002" .notAvailable => columns.all fun c => includes "(not available)" c
  | _ => false

def getById (ctx : Ctx) (id : Id) : Call Invoice := do
  let row ← prisma ctx (.invoiceFindUnique id)
  match row with
  | none => Prog.throw (.http .notFound "" s!"Invoice {id} not found")
  | some row => pure row

def lineItems (ctx : Ctx) (items : List CreateInvoiceItem) : List ItemData :=
  items.zipIdx.map fun (it, idx) =>
    { companyId := ctx.companyId
      kind := it.kind
      description := it.description
      quantity := it.quantity
      unitPrice := it.unitPrice
      lineTotal := satang (toStorage (moneyMul it.quantity it.unitPrice))
      readingId := it.readingId
      sortOrder := it.sortOrder.getD idx }

/-- `toStorage(moneySum(items.map((i) => i.lineTotal)))`. -/
def subtotal (items : List ItemData) : Decimal :=
  satang (toStorage (moneySum (items.map ItemData.lineTotal)))

def create (ctx : Ctx) (newId : Id) (now : Instant) (input : CreateInvoiceInput) :
    Call Invoice := do
  let contract ← prisma ctx (.contractFindUnique input.contractId)
  match contract with
  | none =>
    Prog.throw (.http .badRequest "InvalidContractId"
      s!"Contract {input.contractId} does not exist or is not accessible")
  | some contract =>
    let items := lineItems ctx input.items
    Prog.attempt
      (prisma ctx (.invoiceCreate
        { id := newId, companyId := ctx.companyId, contractId := contract.id
          unitId := contract.unitId, tenantId := contract.tenantId, period := input.period
          issueDate := now, dueDate := input.dueDate, subtotal := subtotal items
          total := subtotal items, status := .draft, items := items }))
      fun err =>
        if isUniqueConstraintError err ["contract_id", "period"] then
          Prog.throw (.http .conflict "DuplicateInvoice"
            s!"Contract {contract.id} already has an invoice for {input.period.toString}")
        else Prog.throw err

def invoiceNotDraft (status : InvoiceStatus) : Failure :=
  .http .conflict "InvoiceNotDraft"
    ("Cannot issue invoice in status \"" ++ status.toString ++ "\" (only draft → issued)")

def issue (ctx : Ctx) (now : Instant) (id : Id) : Call Invoice := do
  let existing ← getById ctx id
  if existing.status = .issued then pure existing
  else if existing.status ≠ .draft then Prog.throw (invoiceNotDraft existing.status)
  else
    let company ← prisma ctx (.companyFindUnique ctx.companyId)
    match company with
    | none => Prog.throw promptPayNotConfigured
    | some company =>
      match company.promptPayId with
      | none => Prog.throw promptPayNotConfigured
      | some promptPayId =>
        -- The source tests truthiness: an empty id counts as none.
        if promptPayId = "" then Prog.throw promptPayNotConfigured
        else match
            PromptPay.generatePromptPayPayload promptPayId (some existing.total.toDecimal) with
          | .error message => Prog.throw (.error message)
          | .ok promptPayRef =>
            let row ← prisma ctx (.invoiceUpdate id
              { status := .issued, issueDate := some now, promptPayRef := some promptPayRef })
            NotificationService.enqueueInvoiceIssued ctx.companyId company.slug row.tenantId row.id
              row.period row.total.toString row.dueDate.isoDate
            pure row
where
  promptPayNotConfigured : Failure :=
    .http .badRequest "PromptPayNotConfigured"
      "Company has no PromptPay ID configured — set it before issuing invoices"

def void (ctx : Ctx) (id : Id) : Call Invoice := do
  let existing ← getById ctx id
  if existing.status = .void then pure existing
  else if existing.status = .paid then
    Prog.throw (.http .conflict "InvoicePaid"
      "Cannot void a paid invoice — use a refund flow instead")
  else prisma ctx (.invoiceUpdate id { status := .void })

/-! ## Batch generation -/

def computeDueDate (period : Period) (dueDayOfMonth : Nat) : Instant :=
  fromBangkok period.next.1 period.next.2 dueDayOfMonth

/-- `readingByMeterId.get(meterId)`: a `Map` keeps the last reading put. -/
def readingOf (readings : List Reading) (meterId : Id) : Option Reading :=
  readings.reverse.find? fun r => r.meterId = meterId

/-- The unit has a meter of the kind and no reading of it. -/
def readingMissing (meters : List Meter) (readings : List Reading) (kind : MeterKind) : Bool :=
  match meters.find? fun m => m.kind = kind with
  | some meter => (readingOf readings meter.id).isNone
  | none => false

def findMissingReadingReason (meters : List Meter) (readings : List Reading) :
    Option BatchSkipReason :=
  if readingMissing meters readings .water then some .missing_water_reading
  else if readingMissing meters readings .electric then some .missing_electric_reading
  else none

/-- The item of one meter kind, without its place in the order. -/
def meterItem (ctx : Ctx) (period : Period) (meters : List Meter) (readings : List Reading)
    (kind : MeterKind) : Option (Nat → ItemData) := do
  let meter ← meters.find? fun m => m.kind = kind
  let reading ← readingOf readings meter.id
  let quantity := reading.consumption.toString
  some fun sortOrder =>
    { companyId := ctx.companyId
      kind := match kind with | .water => .water | .electric => .electric
      description := match kind with
        | .water => s!"ค่าน้ำประปา {quantity} {meter.unitOfMeasure} ({period.toString})"
        | .electric => s!"ค่าไฟฟ้า {quantity} {meter.unitOfMeasure} ({period.toString})"
      quantity := reading.consumption.toDecimal
      unitPrice := meter.ratePerUnit.toDecimal
      lineTotal := satang (toStorage
        (moneyMul reading.consumption.toDecimal meter.ratePerUnit.toDecimal))
      readingId := some reading.id
      sortOrder := sortOrder }

def rentItem (ctx : Ctx) (period : Period) (rentAmount : Numeric 10 2) (unitNumber : String)
    (sortOrder : Nat) : ItemData where
  companyId := ctx.companyId
  kind := .rent
  description := s!"ค่าเช่าห้อง {unitNumber} ({period.toString})"
  quantity := ⟨100, 2⟩
  unitPrice := rentAmount.toDecimal
  lineTotal := satang (toStorage rentAmount.toDecimal)
  readingId := none
  sortOrder := sortOrder

def additionalItem (ctx : Ctx) (add : BatchAdditionalItem) (sortOrder : Nat) : ItemData where
  companyId := ctx.companyId
  kind := add.kind
  description := add.description
  quantity := add.quantity
  unitPrice := add.unitPrice
  lineTotal := satang (toStorage (moneyMul add.quantity add.unitPrice))
  readingId := none
  sortOrder := sortOrder

/-- Rent, water, electricity, additional fees; numbered as they come. -/
def buildBatchItems (ctx : Ctx) (period : Period) (rentAmount : Numeric 10 2) (unitNumber : String)
    (meters : List Meter) (readings : List Reading) (additional : List BatchAdditionalItem) :
    List ItemData :=
  let items := rentItem ctx period rentAmount unitNumber ::
    ([MeterKind.water, .electric].filterMap (meterItem ctx period meters readings) ++
      additional.map (additionalItem ctx))
  items.zipIdx.map fun (it, sortOrder) => it sortOrder

/-- What the batch decides for one contract before it inserts anything. -/
inductive Plan where
  | skip (reason : BatchSkipReason)
  | generate (items : List ItemData)

def plan (ctx : Ctx) (input : BatchGenerateInvoicesInput) (existing : List Invoice)
    (meters : List Meter) (readings : List Reading) (c : Contract) (u : DormUnit) : Plan :=
  if c.status ≠ .active then .skip .inactive_contract
  else if existing.any fun i => i.contractId = c.id then .skip .duplicate_invoice
  else
    let unitMeters := meters.filter fun m => m.unitId = c.unitId
    match findMissingReadingReason unitMeters readings with
    | some reason => .skip reason
    | none => .generate (buildBatchItems ctx input.period c.rentAmount u.unitNumber unitMeters
        readings input.additionalItems)

/-- The invoice the batch inserts for a contract. -/
def batchInvoice (ctx : Ctx) (newId : Id) (now : Instant) (input : BatchGenerateInvoicesInput)
    (c : Contract) (items : List ItemData) : InvoiceData where
  id := newId
  companyId := ctx.companyId
  contractId := c.id
  unitId := c.unitId
  tenantId := c.tenantId
  period := input.period
  issueDate := now
  dueDate := computeDueDate input.period input.dueDayOfMonth
  subtotal := subtotal items
  total := subtotal items
  status := .draft
  items := items

/-- The guarded INSERT of the loop: `none` stands for a duplicate that is skipped. -/
def insertDraft (ctx : Ctx) (data : InvoiceData) : Call (Option Id) :=
  Prog.attempt
    (do
      let created ← prisma ctx (.invoiceCreate data)
      pure (some created.id))
    fun err =>
      if isUniqueConstraintError err ["contract_id", "period"] then pure none
      else Prog.throw err

/-- The apply loop. `newId` gives the primary key drawn for each contract. -/
def applyBatch (ctx : Ctx) (newId : Id → Id) (now : Instant) (input : BatchGenerateInvoicesInput)
    (decide : Contract → DormUnit → Plan) :
    List (Contract × DormUnit) → BatchGenerateInvoicesResult → Call BatchGenerateInvoicesResult
  | [], acc => pure acc
  | (c, u) :: rest, acc =>
    match decide c u with
    | .skip reason =>
      applyBatch ctx newId now input decide rest
        { acc with skipped := acc.skipped ++ [⟨c.unitId, c.id, reason⟩] }
    | .generate items => do
      let created ← insertDraft ctx (batchInvoice ctx (newId c.id) now input c items)
      match created with
      | some id =>
        applyBatch ctx newId now input decide rest
          { acc with generatedInvoiceIds := acc.generatedInvoiceIds ++ [id] }
      | none =>
        applyBatch ctx newId now input decide rest
          { acc with skipped := acc.skipped ++ [⟨c.unitId, c.id, .duplicate_invoice⟩] }

def createBatch (ctx : Ctx) (newId : Id → Id) (now : Instant)
    (input : BatchGenerateInvoicesInput) : Call BatchGenerateInvoicesResult := do
  let contracts ← prisma ctx (.contractFindMany input.propertyId)
  if contracts.isEmpty then pure ⟨[], []⟩
  else
    let existing ← prisma ctx (.invoiceFindOpen (contracts.map fun k => k.1.id) input.period)
    let meters ← prisma ctx (.meterFindMany (contracts.map fun k => k.1.unitId))
    let readings ← prisma ctx (.readingFindMany (meters.map Meter.id) input.period)
    applyBatch ctx newId now input (plan ctx input existing meters readings) contracts ⟨[], []⟩

end InvoiceService
end Dormitory
