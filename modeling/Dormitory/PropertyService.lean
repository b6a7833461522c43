import Dormitory.Premises

/-!
# PropertyService, UnitService, TenantService and SlipService

The calls of these four services that write, and `update` of
`billing/invoice.service.ts`. Fresh primary keys are arguments, and so are the
answers of `pgcrypto` and of the object store. The plan-limit warnings, which nobody
waits for, and the counts that they are given, which change no answer, are left out.
-/

namespace Dormitory

def PaymentStatus.toString : PaymentStatus → String
  | pending => "pending"
  | confirmed => "confirmed"
  | rejected => "rejected"

namespace Premises
open Txn

/-- `isUniqueConstraintError` of the unit, tenant and slip services. -/
def isUniqueConstraintError (err : Failure) (column : String) : Bool :=
  match err with
  | .prisma "P2002" (.columns names) => names.any fun t => includes t column
  | .prisma "P2002" (.constraint name) => includes name column
  | .prisma "P2002" .notAvailable => includes "(not available)" column
  | _ => false

/-- A `catch` that names the violated index to the client, and rethrows any
other error. -/
def catchUnique {α : Type} (taken : Failure → Bool) (error message : String) (p : Prog premises α) :
    Prog premises α :=
  p.attempt fun err =>
    if taken err then Prog.throw (.http .conflict error message) else Prog.throw err

/-- A row that row-level security may hide. -/
def orThrow {α : Type} (err : Failure) : Option α → Prog premises α
  | none => Prog.throw err
  | some row => pure row

structure CreatePropertyInput where
  slug : String
  name : String
  address : Option String
  deriving DecidableEq

namespace PropertyService

/-- The file's own: of a list of columns it asks for the first word only. -/
def isUniqueConstraintError (err : Failure) (indexFragment : String) : Bool :=
  match err with
  | .prisma "P2002" (.columns names) =>
    names.any fun t => includes t ((indexFragment.splitOn "_").headD "")
  | .prisma "P2002" (.constraint name) => includes name indexFragment
  | .prisma "P2002" .notAvailable => includes "(not available)" indexFragment
  | _ => false

def catchSlugTaken {α : Type} (slug : String) : Prog premises α → Prog premises α :=
  catchUnique (isUniqueConstraintError · "companyId_slug") "PropertySlugTaken"
    ("A property with slug \"" ++ slug ++ "\" already exists in this company")

def getById (ctx : Ctx) (id : Id) : Prog premises PropertyRow := do
  let row ← prisma ctx (.propertyFindUnique id)
  orThrow (.http .notFound "" s!"Property {id} not found") row

def create (ctx : Ctx) (newId : Id) (input : CreatePropertyInput) : Prog premises PropertyRow :=
  catchSlugTaken input.slug
    (prisma ctx (.propertyCreate
      { id := newId, companyId := ctx.companyId, slug := input.slug, name := input.name
        address := input.address }))

def update (ctx : Ctx) (id : Id) (input : PropertyPatch) : Prog premises PropertyRow := do
  let _ ← getById ctx id
  catchSlugTaken (input.slug.getD "undefined") (prisma ctx (.propertyUpdate id input))

end PropertyService

structure CreateUnitInput where
  propertyId : Id
  unitNumber : String
  floor : Option Nat
  sizeSqm : Option Decimal
  baseRent : Decimal
  notes : Option String
  deriving DecidableEq

namespace UnitService

def catchNumberTaken {α : Type} (unitNumber : String) : Prog premises α → Prog premises α :=
  catchUnique (isUniqueConstraintError · "unitNumber") "UnitNumberTaken"
    ("Unit number \"" ++ unitNumber ++ "\" already exists in this property")

def getById (ctx : Ctx) (id : Id) : Prog premises UnitRow := do
  let row ← prisma ctx (.unitFindUnique id)
  orThrow (.http .notFound "" s!"Unit {id} not found") row

def assertPropertyVisible (ctx : Ctx) (propertyId : Id) : Prog premises Unit := do
  let found ← prisma ctx (.propertyFindUnique propertyId)
  match found with
  | none =>
    Prog.throw (.http .badRequest "InvalidPropertyId"
      s!"Property {propertyId} does not exist or is not accessible")
  | some _ => pure ()

def create (ctx : Ctx) (newId : Id) (input : CreateUnitInput) : Prog premises UnitRow := do
  assertPropertyVisible ctx input.propertyId
  catchNumberTaken input.unitNumber
    (prisma ctx (.unitCreate
      { id := newId, companyId := ctx.companyId, propertyId := input.propertyId
        unitNumber := input.unitNumber, floor := input.floor.getD 1, baseRent := input.baseRent
        sizeSqm := input.sizeSqm, notes := input.notes }))

def update (ctx : Ctx) (id : Id) (input : UnitPatch) : Prog premises UnitRow := do
  let _ ← getById ctx id
  match input.propertyId with
  | none => pure ()
  | some propertyId => assertPropertyVisible ctx propertyId
  catchNumberTaken (input.unitNumber.getD "undefined") (prisma ctx (.unitUpdate id input))

end UnitService

namespace PiiCryptoService

def encrypt (ctx : Ctx) : Option String → Prog premises (Option String)
  | none => pure none
  | some plaintext => do
    let ciphertext ← prisma ctx (.encrypt plaintext)
    if ciphertext = "" then Prog.throw (.error "pgp_sym_encrypt returned an empty result")
    else pure (some ciphertext)

def decrypt (ctx : Ctx) : Option String → Prog premises (Option String)
  | none => pure none
  | some ciphertext => do
    let plaintext ← prisma ctx (.decrypt ciphertext)
    pure (some plaintext)

end PiiCryptoService

structure CreateTenantInput where
  lineUserId : Option String
  displayName : String
  pictureUrl : Option String
  nationalId : Option String
  phone : Option String
  deriving DecidableEq

namespace TenantService
open PiiCryptoService

def catchLineTaken {α : Type} (lineUserId : Option String) : Prog premises α → Prog premises α :=
  catchUnique (isUniqueConstraintError · "lineUserId") "TenantLineUserTaken"
    ("LINE user " ++ lineUserId.getD "" ++ " is already a tenant in this company")

def decryptRow (ctx : Ctx) (row : TenantRow) : Prog premises TenantRow := do
  let nationalId ← decrypt ctx row.nationalId
  let phone ← decrypt ctx row.phone
  pure { row with nationalId := nationalId, phone := phone }

def getById (ctx : Ctx) (id : Id) : Prog premises TenantRow := do
  let row ← prisma ctx (.tenantFindUnique id)
  let row ← orThrow (.http .notFound "" s!"Tenant {id} not found") row
  decryptRow ctx row

def create (ctx : Ctx) (newId : Id) (input : CreateTenantInput) : Prog premises TenantRow := do
  let encNationalId ← encrypt ctx input.nationalId
  let encPhone ← encrypt ctx input.phone
  catchLineTaken input.lineUserId (do
    let row ← prisma ctx (.tenantCreate
      { id := newId, companyId := ctx.companyId, lineUserId := input.lineUserId
        displayName := input.displayName, pictureUrl := input.pictureUrl
        nationalId := encNationalId, phone := encPhone })
    decryptRow ctx row)

def update (ctx : Ctx) (id : Id) (input : TenantPatch) : Prog premises TenantRow := do
  let _ ← getById ctx id
  let encNationalId ← encrypt ctx input.nationalId
  let encPhone ← encrypt ctx input.phone
  catchLineTaken input.lineUserId (do
    let row ← prisma ctx (.tenantUpdate id
      { input with nationalId := encNationalId, phone := encPhone })
    decryptRow ctx row)

end TenantService

structure UploadSlipInput where
  r2ObjectKey : String
  mimeType : SlipMimeType
  sizeBytes : Nat
  sha256 : String
  deriving DecidableEq

/-- What `headObject` says of a stored object. -/
structure HeadObject where
  contentLength : Option Nat
  deriving DecidableEq

namespace SlipService

/-- `head` is what the object store answers for the key. -/
def register (ctx : Ctx) (head : Except Failure (Option HeadObject)) (newId paymentId : Id)
    (input : UploadSlipInput) : Prog premises Slip := do
  let payment ← prisma ctx (.paymentFindUnique paymentId)
  let (payment, slip) ← orThrow (.http .notFound "" s!"Payment {paymentId} not found") payment
  if payment.status ≠ .pending then
    Prog.throw (.http .conflict "PaymentNotPending"
      ("Cannot attach a slip to a " ++ payment.status.toString ++ " payment"))
  else if slip.isSome then
    Prog.throw (.http .conflict "SlipAlreadyExists"
      ("A slip is already attached to this payment — reject the payment and create a new one " ++
        "to re-upload"))
  else if ¬ (expectedPrefix payment).toList <+: input.r2ObjectKey.toList then
    Prog.throw (.http .badRequest "InvalidR2ObjectKey"
      "r2ObjectKey does not match the expected prefix for this payment")
  else match head with
    | .error err => Prog.throw err
    | .ok none =>
      Prog.throw (.http .badRequest "SlipNotUploaded"
        "No object found at the given r2ObjectKey — upload may have failed")
    | .ok (some head) =>
      match head.contentLength.filter (· ≠ input.sizeBytes) with
      | some contentLength =>
        Prog.throw (.http .badRequest "SlipSizeMismatch"
          s!"R2 reports {contentLength} bytes; client claimed {input.sizeBytes}")
      | none =>
        catchUnique (isUniqueConstraintError · "payment_id") "SlipAlreadyExists"
          "A slip was registered for this payment by a concurrent request"
          (prisma ctx (.slipCreate
            { id := newId, companyId := payment.companyId, paymentId := payment.id
              r2ObjectKey := input.r2ObjectKey, mimeType := input.mimeType
              sizeBytes := input.sizeBytes, sha256 := input.sha256 }))
where
  expectedPrefix (payment : Payment) : String :=
    s!"companies/{payment.companyId}/slips/{payment.id}/"

end SlipService

structure UpdateInvoiceInput where
  status : Option InvoiceStatus
  dueDate : Option Instant
  deriving DecidableEq

namespace InvoiceService

def getById (ctx : Ctx) (id : Id) : Prog premises Invoice := do
  let row ← prisma ctx (.invoiceFindUnique id)
  orThrow (.http .notFound "" s!"Invoice {id} not found") row

def update (ctx : Ctx) (id : Id) (input : UpdateInvoiceInput) : Prog premises Invoice := do
  let _ ← getById ctx id
  if input.status.isSome then
    Prog.throw (.http .badRequest "StatusNotPatchable"
      "Use POST /invoices/:id/issue, /void, or Payment.confirm to change invoice status")
  else prisma ctx (.invoiceUpdate id input.dueDate)

end InvoiceService

/-- The calls, each with the fresh key that it draws. -/
inductive PremisesCall where
  | createProperty (newId : Id) (input : CreatePropertyInput)
  | updateProperty (id : Id) (input : PropertyPatch)
  | createUnit (newId : Id) (input : CreateUnitInput)
  | updateUnit (id : Id) (input : UnitPatch)
  | createTenant (newId : Id) (input : CreateTenantInput)
  | updateTenant (id : Id) (input : TenantPatch)
  | registerSlip (head : Except Failure (Option HeadObject)) (newId paymentId : Id)
    (input : UploadSlipInput)
  | updateInvoice (id : Id) (input : UpdateInvoiceInput)

/-- The database after the call, served alone. -/
def PremisesCall.commit (S : Server) (P : Pgcrypto) (ctx : Ctx) (s : Dorm) : PremisesCall → Dorm
  | createProperty newId input => serve (PropertyService.create ctx newId input)
  | updateProperty id input => serve (PropertyService.update ctx id input)
  | createUnit newId input => serve (UnitService.create ctx newId input)
  | updateUnit id input => serve (UnitService.update ctx id input)
  | createTenant newId input => serve (TenantService.create ctx newId input)
  | updateTenant id input => serve (TenantService.update ctx id input)
  | registerSlip head newId paymentId input =>
    serve (SlipService.register ctx head newId paymentId input)
  | updateInvoice id input => serve (InvoiceService.update ctx id input)
where
  serve {α : Type} (p : Prog premises α) : Dorm :=
    (p.serve (engine S P) (fun _ => true) s).commit (engine S P) s

end Premises
end Dormitory
