import Dormitory.Interceptors
import Dormitory.Maintenance
import Dormitory.Txn.Serial

/-!
# MaintenanceService

The calls of `modules/maintenance/maintenance.service.ts` that write or sign a
view URL, and the slip views of `billing/slip.service.ts`. Fresh primary keys,
the clock and the answers of the object store are arguments.
-/

namespace Dormitory.Maintenance
open Txn
open Premises (HeadObject)

def maintenancePhotoMax : Nat := 10

structure CreateMaintenanceRequestInput where
  category : MaintenanceCategory
  title : String
  description : String
  priority : Option MaintenancePriority
  photoR2Keys : List String
  few : photoR2Keys.length ≤ maintenancePhotoMax

/-- `undefined` is `none`; `null` is `some none`. -/
structure UpdateMaintenanceRequestInput where
  status : Option MaintenanceStatus
  priority : Option MaintenancePriority
  assignedToUserId : Option (Option Id)
  resolutionNote : Option (Option String)
  some_given : status.isSome ∨ priority.isSome ∨ assignedToUserId.isSome ∨ resolutionNote.isSome

structure TenantUpdateMaintenanceRequestInput where
  description : Option String
  appendPhotoR2Keys : Option (List String)
  cancel : Bool
  few : ∀ keys ∈ appendPhotoR2Keys, keys.length ≤ maintenancePhotoMax
  some_given : description.isSome ∨ (∃ keys ∈ appendPhotoR2Keys, keys ≠ []) ∨ cancel

/-- The object store, as it answers during one call. -/
abbrev Storage := String → Except Failure (Option HeadObject)

/-- A short-lived GET URL, by the object key that it is signed for. -/
structure DownloadUrl where
  key : String
  deriving DecidableEq

/-- A row that row-level security may hide. -/
def orThrow {α : Type} (err : Failure) : Option α → Prog maintenance α
  | none => Prog.throw err
  | some row => pure row

/-- `throw`, or go on with the value. -/
def orRaise {α : Type} : Except Failure α → Prog maintenance α
  | .error err => Prog.throw err
  | .ok a => pure a

namespace MaintenanceService

def notFound (id : Id) : Failure := .http .notFound "" s!"Maintenance request {id} not found"

def getById (ctx : Ctx) (id : Id) : Prog maintenance MaintenanceRequest := do
  let row ← prisma ctx (.ticketFindUnique id)
  orThrow (notFound id) row

def getByIdForTenant (ctx : Ctx) (id tenantId : Id) : Prog maintenance MaintenanceRequest := do
  let row ← prisma ctx (.ticketFindFirst id tenantId)
  orThrow (notFound id) row

/-! ## Photos -/

/-- `key.startsWith(p)`. -/
def startsWith (key p : String) : Bool := p.toList <+: key.toList

def expectedPrefix (companyId tenantId : Id) : String :=
  s!"companies/{companyId}/maintenance/{tenantId}/"

/-- Key by key: its prefix, then whether the object is there. -/
def checkPhotos (p : String) (head : Storage) : List String → Except Failure Unit
  | [] => .ok ()
  | key :: keys =>
    if startsWith key p then
      match head key with
      | .error err => .error err
      | .ok none =>
        .error (.http .badRequest "PhotoNotUploaded"
          s!"No R2 object found at {key} — upload may have failed")
      | .ok (some _) => checkPhotos p head keys
    else
      .error (.http .badRequest "InvalidPhotoR2Key"
        s!"Photo key does not match the expected prefix for this tenant: {key}")

def createForTenant (ctx : Ctx) (newId : Id) (head : Storage)
    (input : CreateMaintenanceRequestInput) (tenantId : Id) :
    Prog maintenance MaintenanceRequest := do
  let activeContract ← prisma ctx (.contractFindFirst tenantId)
  let activeContract ← orThrow (.http .badRequest "NoActiveContract"
    "You must have an active rental contract before reporting maintenance issues") activeContract
  orRaise (checkPhotos (expectedPrefix ctx.companyId tenantId) head input.photoR2Keys)
  prisma ctx (.ticketCreate
    { id := newId, companyId := ctx.companyId, unitId := activeContract.unitId
      tenantId := tenantId, category := input.category, title := input.title
      description := input.description, priority := input.priority.getD .normal
      status := .opened, photoR2Keys := input.photoR2Keys, assignedToUserId := none
      resolutionNote := none, resolvedAt := none })

/-! ## Staff -/

/-- `STATUS_TRANSITIONS`. -/
def statusTransitions : MaintenanceStatus → List MaintenanceStatus
  | .opened => [.in_progress, .cancelled]
  | .in_progress => [.resolved, .cancelled]
  | .resolved => [.in_progress, .closed, .cancelled]
  | .closed => []
  | .cancelled => []

/-- Setting the status that is there is accepted. -/
def assertStatusTransition (old new : MaintenanceStatus) : Except Failure Unit :=
  if old = new then .ok ()
  else
    let allowed := statusTransitions old
    if new ∈ allowed then .ok ()
    else
      let names := if allowed.length = 0 then "(terminal)"
        else ", ".intercalate (allowed.map MaintenanceStatus.toString)
      .error (.http .conflict "InvalidStatusTransition"
        ("Cannot transition from \"" ++ old.toString ++ "\" to \"" ++ new.toString ++
          "\" — allowed: " ++ names))

/-- `!note || note.trim().length === 0`. -/
def blank (note : Option String) : Bool :=
  match note with
  | none => true
  | some text => (AuditLogInterceptor.trim text.toList).isEmpty

/-- The tenant is told why. -/
def needsNote (status : MaintenanceStatus) : Bool := status = .resolved || status = .cancelled

/-- What `update` sets once the assignee is known to be there. -/
def updateData (now : Instant) (existing : MaintenanceRequest)
    (input : UpdateMaintenanceRequestInput) : Except Failure TicketPatch := do
  let data : TicketPatch :=
    { assignedToUserId := input.assignedToUserId
      priority := input.priority
      resolutionNote := input.resolutionNote }
  match input.status with
  | none => return data
  | some status =>
    assertStatusTransition existing.status status
    if needsNote status && blank (input.resolutionNote.getD existing.resolutionNote) then
      .error (.http .badRequest "ResolutionNoteRequired"
        ("Cannot move ticket to \"" ++ status.toString ++
          "\" without a resolutionNote — tenant needs to know why"))
    else
      return { data with
        status := some status
        resolvedAt :=
          if status = .resolved then some (some now)
          else if existing.status = .resolved then some none
          else none }

/-- The lookup of the new assignee. -/
def assertAssignee (ctx : Ctx) : Option (Option Id) → Prog maintenance Unit
  | some (some userId) => do
    let user ← prisma ctx (.userFindUnique userId)
    match user with
    | none =>
      Prog.throw (.http .badRequest "InvalidAssignee"
        s!"User {userId} does not exist or is not in this company")
    | some _ => pure ()
  | _ => pure ()

def update (ctx : Ctx) (now : Instant) (id : Id) (input : UpdateMaintenanceRequestInput) :
    Prog maintenance MaintenanceRequest := do
  let existing ← getById ctx id
  assertAssignee ctx input.assignedToUserId
  let data ← orRaise (updateData now existing input)
  prisma ctx (.ticketUpdate id data)

/-! ## Tenants -/

def editable (status : MaintenanceStatus) : Bool := status = .opened || status = .in_progress

def cancelNote : String := "ผู้เช่ายกเลิกเอง"

/-- The part of `cancel`. -/
def cancelData (existing : MaintenanceRequest) (cancel : Bool) : Except Failure TicketPatch :=
  if cancel then
    if existing.status ≠ .opened then
      .error (.http .conflict "TenantCancelNotAllowed"
        ("You can only cancel tickets in \"open\" status (current: \"" ++
          existing.status.toString ++ "\"). Contact staff to cancel an in-progress ticket."))
    else .ok { status := some .cancelled, resolutionNote := some (some cancelNote) }
  else .ok {}

/-- A tenant's edit, `what` it does, is refused for its ticket's status or next
to a cancellation. -/
def assertEdit (existing : MaintenanceRequest) (cancel : Bool) (what conflict : String) :
    Except Failure Unit :=
  if editable existing.status then
    if cancel then
      .error (.http .badRequest "CancelAndEditConflict"
        s!"Cannot cancel and {conflict} in the same request")
    else .ok ()
  else
    .error (.http .conflict "TenantEditNotAllowed"
      ("Cannot " ++ what ++ " ticket in \"" ++ existing.status.toString ++
        "\" status — tenant edits are limited to open / in_progress tickets."))

/-- The part of `description`. -/
def describeData (existing : MaintenanceRequest) (cancel : Bool) (data : TicketPatch) :
    Option String → Except Failure TicketPatch
  | none => .ok data
  | some description => do
    assertEdit existing cancel "edit" "edit description"
    return { data with description := some description }

def assertFew (existing : MaintenanceRequest) (keys : List String) : Except Failure Unit :=
  let combined := existing.photoR2Keys.length + keys.length
  if maintenancePhotoMax < combined then
    .error (.http .badRequest "TooManyPhotos"
      (s!"Total photos would be {combined} — cap is {maintenancePhotoMax}. Existing: " ++
        s!"{existing.photoR2Keys.length}, attempting to add: {keys.length}."))
  else .ok ()

/-- The part of `appendPhotoR2Keys`. -/
def appendData (ctx : Ctx) (tenantId : Id) (head : Storage) (existing : MaintenanceRequest)
    (cancel : Bool) (data : TicketPatch) : List String → Except Failure TicketPatch
  | [] => .ok data
  | key :: keys => do
    assertEdit existing cancel "add photos to" "append photos"
    assertFew existing (key :: keys)
    checkPhotos (expectedPrefix ctx.companyId tenantId) head (key :: keys)
    return { data with photoR2Keys := some (existing.photoR2Keys ++ key :: keys) }

/-- What `updateForTenant` sets. -/
def tenantData (ctx : Ctx) (tenantId : Id) (head : Storage) (existing : MaintenanceRequest)
    (input : TenantUpdateMaintenanceRequestInput) : Except Failure TicketPatch := do
  let data ← cancelData existing input.cancel
  let data ← describeData existing input.cancel data input.description
  appendData ctx tenantId head existing input.cancel data (input.appendPhotoR2Keys.getD [])

def updateForTenant (ctx : Ctx) (head : Storage) (id : Id)
    (input : TenantUpdateMaintenanceRequestInput) (tenantId : Id) :
    Prog maintenance MaintenanceRequest := do
  let existing ← getByIdForTenant ctx id tenantId
  let data ← orRaise (tenantData ctx tenantId head existing input)
  prisma ctx (.ticketUpdate id data)

/-! ## Views -/

/-- `StorageService.generateDownloadUrl`. -/
def generateDownloadUrl (key : String) : DownloadUrl := ⟨key⟩

def getPhotoViewUrl (ctx : Ctx) (ticketId : Id) (photoKey : String) :
    Prog maintenance DownloadUrl := do
  let ticket ← prisma ctx (.ticketFindUnique ticketId)
  let ticket ← orThrow (notFound ticketId) ticket
  if photoKey ∈ ticket.photoR2Keys then pure (generateDownloadUrl photoKey)
  else Prog.throw (.http .badRequest "PhotoNotInTicket" "photoKey does not belong to this ticket")

end MaintenanceService

namespace MeMaintenanceController

/-- `GET me/maintenance/:id/photos/:key/view-url`. -/
def getPhotoViewUrl (ctx : Ctx) (id : Id) (key : String) (tenantId : Id) :
    Prog maintenance DownloadUrl := do
  let _ ← MaintenanceService.getByIdForTenant ctx id tenantId
  MaintenanceService.getPhotoViewUrl ctx id key

end MeMaintenanceController

namespace SlipService

def getViewUrl (ctx : Ctx) (slipId : Id) : Prog maintenance DownloadUrl := do
  let slip ← prisma ctx (.slipFindUnique slipId)
  let slip ← orThrow (.http .notFound "" s!"Slip {slipId} not found") slip
  pure (MaintenanceService.generateDownloadUrl slip.r2ObjectKey)

def getViewUrlForTenant (ctx : Ctx) (slipId tenantId : Id) : Prog maintenance DownloadUrl := do
  let slip ← prisma ctx (.slipFindFirst slipId tenantId)
  let slip ← orThrow (.http .notFound "" s!"Slip {slipId} not found") slip
  pure (MaintenanceService.generateDownloadUrl slip.r2ObjectKey)

end SlipService
end Dormitory.Maintenance
