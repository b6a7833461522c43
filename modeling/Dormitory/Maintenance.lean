import Dormitory.PropertyService

/-!
# Maintenance tickets

The table behind `modules/maintenance` with the `prisma.*` calls of its service
and of the slip views as statements, beside the tables of all other services.
-/

namespace Dormitory

inductive MaintenanceStatus where
  | opened | in_progress | resolved | closed | cancelled
  deriving DecidableEq, Repr

def MaintenanceStatus.toString : MaintenanceStatus → String
  | opened => "open"
  | in_progress => "in_progress"
  | resolved => "resolved"
  | closed => "closed"
  | cancelled => "cancelled"

inductive MaintenancePriority where
  | low | normal | high | urgent
  deriving DecidableEq, Repr

inductive MaintenanceCategory where
  | plumbing | electrical | aircon | appliance | furniture | structural | internet | other
  deriving DecidableEq, Repr

structure MaintenanceRequest where
  id : Id
  companyId : Id
  unitId : Id
  tenantId : Id
  category : MaintenanceCategory
  title : String
  description : String
  priority : MaintenancePriority
  status : MaintenanceStatus
  photoR2Keys : List String
  assignedToUserId : Option Id
  resolutionNote : Option String
  resolvedAt : Option Instant
  deriving DecidableEq

namespace Maintenance
open Txn

instance : Keyed MaintenanceRequest Id := ⟨MaintenanceRequest.id⟩

/-- The database: the tickets, and all other tables in `dorm`. -/
structure Desk where
  tickets : Table MaintenanceRequest := default
  dorm : Premises.Dorm := {}

/-- `Prisma.MaintenanceRequestUpdateInput`: a column that is not given keeps its
value. -/
structure TicketPatch where
  status : Option MaintenanceStatus := none
  description : Option String := none
  priority : Option MaintenancePriority := none
  photoR2Keys : Option (List String) := none
  assignedToUserId : Option (Option Id) := none
  resolutionNote : Option (Option String) := none
  resolvedAt : Option (Option Instant) := none
  deriving DecidableEq

def TicketPatch.apply (d : TicketPatch) (t : MaintenanceRequest) : MaintenanceRequest :=
  { t with
    status := d.status.getD t.status
    description := d.description.getD t.description
    priority := d.priority.getD t.priority
    photoR2Keys := d.photoR2Keys.getD t.photoR2Keys
    assignedToUserId := d.assignedToUserId.getD t.assignedToUserId
    resolutionNote := d.resolutionNote.getD t.resolutionNote
    resolvedAt := d.resolvedAt.getD t.resolvedAt }

@[simp] theorem TicketPatch.apply_id (d : TicketPatch) (t : MaintenanceRequest) :
    (d.apply t).id = t.id := rfl
@[simp] theorem TicketPatch.apply_companyId (d : TicketPatch) (t : MaintenanceRequest) :
    (d.apply t).companyId = t.companyId := rfl
@[simp] theorem TicketPatch.apply_tenantId (d : TicketPatch) (t : MaintenanceRequest) :
    (d.apply t).tenantId = t.tenantId := rfl
@[simp] theorem TicketPatch.apply_status (d : TicketPatch) (t : MaintenanceRequest) :
    (d.apply t).status = d.status.getD t.status := rfl
@[simp] theorem TicketPatch.apply_photoR2Keys (d : TicketPatch) (t : MaintenanceRequest) :
    (d.apply t).photoR2Keys = d.photoR2Keys.getD t.photoR2Keys := rfl
@[simp] theorem TicketPatch.apply_resolutionNote (d : TicketPatch) (t : MaintenanceRequest) :
    (d.apply t).resolutionNote = d.resolutionNote.getD t.resolutionNote := rfl
@[simp] theorem TicketPatch.apply_resolvedAt (d : TicketPatch) (t : MaintenanceRequest) :
    (d.apply t).resolvedAt = d.resolvedAt.getD t.resolvedAt := rfl

inductive Query where
  /-- The tenant's active contract with the latest start. -/
  | contractFindFirst (tenantId : Id)
  | userFindUnique (id : Id)
  | ticketFindUnique (id : Id)
  | ticketFindFirst (id tenantId : Id)
  | ticketCreate (data : MaintenanceRequest)
  | ticketUpdate (id : Id) (data : TicketPatch)
  | slipFindUnique (id : Id)
  /-- The slip, if its payment is the tenant's. -/
  | slipFindFirst (id tenantId : Id)
  deriving DecidableEq

@[reducible] def Query.Ans : Query → Type
  | contractFindFirst _ => Option ContractRow
  | userFindUnique _ => Option User
  | ticketFindUnique _ | ticketFindFirst _ _ => Option MaintenanceRequest
  | ticketCreate _ | ticketUpdate _ _ => MaintenanceRequest
  | slipFindUnique _ | slipFindFirst _ _ => Option Slip

structure Statement where
  company : Id
  query : Query
  deriving DecidableEq

inductive Row where
  | ticket (r : MaintenanceRequest)
  deriving DecidableEq

inductive Lock where
  | ticket (id : Id)
  deriving DecidableEq

def Row.apply (s : Desk) : Row → Desk
  | ticket r => { s with tickets := s.tickets.put r }

def Row.locks : Row → List Lock
  | ticket r => [.ticket r.id]

section statements
variable (S : Server) (c : Id) (s : Desk)

def ticket? (id : Id) : Option MaintenanceRequest :=
  (s.tickets.find? id).filter fun t => t.companyId = c

def user? (id : Id) : Option User :=
  (s.dorm.estate.books.users.find? id).filter fun u => u.companyId = c

def activeContract? (tenantId : Id) : Option ContractRow :=
  findLatest (fun k => k.startDate) <| s.dorm.estate.contracts.rows.filter fun k =>
    k.companyId = c ∧ k.tenantId = tenantId ∧ k.status = .active

def slip? (id : Id) : Option Slip := (s.dorm.slips.find? id).filter fun l => l.companyId = c

def createTicket (r : MaintenanceRequest) : Except Failure (List Row × MaintenanceRequest) :=
  if (s.tickets.find? r.id).isSome then .error (.prisma "P2002" (S.report ["id"]))
  else if (s.dorm.units.find? r.unitId).isNone ∨ (s.dorm.tenants.find? r.tenantId).isNone then
    .error .foreignKey
  else .ok ([.ticket r], r)

/-- The assignee that the patch connects is there. -/
def Connects (d : TicketPatch) : Prop :=
  ∀ assignee ∈ d.assignedToUserId, ∀ id ∈ assignee, (user? c s id).isSome

instance (d : TicketPatch) : Decidable (Connects c s d) :=
  inferInstanceAs (Decidable (∀ assignee ∈ d.assignedToUserId, ∀ id ∈ assignee, _))

def updateTicket (id : Id) (d : TicketPatch) : Except Failure (List Row × MaintenanceRequest) :=
  match ticket? c s id with
  | none => .error .missing
  | some t =>
    if Connects c s d then .ok ([.ticket (d.apply t)], d.apply t) else .error .missing

/-- One statement under the row-level security of company `c`. -/
def run : (q : Query) → Except Failure (List Row × q.Ans)
  | .contractFindFirst tenantId => .ok ([], activeContract? c s tenantId)
  | .userFindUnique id => .ok ([], user? c s id)
  | .ticketFindUnique id => .ok ([], ticket? c s id)
  | .ticketFindFirst id tenantId =>
    .ok ([], (ticket? c s id).filter fun t => t.tenantId = tenantId)
  | .ticketCreate data => createTicket S s data
  | .ticketUpdate id data => updateTicket c s id data
  | .slipFindUnique id => .ok ([], slip? c s id)
  | .slipFindFirst id tenantId =>
    .ok ([], (slip? c s id).filter fun l =>
      (s.dorm.db.payment? c l.paymentId).any fun p => p.tenantId = tenantId)

end statements

/-- The service adds no jobs. -/
@[reducible] def maintenance : Sig where
  Stmt := Statement
  Ans s := s.query.Ans
  Err := Failure
  St := Desk
  Write := Row
  Lock := Lock
  Job := Empty

def engine (S : Server) : Engine maintenance where
  exec q s := run S q.company s q.query
  apply := Row.apply
  locks := Row.locks
  aborted := .aborted
  noSavepoint := .prisma "3B001" .null
  queueDown := .error ""

/-- `prisma.*`, on the connection of the request. -/
def prisma (ctx : Ctx) (q : Query) : Prog maintenance q.Ans :=
  @Prog.query maintenance ⟨ctx.companyId, q⟩

end Maintenance
end Dormitory
