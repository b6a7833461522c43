import Dormitory.Date
import Dormitory.PaymentService
import Dormitory.Txn.Script

/-!
# Tenants and their invites

The tables behind `modules/tenant` and `modules/tenant-invite`, and the
`prisma.*` calls of the two services as statements. A statement runs under the
row-level security of one company, or, for the lookup of a code, under none.
-/

namespace Dormitory

inductive TenantInviteStatus where
  | pending | redeemed | expired | revoked
  deriving DecidableEq, Repr

def TenantInviteStatus.toString : TenantInviteStatus → String
  | pending => "pending"
  | redeemed => "redeemed"
  | expired => "expired"
  | revoked => "revoked"

structure TenantInvite where
  id : Id
  companyId : Id
  tenantId : Id
  codeHash : String
  codePrefix : String
  status : TenantInviteStatus
  expiresAt : Instant
  redeemedAt : Option Instant
  redeemedByLineUserId : Option String
  createdByUserId : Id
  deriving DecidableEq, Repr

/-- A `tenant` row with the columns that its own service shows. -/
structure TenantProfile extends Tenant where
  displayName : String
  pictureUrl : Option String
  deriving DecidableEq, Repr

structure Property where
  id : Id
  companyId : Id
  name : String
  deriving DecidableEq, Repr

/-- A `contract` row with its first day, counted from 1970-01-01. -/
structure Lease extends Contract where
  startDate : Int
  deriving DecidableEq

/-- What a call of these services can throw: an error of the database client or
a Nest exception under its HTTP status. -/
inductive ApiError where
  | prisma (code : String) (target : Target)
  | http (status : Nat) (error message : String)
  deriving DecidableEq, Repr

namespace Tenancy
open Txn

instance : Keyed TenantInvite Id := ⟨TenantInvite.id⟩
instance : Keyed TenantProfile Id := ⟨fun t => t.id⟩
instance : Keyed Property Id := ⟨Property.id⟩
instance : Keyed Lease Id := ⟨fun k => k.id⟩

@[simp] theorem key_invite (i : TenantInvite) : key i = i.id := rfl
@[simp] theorem key_tenant (t : TenantProfile) : key t = t.id := rfl
@[simp] theorem key_audit (a : AuditLog) : key a = a.id := rfl

/-- The database. -/
structure Db where
  companies : Table Company := default
  users : Table User := default
  tenants : Table TenantProfile := default
  properties : Table Property := default
  units : Table DormUnit := default
  leases : Table Lease := default
  invites : Table TenantInvite := default
  auditLogs : Table AuditLog := default

/-- Row-level security: a scope is a company, or none with `app.bypass_rls`. -/
def Sees (scope' : Option Id) (companyId : Id) : Prop := ∀ c ∈ scope', c = companyId

instance (scope' : Option Id) (companyId : Id) : Decidable (Sees scope' companyId) :=
  inferInstanceAs (Decidable (∀ c ∈ scope', c = companyId))

namespace Db
variable (db : Db)

def invite? (scope' : Option Id) (id : Id) : Option TenantInvite :=
  (db.invites.find? id).filter fun i => Sees scope' i.companyId

def tenant? (scope' : Option Id) (id : Id) : Option TenantProfile :=
  (db.tenants.find? id).filter fun t => Sees scope' t.companyId

/-- The first invite under a code. -/
def inviteByCode? (scope' : Option Id) (codePrefix codeHash : String) : Option TenantInvite :=
  db.invites.rows.find? fun i =>
    Sees scope' i.companyId ∧ i.codePrefix = codePrefix ∧ i.codeHash = codeHash

/-- Another tenant of the company has the LINE account. -/
def LineTaken (companyId : Id) (lineUserId : String) (id : Id) : Prop :=
  ∃ t ∈ db.tenants.rows, t.companyId = companyId ∧ t.lineUserId = some lineUserId ∧ t.id ≠ id

instance (companyId : Id) (lineUserId : String) (id : Id) :
    Decidable (db.LineTaken companyId lineUserId id) :=
  inferInstanceAs (Decidable (∃ t ∈ db.tenants.rows, _))

/-- The room of the tenant's latest active contract. -/
def latestRoom (tenantId : Id) : Option (DormUnit × Property) := do
  let active := db.leases.rows.filter fun k => k.tenantId = tenantId ∧ k.status = .active
  let lease ← findLatest Lease.startDate active
  let unit ← db.units.find? lease.unitId
  let property ← db.properties.find? unit.propertyId
  return (unit, property)

end Db

/-- The columns `tenant.update` sets. -/
structure TenantPatch where
  lineUserId : Option String := none
  displayName : Option String := none
  pictureUrl : Option String := none
  status : Option TenantStatus := none
  deriving DecidableEq, Repr

def TenantPatch.apply (d : TenantPatch) (t : TenantProfile) : TenantProfile :=
  { t with
    lineUserId := d.lineUserId <|> t.lineUserId
    displayName := d.displayName.getD t.displayName
    pictureUrl := d.pictureUrl <|> t.pictureUrl
    status := d.status.getD t.status }

/-- The values fit their columns. -/
def TenantPatch.Fits (d : TenantPatch) : Prop :=
  (∀ l ∈ d.lineUserId, l.length ≤ 64) ∧ (∀ n ∈ d.displayName, n.length ≤ 128) ∧
    ∀ u ∈ d.pictureUrl, u.length ≤ 512

instance (d : TenantPatch) : Decidable d.Fits := inferInstanceAs (Decidable (_ ∧ _ ∧ _))

/-- The columns `tenantInvite.updateMany` sets; `some none` is SQL's NULL. -/
structure InvitePatch where
  status : TenantInviteStatus
  redeemedAt : Option (Option Instant) := none
  redeemedByLineUserId : Option (Option String) := none
  deriving DecidableEq, Repr

def InvitePatch.apply (d : InvitePatch) (i : TenantInvite) : TenantInvite :=
  { i with
    status := d.status
    redeemedAt := d.redeemedAt.getD i.redeemedAt
    redeemedByLineUserId := d.redeemedByLineUserId.getD i.redeemedByLineUserId }

def InvitePatch.Fits (d : InvitePatch) : Prop :=
  ∀ l ∈ d.redeemedByLineUserId, ∀ u ∈ l, u.length ≤ 64

instance (d : InvitePatch) : Decidable d.Fits :=
  inferInstanceAs (Decidable (∀ l ∈ d.redeemedByLineUserId, ∀ u ∈ l, u.length ≤ 64))

@[simp] theorem TenantPatch.apply_id (d : TenantPatch) (t : TenantProfile) :
    (d.apply t).id = t.id := rfl
@[simp] theorem TenantPatch.apply_companyId (d : TenantPatch) (t : TenantProfile) :
    (d.apply t).companyId = t.companyId := rfl
@[simp] theorem InvitePatch.apply_id (d : InvitePatch) (i : TenantInvite) :
    (d.apply i).id = i.id := rfl
@[simp] theorem InvitePatch.apply_status (d : InvitePatch) (i : TenantInvite) :
    (d.apply i).status = d.status := rfl

inductive Query where
  | tenantFindUnique (id : Id)
  | tenantUpdate (id : Id) (data : TenantPatch)
  | inviteFindUnique (id : Id)
  /-- With the company of the invite. -/
  | inviteFindFirst (codePrefix codeHash : String)
  /-- With the tenant of the invite and its room. -/
  | invitePreview (codePrefix codeHash : String)
  | inviteCreate (data : TenantInvite)
  | inviteUpdateMany (id : Id) (status : TenantInviteStatus) (data : InvitePatch)
  | auditLogCreate (data : AuditLog)
  deriving DecidableEq

@[reducible] def Query.Ans : Query → Type
  | tenantFindUnique _ => Option TenantProfile
  | tenantUpdate _ _ => TenantProfile
  | inviteFindUnique _ => Option TenantInvite
  | inviteFindFirst _ _ => Option (TenantInvite × Company)
  | invitePreview _ _ => Option (TenantInvite × TenantProfile × Option (DormUnit × Property))
  | inviteCreate _ => TenantInvite
  | inviteUpdateMany _ _ _ => Nat
  | auditLogCreate _ => AuditLog

structure Statement where
  scope' : Option Id
  query : Query
  deriving DecidableEq

inductive Row where
  | tenant (r : TenantProfile)
  | invite (r : TenantInvite)
  | auditLog (r : AuditLog)
  deriving DecidableEq

inductive Lock where
  | tenant (id : Id)
  | tenantLine (companyId : Id) (lineUserId : String)
  | invite (id : Id)
  | auditLog (id : Id)
  deriving DecidableEq

def Row.apply (db : Db) : Row → Db
  | tenant r => { db with tenants := db.tenants.put r }
  | invite r => { db with invites := db.invites.put r }
  | auditLog r => { db with auditLogs := db.auditLogs.put r }

/-- An unbound tenant is not in the unique index. -/
def Row.locks : Row → List Lock
  | tenant r => .tenant r.id :: (r.lineUserId.map fun l => .tenantLine r.companyId l).toList
  | invite r => [.invite r.id]
  | auditLog r => [.auditLog r.id]

/-- A value does not fit its column. -/
def tooLong : ApiError := .prisma "P2000" .null

def foreignKey : ApiError := .prisma "P2003" .null

def missing : ApiError := .prisma "P2025" .null

def uniqueViolation (S : Server) (columns : List String) : ApiError :=
  .prisma "P2002" (S.report columns)

section statements
variable (S : Server) (scope' : Option Id) (db : Db)

def updateTenant (id : Id) (data : TenantPatch) : Except ApiError (List Row × TenantProfile) :=
  match db.tenant? scope' id with
  | none => .error missing
  | some t =>
    if ¬ data.Fits then .error tooLong
    else if ∃ l ∈ data.lineUserId, db.LineTaken t.companyId l t.id then
      .error (uniqueViolation S ["company_id", "line_user_id"])
    else .ok ([.tenant (data.apply t)], data.apply t)

def createInvite (r : TenantInvite) : Except ApiError (List Row × TenantInvite) :=
  if 64 < r.codeHash.length ∨ 4 < r.codePrefix.length then .error tooLong
  else if (db.invites.find? r.id).isSome then .error (uniqueViolation S ["id"])
  else if (db.tenants.find? r.tenantId).isNone ∨ (db.users.find? r.createdByUserId).isNone then
    .error foreignKey
  else .ok ([.invite r], r)

def updateManyInvites (id : Id) (status : TenantInviteStatus) (data : InvitePatch) :
    Except ApiError (List Row × Nat) :=
  match (db.invite? scope' id).filter fun i => i.status = status with
  | none => .ok ([], 0)
  | some i => if data.Fits then .ok ([.invite (data.apply i)], 1) else .error tooLong

/-- The audit row fits its columns and names an existing user. -/
def AuditFits (r : AuditLog) : Prop :=
  r.action.length ≤ 64 ∧ r.resource.length ≤ 64 ∧ (∀ u ∈ r.userAgent, u.length ≤ 512) ∧
  (∀ ip ∈ r.ipAddress, S.inet ip) ∧ (∀ u ∈ r.actorUserId, (db.users.find? u).isSome)

instance (r : AuditLog) : Decidable (AuditFits S db r) :=
  inferInstanceAs (Decidable (_ ∧ _ ∧ _ ∧ _ ∧ _))

def createAuditLog (r : AuditLog) : Except ApiError (List Row × AuditLog) :=
  if AuditFits S db r then
    if (db.auditLogs.find? r.id).isSome then .error (uniqueViolation S ["id"])
    else .ok ([.auditLog r], r)
  else .error tooLong

/-- One statement. -/
def run : (q : Query) → Except ApiError (List Row × q.Ans)
  | .tenantFindUnique id => .ok ([], db.tenant? scope' id)
  | .tenantUpdate id data => updateTenant S scope' db id data
  | .inviteFindUnique id => .ok ([], db.invite? scope' id)
  | .inviteFindFirst codePrefix codeHash =>
    .ok ([], (db.inviteByCode? scope' codePrefix codeHash).bind fun i =>
      (db.companies.find? i.companyId).map fun c => (i, c))
  | .invitePreview codePrefix codeHash =>
    .ok ([], (db.inviteByCode? scope' codePrefix codeHash).bind fun i =>
      (db.tenants.find? i.tenantId).map fun t => (i, t, db.latestRoom t.id))
  | .inviteCreate data => createInvite S db data
  | .inviteUpdateMany id status data => updateManyInvites scope' db id status data
  | .auditLogCreate data => createAuditLog S db data

end statements

/-- The services add no jobs. -/
@[reducible] def tenancy : Sig where
  Stmt := Statement
  Ans s := s.query.Ans
  Err := ApiError
  St := Db
  Write := Row
  Lock := Lock
  Job := Empty

def engine (S : Server) : Engine tenancy where
  exec s db := run S s.scope' db s.query
  apply := Row.apply
  locks := Row.locks
  aborted := .prisma "25P02" .null
  noSavepoint := .prisma "3B001" .null
  queueDown := .prisma "" .null

/-- `prisma.*` inside `withTenant` with this scope. -/
def prisma (scope' : Option Id) (q : Query) : Prog tenancy q.Ans :=
  @Prog.query tenancy ⟨scope', q⟩

theorem prisma_bind {α : Type} (scope' : Option Id) (q : Query) (f : q.Ans → Prog tenancy α) :
    prisma scope' q >>= f =
      @Prog.sql tenancy α ⟨scope', q⟩ fun r => Prog.uncaught r >>= f := rfl

section exec
variable (S : Server) (scope' : Option Id) (q : Query) (db : Db) {x : Session tenancy}

theorem exec_broken (h : x.broken = true) :
    x.exec (engine S) db ⟨scope', q⟩ = (x, .error (.prisma "25P02" .null)) :=
  Session.exec_broken h

end exec
end Tenancy
end Dormitory
