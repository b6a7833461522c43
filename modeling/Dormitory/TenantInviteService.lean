import Dormitory.Interceptors
import Dormitory.Tenancy

/-!
# TenantInviteService

`modules/tenant-invite/tenant-invite.service.ts`, and `update` of
`modules/tenant/tenant.service.ts`. The calls of an admin are one transaction,
the request's, which ends with the interceptor's audit row; `peek` and `redeem`
look the code up in a transaction of their own.
-/

namespace Dormitory.Tenancy
open Txn

def tenantInviteCodeLength : Nat := 8

def tenantInviteCodePrefixLength : Nat := 4

def tenantInviteTtlDays : Int := 7

/-- The row without its hash, `toTenantInvite`. -/
structure PublicInvite where
  id : Id
  companyId : Id
  tenantId : Id
  codePrefix : String
  status : TenantInviteStatus
  expiresAt : Instant
  redeemedAt : Option Instant
  redeemedByLineUserId : Option String
  createdByUserId : Id
  deriving DecidableEq, Repr

structure TenantInvitePreview where
  inviteId : Id
  tenantDisplayHint : String
  unitNumber : Option String
  propertyName : Option String
  expiresAt : Instant
  deriving DecidableEq, Repr

structure RedeemTenantInviteResponse where
  tenantId : Id
  companyId : Id
  companySlug : String
  redeemedAt : Instant
  deriving DecidableEq, Repr

/-- What a call returns. -/
inductive Answer where
  | generated (invite : PublicInvite) (code : String)
  | revoked (invite : PublicInvite)
  | preview (p : TenantInvitePreview)
  | redeemed (r : RedeemTenantInviteResponse)
  | tenant (t : TenantProfile)
  deriving DecidableEq, Repr

/-- The service's own check for a violated index on a column. -/
def isUniqueConstraintError (err : ApiError) (column : String) : Bool :=
  match err with
  | .prisma "P2002" (.columns names) => names.any fun t => includes t column
  | .prisma "P2002" (.constraint name) => includes name column
  | .prisma "P2002" .notAvailable => includes "(not available)" column
  | _ => false

/-- The interceptor's audit row at the end of an admin's request. -/
def record {α : Type} (row : AuditLog) (value : α) : Prog tenancy α :=
  Prog.attempt
    (do
      let _ ← prisma (some row.companyId) (.auditLogCreate row)
      pure value)
    fun _ => pure value

/-- An admin's request: one transaction. -/
def request (row : AuditLog) (handle : Prog tenancy Answer) : Script tenancy Answer :=
  .tx do
    let value ← handle
    let value ← record row value
    pure (.done (.ok value))

namespace TenantInviteService

def toTenantInvite (row : TenantInvite) : PublicInvite where
  id := row.id
  companyId := row.companyId
  tenantId := row.tenantId
  codePrefix := row.codePrefix
  status := row.status
  expiresAt := row.expiresAt
  redeemedAt := row.redeemedAt
  redeemedByLineUserId := row.redeemedByLineUserId
  createdByUserId := row.createdByUserId

/-- `slice(0, n)`. -/
def slice (s : String) (n : Nat) : String := String.ofList (s.toList.take n)

def codePrefixOf (code : String) : String := slice code tenantInviteCodePrefixLength

def formatCodeForDisplay (plaintext : String) : String :=
  let mid := tenantInviteCodeLength / 2
  slice plaintext mid ++ "-" ++ String.ofList (plaintext.toList.drop mid)

def redactDisplayName (name : String) : String :=
  match AuditLogInterceptor.trim name.toList with
  | [] => "****"
  | first :: _ => String.ofList [first] ++ "****"

/-- `Boolean(s)`. -/
def truthy (s : Option String) : Bool := s ≠ none ∧ s ≠ some ""

/-- An audit row of the service itself. A JSON `null` in the metadata is a
missing entry here. -/
def auditRow (companyId newId : Id) (action : String) (resourceId : Id) (actorUserId : Option Id)
    (metadata : List (String × String)) : AuditLog where
  id := newId
  companyId := companyId
  actorUserId := actorUserId
  action := action
  resource := "tenant_invite"
  resourceId := some (toString resourceId)
  metadata := metadata
  ipAddress := none
  userAgent := none

/-- Its error is logged and dropped. -/
def writeAudit (companyId newId : Id) (action : String) (resourceId : Id) (actorUserId : Option Id)
    (metadata : List (String × String)) : Prog tenancy Unit :=
  Prog.attempt
    (do
      let _ ← prisma (some companyId)
        (.auditLogCreate (auditRow companyId newId action resourceId actorUserId metadata))
      pure ())
    fun _ => pure ()

def tenantAlreadyBound (tenantId : Id) : ApiError :=
  .http 409 "TenantAlreadyBound"
    s!"Tenant {tenantId} is already bound to a LINE user — unbind first"

def tenantInviteNotFound : ApiError :=
  .http 404 "TenantInviteNotFound" "Invite code not recognised"

def terminalState (status : TenantInviteStatus) : ApiError :=
  .http 410 "TenantInviteNotPending" s!"Invite is in terminal state '{status.toString}'"

def tenantInviteExpired : ApiError := .http 410 "TenantInviteExpired" "Invite code has expired"

def raceLost : ApiError :=
  .http 409 "TenantInviteRaceLost" "Invite was redeemed by a concurrent request"

def bindConflict : ApiError :=
  .http 409 "BIND_CONFLICT"
    ("This LINE account is already bound to another tenant in this company. " ++
      "Ask the admin to unbind the conflicting tenant first.")

section calls
variable (sha256Hex : String → String)

/-- `plaintext` is what `generatePlaintextCode` draws. -/
def generate (ctx : Ctx) (newId auditId : Id) (now : Instant) (plaintext : String)
    (tenantId actorUserId : Id) : Prog tenancy Answer := do
  let tenant ← prisma (some ctx.companyId) (.tenantFindUnique tenantId)
  match tenant with
  | none => Prog.throw (.http 404 "" s!"Tenant {tenantId} not found")
  | some tenant =>
    if truthy tenant.lineUserId then Prog.throw (tenantAlreadyBound tenantId)
    else
      let expiresAt := now + tenantInviteTtlDays * 24 * 60 * 60 * 1000
      let row ← prisma (some ctx.companyId) (.inviteCreate {
        id := newId
        companyId := ctx.companyId
        tenantId := tenantId
        codeHash := sha256Hex plaintext
        codePrefix := codePrefixOf plaintext
        status := .pending
        expiresAt := expiresAt
        redeemedAt := none
        redeemedByLineUserId := none
        createdByUserId := actorUserId })
      writeAudit ctx.companyId auditId "TENANT_INVITE_GENERATED" row.id (some actorUserId)
        [("tenantId", toString tenantId), ("codePrefix", codePrefixOf plaintext),
          ("expiresAt", expiresAt.toISOString)]
      pure (.generated (toTenantInvite row) (formatCodeForDisplay plaintext))

def revoke (ctx : Ctx) (auditId inviteId : Id) (reason : Option String) (actorUserId : Id) :
    Prog tenancy Answer := do
  let existing ← prisma (some ctx.companyId) (.inviteFindUnique inviteId)
  match existing with
  | none => Prog.throw (.http 404 "" s!"TenantInvite {inviteId} not found")
  | some existing =>
    if existing.status ≠ .pending then
      Prog.throw (.http 410 "TenantInviteNotPending"
        s!"Invite is already in terminal state '{existing.status.toString}'")
    else
      let count ← prisma (some ctx.companyId)
        (.inviteUpdateMany inviteId .pending { status := .revoked })
      if count ≠ 1 then
        Prog.throw (.http 410 "TenantInviteNotPending"
          "Invite transitioned out of pending before this revoke could apply")
      else
        let updated ← prisma (some ctx.companyId) (.inviteFindUnique inviteId)
        match updated with
        | none => Prog.throw missing
        | some updated =>
          writeAudit ctx.companyId auditId "TENANT_INVITE_REVOKED" inviteId (some actorUserId)
            ([("tenantId", toString existing.tenantId), ("codePrefix", existing.codePrefix)] ++
              (reason.map fun r => ("reason", r)).toList)
          pure (.revoked (toTenantInvite updated))

/-- The opportunistic sweep of `peek` and `redeem`, then 410. -/
def sweep (candidate : TenantInvite) : Script tenancy Answer :=
  .tx do
    let _ ← prisma (some candidate.companyId)
      (.inviteUpdateMany candidate.id .pending { status := .expired })
    pure (.done (.error tenantInviteExpired))

def peek (now : Instant) (code : String) : Script tenancy Answer :=
  .tx do
    let candidate ← prisma none (.invitePreview (codePrefixOf code) (sha256Hex code))
    match candidate with
    | none => pure (.done (.error tenantInviteNotFound))
    | some (candidate, tenant, room) =>
      if candidate.status ≠ .pending then
        pure (.done (.error (terminalState candidate.status)))
      else if candidate.expiresAt ≤ now then pure (sweep candidate)
      else pure (.done (.ok (.preview {
        inviteId := candidate.id
        tenantDisplayHint := redactDisplayName tenant.displayName
        unitNumber := room.map fun r => r.1.unitNumber
        propertyName := room.map fun r => r.2.name
        expiresAt := candidate.expiresAt })))

/-- The tenant's side of a redemption. A violated index has broken the
transaction, so the compensating update that follows fails in its turn. -/
def bindTenant (candidate : TenantInvite) (auditId : Id) (lineUserId : String) :
    Prog tenancy Unit :=
  Prog.attempt
    (do
      let _ ← prisma (some candidate.companyId)
        (.tenantUpdate candidate.tenantId { lineUserId := some lineUserId })
      pure ())
    fun err =>
      if isUniqueConstraintError err "lineUserId" then do
        let _ ← prisma (some candidate.companyId) (.inviteUpdateMany candidate.id .redeemed
          { status := .pending, redeemedAt := some none, redeemedByLineUserId := some none })
        writeAudit candidate.companyId auditId "TENANT_INVITE_BIND_CONFLICT" candidate.id none
          [("tenantId", toString candidate.tenantId), ("codePrefix", candidate.codePrefix),
            ("lineUserId", lineUserId)]
        Prog.throw bindConflict
      else Prog.throw err

/-- The compare-and-set, the binding and the audit row. -/
def redeemPending (candidate : TenantInvite) (slug : String) (auditId : Id) (now : Instant)
    (lineUserId : String) : Script tenancy Answer :=
  .tx do
    let count ← prisma (some candidate.companyId) (.inviteUpdateMany candidate.id .pending
      { status := .redeemed, redeemedAt := some (some now),
        redeemedByLineUserId := some (some lineUserId) })
    if count ≠ 1 then Prog.throw raceLost
    else
      bindTenant candidate auditId lineUserId
      writeAudit candidate.companyId auditId "TENANT_INVITE_REDEEMED" candidate.id none
        [("tenantId", toString candidate.tenantId), ("codePrefix", candidate.codePrefix),
          ("lineUserId", lineUserId)]
      pure (.done (.ok (.redeemed ⟨candidate.tenantId, candidate.companyId, slug, now⟩)))

/-- What `redeem` does with the invite it found; `now` is the time of the
expiry check, `now'` that of the compare-and-set. -/
def redeemFound (candidate : TenantInvite) (slug : String) (auditId : Id) (now now' : Instant)
    (lineUserId : String) : Script tenancy Answer :=
  match candidate.redeemedAt with
  | some redeemedAt =>
    if candidate.status = .redeemed ∧ candidate.redeemedByLineUserId = some lineUserId then
      .done (.ok (.redeemed ⟨candidate.tenantId, candidate.companyId, slug, redeemedAt⟩))
    else rest
  | none => rest
where
  rest : Script tenancy Answer :=
    if candidate.status ≠ .pending then .done (.error (terminalState candidate.status))
    else if candidate.expiresAt ≤ now then sweep candidate
    else redeemPending candidate slug auditId now' lineUserId

def redeem (auditId : Id) (now now' : Instant) (code lineUserId : String) :
    Script tenancy Answer :=
  .tx do
    let candidate ← prisma none (.inviteFindFirst (codePrefixOf code) (sha256Hex code))
    match candidate with
    | none => pure (.done (.error tenantInviteNotFound))
    | some (candidate, company) =>
      pure (redeemFound candidate company.slug auditId now now' lineUserId)

end calls
end TenantInviteService

namespace TenantService

/-- `UpdateTenantInput` without the encrypted columns. -/
structure UpdateTenantInput where
  lineUserId : Option String
  displayName : Option String
  pictureUrl : Option String
  status : Option TenantStatus
  deriving DecidableEq, Repr

def lineUserTaken (lineUserId : Option String) : ApiError :=
  .http 409 "TenantLineUserTaken"
    ("LINE user " ++ lineUserId.getD "" ++ " is already a tenant in this company")

def getById (ctx : Ctx) (id : Id) : Prog tenancy TenantProfile := do
  let row ← prisma (some ctx.companyId) (.tenantFindUnique id)
  match row with
  | none => Prog.throw (.http 404 "" s!"Tenant {id} not found")
  | some row => pure row

def update (ctx : Ctx) (id : Id) (input : UpdateTenantInput) : Prog tenancy Answer := do
  let _ ← getById ctx id
  Prog.attempt
    (do
      let row ← prisma (some ctx.companyId) (.tenantUpdate id {
        lineUserId := input.lineUserId
        displayName := input.displayName
        pictureUrl := input.pictureUrl
        status := input.status })
      pure (.tenant row))
    fun err =>
      if isUniqueConstraintError err "lineUserId" then
        Prog.throw (lineUserTaken input.lineUserId)
      else Prog.throw err

end TenantService

/-- The calls, each with the times, fresh keys and random code it draws. -/
inductive InviteCall where
  | generate (row : AuditLog) (ctx : Ctx) (newId auditId : Id) (now : Instant) (plaintext : String)
      (tenantId actorUserId : Id)
  | revoke (row : AuditLog) (ctx : Ctx) (auditId inviteId : Id) (reason : Option String)
      (actorUserId : Id)
  | peek (now : Instant) (code : String)
  | redeem (auditId : Id) (now now' : Instant) (code lineUserId : String)
  | updateTenant (row : AuditLog) (ctx : Ctx) (id : Id) (input : TenantService.UpdateTenantInput)
  deriving DecidableEq

def InviteCall.script (sha256Hex : String → String) : InviteCall → Script tenancy Answer
  | generate row ctx newId auditId now plaintext tenantId actorUserId =>
    request row (TenantInviteService.generate sha256Hex ctx newId auditId now plaintext tenantId
      actorUserId)
  | revoke row ctx auditId inviteId reason actorUserId =>
    request row (TenantInviteService.revoke ctx auditId inviteId reason actorUserId)
  | peek now code => TenantInviteService.peek sha256Hex now code
  | redeem auditId now now' code lineUserId =>
    TenantInviteService.redeem sha256Hex auditId now now' code lineUserId
  | updateTenant row ctx id input => request row (TenantService.update ctx id input)

end Dormitory.Tenancy
