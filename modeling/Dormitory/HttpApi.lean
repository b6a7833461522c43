import Dormitory.Access
import Dormitory.DashboardService
import Dormitory.Rbac

/-!
# The HTTP API

The routes that write rooms, leases, books, tenants and invites, each with what its
decorators say and with its handler, behind the guards. Bodies are parsed, and what a
handler draws (keys, times, a code) is in the call.
-/

namespace Dormitory
open Txn Rbac Premises Leasing Tenancy

/-- What the handlers take from outside the repository. -/
structure Api where
  jwt : TokenVerifier
  server : Server
  pgcrypto : Pgcrypto
  sha256Hex : String → String
  /-- The LINE account of an id token. -/
  verifyIdToken : String → Option String

/-! ## The settings of a company -/

/-- `promptPayIdSchema`. -/
def promptPayIdSchema (text : String) : Bool :=
  text.toList.all (fun c => '0' ≤ c && c ≤ '9') &&
    (text.length = 10 && text.toList.head? = some '0' || text.length = 13 || text.length = 15)

/-- No modelled function reads the name. -/
structure UpdatePromptPaySettingsInput where
  promptPayId : String
  accepted : promptPayIdSchema promptPayId = true

/-- `prisma.company.update` of the context's company. -/
def CompanyService.setPromptPay (ctx : Ctx) (s : Dorm) (input : UpdatePromptPaySettingsInput) :
    Except Failure (Company × Dorm) :=
  let books := s.estate.books
  match books.companies.find? ctx.companyId with
  | none => .error Failure.missing
  | some company =>
    let row := { company with promptPayId := some input.promptPayId }
    .ok (row, s.withBooks { books with companies := books.companies.put row })

/-! ## Routes -/

/-- A route and its handler's arguments; `row` is the row of the audit interceptor. -/
inductive Endpoint where
  | premises (call : PremisesCall)
  | leasing (call : LeasingCall)
  | invoicing (queueUp : Nat → Bool) (call : InvoicingCall)
  | createPayment (queueUp : Nat → Bool) (newId : Id) (body : CreatePaymentInput)
    (idempotencyKey : Option String)
  | confirmPayment (queueUp : Nat → Bool) (now : Instant) (id : Id)
  | rejectPayment (queueUp : Nat → Bool) (id : Id) (rejectionReason : String)
  | createAnnouncement (queueUp : Nat → Bool) (newId : Id) (body : CreateAnnouncementInput)
    (idempotencyKey : Option String)
  | generateInvite (row : AuditLog) (newId auditId : Id) (now : Instant) (plaintext : String)
    (tenantId : Id)
  | revokeInvite (row : AuditLog) (auditId id : Id) (reason : Option String)
  | peekInvite (now : Instant) (code : String)
  | redeemInvite (auditId : Id) (now now' : Instant) (code lineIdToken : String)
  | mePaymentCreate (queueUp : Nat → Bool) (newId : Id) (body : CreatePaymentInput)
    (idempotencyKey : Option String)
  | mePaymentRegisterSlip (head : Except Failure (Option HeadObject)) (newId paymentId : Id)
    (body : UploadSlipInput)
  | setPromptPay (body : UpdatePromptPaySettingsInput)

def Premises.PremisesCall.perm : PremisesCall → Action × Resource
  | .createProperty _ _ => (.create, .property)
  | .updateProperty _ _ => (.update, .property)
  | .createUnit _ _ => (.create, .unit)
  | .updateUnit _ _ => (.update, .unit)
  | .createTenant _ _ => (.create, .tenant_user)
  | .updateTenant _ _ => (.update, .tenant_user)
  | .registerSlip _ _ _ _ => (.create, .slip)
  | .updateInvoice _ _ => (.update, .invoice)

def Leasing.LeasingCall.perm : LeasingCall → Action × Resource
  | .createContract _ _ => (.create, .contract)
  | .updateContract _ _ => (.update, .contract)
  | .createMeter _ _ => (.create, .meter)
  | .updateMeter _ _ => (.update, .meter)
  | .createReading _ _ _ => (.create, .meter_reading)
  | .updateReading _ _ => (.update, .meter_reading)

def InvoicingCall.perm : InvoicingCall → Action × Resource
  | .create _ _ _ | .createBatch _ _ _ => (.create, .invoice)
  | .issue _ _ => (.approve, .invoice)
  | .void _ => (.update, .invoice)

namespace Endpoint

/-- The permission of a route under `c/:companySlug`. -/
def perm : Endpoint → Option (Action × Resource)
  | premises call => some call.perm
  | leasing call => some call.perm
  | invoicing _ call => some call.perm
  | createPayment _ _ _ _ => some (.create, .payment)
  | confirmPayment _ _ _ | rejectPayment _ _ _ => some (.approve, .payment)
  | createAnnouncement _ _ _ _ => some (.broadcast, .announcement)
  | generateInvite _ _ _ _ _ _ => some (.create, .tenant_user)
  | revokeInvite _ _ _ _ => some (.delete, .tenant_user)
  | setPromptPay _ => some (.update, .company)
  | peekInvite _ _ | redeemInvite _ _ _ _ _ | mePaymentCreate _ _ _ _
  | mePaymentRegisterSlip _ _ _ _ => none

def route : Endpoint → Route
  | peekInvite _ _ | redeemInvite _ _ _ _ _ => { isPublic := true }
  | mePaymentCreate _ _ _ _ | mePaymentRegisterSlip _ _ _ _ => { isTenantAuth := true }
  | e => { perm := e.perm, slugged := true }

end Endpoint

/-! ## Handlers -/

/-- The `Idempotency-Key` that a handler accepts. -/
def idempotencyKeyOf (header : Option String) : Option String :=
  header.filter fun key => 8 ≤ key.length ∧ key.length ≤ 128

namespace MePaymentController

/-- `PaymentService.getByIdForTenant`. -/
def getByIdForTenant (ctx : Ctx) (id tenantId : Id) : Prog premises Payment := do
  let row ← Premises.prisma ctx (.paymentFindUnique id)
  orThrow (.http .notFound "" s!"Payment {id} not found")
    ((row.map Prod.fst).filter fun p => p.tenantId = tenantId)

def registerSlip (ctx : Ctx) (tenantId : Id) (head : Except Failure (Option HeadObject))
    (newId paymentId : Id) (body : UploadSlipInput) : Prog premises Slip := do
  let _ ← getByIdForTenant ctx paymentId tenantId
  SlipService.register ctx head newId paymentId body

end MePaymentController

def RequestUser.sub : RequestUser → Id
  | admin claims => claims.sub
  | tenant claims => claims.sub

namespace Endpoint

/-- A billing call in the user's company. -/
def billed (A : Api) (s : Dorm) (user : RequestUser) (queueUp : Nat → Bool) (call : BillingCall) :
    Dorm :=
  s.withBooks (Request.commit A.server s.db ⟨⟨user.companyId⟩, queueUp, call⟩)

/-- The database after the handler of an authenticated route. -/
def handleAs (A : Api) (s : Dorm) (user : RequestUser) : Endpoint → Dorm
  | premises call => call.commit A.server A.pgcrypto ⟨user.companyId⟩ s
  | leasing call => s.withEstate (call.commit A.server ⟨user.companyId⟩ s.leased)
  | invoicing queueUp call =>
    s.withBooks (InvoicingRequest.commit A.server s.db ⟨⟨user.companyId⟩, queueUp, call⟩)
  | createPayment queueUp newId body key =>
    match idempotencyKeyOf key with
    | none => s
    | some key => billed A s user queueUp (.create newId body key)
  | confirmPayment queueUp now id => billed A s user queueUp (.confirm now id user.sub)
  | rejectPayment queueUp id reason => billed A s user queueUp (.reject id reason)
  | createAnnouncement queueUp newId body key =>
    match idempotencyKeyOf key with
    | none => s
    | some key =>
      s.withBooks
        ((Prog.serve (engine A.server) queueUp s.db
          (AnnouncementService.createBroadcast ⟨user.companyId⟩ newId body key user.sub)).commit
            (engine A.server) s.db)
  | generateInvite row newId auditId now plaintext tenantId =>
    (InviteCall.generate row ⟨user.companyId⟩ newId auditId now plaintext tenantId user.sub).commit
      A.server A.sha256Hex s
  | revokeInvite row auditId id reason =>
    (InviteCall.revoke row ⟨user.companyId⟩ auditId id reason user.sub).commit A.server A.sha256Hex
      s
  | mePaymentCreate queueUp newId body key =>
    match idempotencyKeyOf key with
    | none => s
    | some key => billed A s user queueUp (.createForTenant newId body key user.sub)
  | mePaymentRegisterSlip head newId paymentId body =>
    (Prog.serve (Premises.engine A.server A.pgcrypto) (fun _ => true) s
      (MePaymentController.registerSlip ⟨user.companyId⟩ user.sub head newId paymentId
        body)).commit (Premises.engine A.server A.pgcrypto) s
  | setPromptPay body =>
    match CompanyService.setPromptPay ⟨user.companyId⟩ s body with
    | .error _ => s
    | .ok (_, s') => s'
  | peekInvite _ _ | redeemInvite _ _ _ _ _ => s

/-- The database after the handler. -/
def handle (A : Api) (s : Dorm) (user : Option RequestUser) : Endpoint → Dorm
  | peekInvite now code => (InviteCall.peek now code).commit A.server A.sha256Hex s
  | redeemInvite auditId now now' code lineIdToken =>
    match A.verifyIdToken lineIdToken with
    | none => s
    | some lineUserId =>
      (InviteCall.redeem auditId now now' code lineUserId).commit A.server A.sha256Hex s
  | e =>
    match user with
    | none => s
    | some user => e.handleAs A s user

end Endpoint

/-- A request for one of the routes. -/
structure HttpCall where
  authorization : Option String
  companySlug : Option String
  endpoint : Endpoint

namespace HttpCall

/-- The database after the request. -/
def commit (A : Api) (s : Dorm) (call : HttpCall) : Dorm :=
  match guards A.jwt call.endpoint.route call.authorization call.companySlug with
  | .error _ => s
  | .ok user => call.endpoint.handle A s user

end HttpCall

/-! ## Who may change what -/

/-- The permissions that let an admin change the shelf. -/
def Premises.Shelf.permissions : Shelf → List (Action × Resource)
  | company => [(.update, .company)]
  | properties => [(.create, .property), (.update, .property)]
  | units => [(.create, .unit), (.update, .unit)]
  | contracts => [(.create, .contract), (.update, .contract)]
  | meters => [(.create, .meter), (.update, .meter)]
  | readings => [(.create, .meter_reading), (.update, .meter_reading)]
  | invoices =>
    [(.create, .invoice), (.update, .invoice), (.approve, .invoice), (.approve, .payment)]
  | tenant _ => [(.create, .tenant_user), (.update, .tenant_user)]
  | invite _ => [(.create, .tenant_user), (.delete, .tenant_user)]
  | payments _ => [(.create, .payment), (.approve, .payment)]
  | decisions => [(.approve, .payment)]
  | slip _ => [(.create, .slip)]
  | announcements => [(.broadcast, .announcement)]

/-- The slip of the payment, which is the tenant's. -/
def OwnSlip (s : Dorm) (c tenantId paymentId : Id) (x : Shelf) : Prop :=
  x = .slip paymentId ∧ ∃ p, s.db.payment? c paymentId = some p ∧ p.tenantId = tenantId

namespace HttpCall
variable (A : Api) (c : Id) (x : Shelf) (s : Dorm) (call : HttpCall)

/-- The claims of the bearer token, if it is an admin's. -/
def admin? : Option AdminJwtClaims :=
  (call.authorization.bind bearerToken).bind A.jwt.verifyAccessToken

/-- The claims of the bearer token, if it is a tenant's. -/
def tenant? : Option TenantJwtClaims :=
  (call.authorization.bind bearerToken).bind A.jwt.verifyTenantToken

/-- An admin of the company, under its path, with a role that grants what the route
demands, which is one of the shelf's permissions. -/
def ByStaff : Prop :=
  ∃ claims, call.admin? A = some claims ∧ claims.companyId = c ∧
    (∀ slug ∈ call.companySlug, slug ≠ "" → slug = claims.companySlug) ∧
    ∃ p ∈ x.permissions, call.endpoint.perm = some p ∧ can claims.roles p.1 p.2

/-- A tenant of the company, and the tenant's own payments and their slips. -/
def ByTenant : Prop :=
  ∃ claims, call.tenant? A = some claims ∧ claims.companyId = c ∧
    match call.endpoint with
    | .mePaymentCreate _ _ _ _ => x = .payments claims.sub
    | .mePaymentRegisterSlip _ _ paymentId _ => OwnSlip s c claims.sub paymentId x
    | _ => False

/-- Somebody with the code of one of the company's invites, and that invite and its
tenant. -/
def ByCode : Prop :=
  ∃ i, i.companyId = c ∧ TenantInviteService.Opens i x ∧
    match call.endpoint with
    | .peekInvite _ code | .redeemInvite _ _ _ code _ =>
      s.tenancy.inviteByCode? none (TenantInviteService.codePrefixOf code) (A.sha256Hex code) =
        some i
    | _ => False

/-- The caller may change the shelf of the company. -/
def May : Prop := call.ByStaff A c x ∨ call.ByTenant A c x s ∨ call.ByCode A c x s

end HttpCall

/-- What a route demands, an owner has. -/
theorem Endpoint.granted {e : Endpoint} {p : Action × Resource} (demands : e.perm = some p) :
    ⟨p.2, p.1⟩ ∈ companyOwner := by
  have all : e.perm.all (fun p => companyOwner.contains ⟨p.2, p.1⟩) = true := by
    cases e with
    | premises call => cases call <;> rfl
    | leasing call => cases call <;> rfl
    | invoicing queueUp call => cases call <;> rfl
    | _ => rfl
  rw [demands] at all
  exact List.contains_iff_mem.mp all

/-- No route has a permission that `@Perm` throws at. -/
theorem Endpoint.perm_ok {e : Endpoint} {p : Action × Resource} (demands : e.perm = some p) :
    Perm p.1 p.2 = .ok (allowedRoles p.1 p.2) := by
  have owner : ⟨p.2, p.1⟩ ∈ matrix .company_owner := Endpoint.granted demands
  exact Perm_ok owner

/-! ### The guards -/

section guards
variable {A : Api} {c : Id} {x : Shelf} {s : Dorm} {call : HttpCall} {user : Option RequestUser}

theorem ok_of_bind {ε α β : Type} {x : Except ε α} {f : α → Except ε β} {b : β}
    (ok : (x >>= f) = .ok b) : ∃ a, x = .ok a ∧ f a = .ok b := by
  cases x with
  | error e => cases ok
  | ok a => exact ⟨a, rfl, ok⟩

theorem guards_ok {jwt : TokenVerifier} {route : Route} {authorization slug : Option String}
    (passed : guards jwt route authorization slug = .ok user) :
    JwtGuard.canActivate jwt route authorization = .ok user ∧
      RbacGuard.canActivate route user = .ok () ∧
      PathCompanyGuard.canActivate (if route.slugged then slug else none) user = .ok () := by
  obtain ⟨user', token, passed⟩ := ok_of_bind passed
  obtain ⟨⟨⟩, role, passed⟩ := ok_of_bind passed
  obtain ⟨⟨⟩, path, passed⟩ := ok_of_bind passed
  cases passed
  exact ⟨token, role, path⟩

theorem RbacGuard.passed {route : Route} {claims : AdminJwtClaims}
    (demands : route.allowedRoles ≠ [])
    (passed : RbacGuard.canActivate route (some (.admin claims)) = .ok ()) :
    ∃ role ∈ claims.roles, role ∈ route.allowedRoles := by
  unfold RbacGuard.canActivate at passed
  rw [if_neg (by simpa [List.isEmpty_iff] using demands)] at passed
  simp only [RequestUser.roles?] at passed
  split at passed
  · rename_i holds
    obtain ⟨role, held, allowed⟩ := List.any_eq_true.mp holds
    exact ⟨role, held, List.contains_iff_mem.mp allowed⟩
  · cases passed

theorem PathCompanyGuard.passed {slug : Option String} {user : RequestUser}
    (passed : PathCompanyGuard.canActivate slug (some user) = .ok ()) :
    ∀ given ∈ slug, given ≠ "" → given = user.companySlug := by
  intro given mem named
  by_contra other
  have kept : slug.filter (fun slug => decide (slug ≠ "")) = some given :=
    Option.filter_eq_some_iff.mpr ⟨mem, decide_eq_true named⟩
  simp only [PathCompanyGuard.canActivate, kept] at passed
  rw [if_pos other] at passed
  cases passed

/-- A route that a company owner has passes only those who have it, under their own
path. -/
theorem staff_passed {action : Action} {resource : Resource}
    (granted : ⟨resource, action⟩ ∈ companyOwner)
    (passed : guards A.jwt { perm := some (action, resource), slugged := true }
      call.authorization call.companySlug = .ok user) :
    ∃ claims, user = some (.admin claims) ∧ call.admin? A = some claims ∧
      (∀ slug ∈ call.companySlug, slug ≠ "" → slug = claims.companySlug) ∧
      can claims.roles action resource := by
  obtain ⟨token, role, path⟩ := guards_ok passed
  simp only [JwtGuard.canActivate, Bool.false_eq_true, if_false] at token
  cases header : call.authorization.bind bearerToken with
  | none => simp [header] at token
  | some bearer =>
    simp only [header] at token
    cases verified : A.jwt.verifyAccessToken bearer with
    | none => simp [verified] at token
    | some claims =>
      obtain rfl : some (.admin claims) = user := by simpa [verified] using token
      have demanded : Role.company_owner ∈
          Route.allowedRoles { perm := some (action, resource), slugged := true } :=
        (Route.mem_allowedRoles rfl).mpr (mem_allowedRoles.mpr granted)
      obtain ⟨held, has, allowed⟩ := RbacGuard.passed (List.ne_nil_of_mem demanded) role
      exact ⟨claims, rfl, by simp [HttpCall.admin?, header, verified],
        PathCompanyGuard.passed path,
        can_iff.mpr ⟨held, has, (Route.mem_allowedRoles rfl).mp allowed⟩⟩

/-- Whoever has it passes. -/
theorem staff_admitted {action : Action} {resource : Resource} {claims : AdminJwtClaims}
    (known : call.admin? A = some claims)
    (path : ∀ slug ∈ call.companySlug, slug ≠ "" → slug = claims.companySlug)
    (holds : can claims.roles action resource) :
    guards A.jwt { perm := some (action, resource), slugged := true } call.authorization
      call.companySlug = .ok (some (.admin claims)) := by
  obtain ⟨bearer, header, verified⟩ := Option.bind_eq_some_iff.mp known
  have token : JwtGuard.canActivate A.jwt { perm := some (action, resource), slugged := true }
      call.authorization = .ok (some (.admin claims)) := by
    simp [JwtGuard.canActivate, header, verified]
  have role : RbacGuard.canActivate { perm := some (action, resource), slugged := true }
      (some (.admin claims)) = .ok () := by
    obtain ⟨role, held, allowed⟩ := can_iff.mp holds
    simp only [RbacGuard.canActivate, RequestUser.roles?]
    split
    · rfl
    · exact if_pos (List.any_eq_true.mpr ⟨role, held,
        List.contains_iff_mem.mpr ((Route.mem_allowedRoles rfl).mpr allowed)⟩)
  have slug : PathCompanyGuard.canActivate call.companySlug (some (.admin claims)) = .ok () := by
    unfold PathCompanyGuard.canActivate
    split
    · rename_i named user given same
      cases same
      obtain ⟨mem, present⟩ := Option.filter_eq_some_iff.mp given
      exact if_neg (not_not.mpr (path named mem (of_decide_eq_true present)))
    · rfl
  simp only [guards, token, role, slug, if_true, bind, Except.bind, pure, Except.pure]

theorem tenant_passed
    (passed : guards A.jwt { isTenantAuth := true } call.authorization call.companySlug =
      .ok user) :
    ∃ claims, user = some (.tenant claims) ∧ call.tenant? A = some claims := by
  obtain ⟨token, -, -⟩ := guards_ok passed
  simp only [JwtGuard.canActivate, Bool.false_eq_true, if_false, if_true] at token
  cases header : call.authorization.bind bearerToken with
  | none => simp [header] at token
  | some bearer =>
    simp only [header] at token
    cases verified : A.jwt.verifyTenantToken bearer with
    | none => simp [verified] at token
    | some claims =>
      obtain rfl : some (.tenant claims) = user := by simpa [verified] using token
      exact ⟨claims, rfl, by simp [HttpCall.tenant?, header, verified]⟩

end guards

/-! ### One request -/

section request
variable {A : Api} {c : Id} {x : Shelf} {s : Dorm} {call : HttpCall} {user : Option RequestUser}

/-- What an admin's handler can change stays as it is, if the caller may not. -/
theorem staff_kept {claims : AdminJwtClaims} {X : Shelf → Prop} {s' : Dorm}
    {p : Action × Resource} (demands : call.endpoint.perm = some p)
    (known : call.admin? A = some claims)
    (path : ∀ slug ∈ call.companySlug, slug ≠ "" → slug = claims.companySlug)
    (holds : can claims.roles p.1 p.2) (kept : Kept claims.companyId X s s')
    (names : ∀ x, X x → p ∈ x.permissions) (other : ¬call.May A c x s) :
    x.Same c s s' := by
  apply kept c x
  by_contra inside
  obtain ⟨mine, inside⟩ := not_or.mp inside
  exact other (.inl ⟨claims, known, (not_not.mp mine).symm, path, p, names x (not_not.mp inside),
    demands, holds⟩)

theorem invite_kept {call : InviteCall} {claims : AdminJwtClaims} {y : Shelf}
    (shelved : ∀ d x, call.Shelved A.sha256Hex s.tenancy d x → d = claims.companyId ∧ x = y) :
    Kept claims.companyId (· = y) s (call.commit A.server A.sha256Hex s) := by
  intro d x other
  apply InviteCall.commit_kept call
  intro inside
  obtain ⟨mine, same⟩ := shelved d x inside
  exact other.elim (fun apart => apart mine) fun outside => outside same

theorem Endpoint.billed_kept (A : Api) (s : Dorm) (claims : AdminJwtClaims)
    (queueUp : Nat → Bool) (call : BillingCall) :
    Kept claims.companyId call.Shelved s (billed A s (.admin claims) queueUp call) :=
  Dormitory.Request.commit_kept ⟨⟨claims.companyId⟩, queueUp, call⟩

/-- The row is the only one of the company. -/
theorem CompanyService.setPromptPay_row {ctx : Ctx} {input : UpdatePromptPaySettingsInput}
    {row : Company} {s' : Dorm} (ok : setPromptPay ctx s input = .ok (row, s')) :
    ∃ company ∈ s.estate.books.companies.rows, company.id = ctx.companyId ∧
      row = { company with promptPayId := some input.promptPayId } ∧
      s' = s.withBooks
        { s.estate.books with companies := s.estate.books.companies.put row } := by
  simp only [setPromptPay] at ok
  split at ok
  · cases ok
  · rename_i company found
    cases ok
    exact ⟨company, Table.find?_mem found, Table.find?_key found, rfl, rfl⟩

theorem CompanyService.setPromptPay_kept {ctx : Ctx} {input : UpdatePromptPaySettingsInput}
    {row : Company} {s' : Dorm} (ok : setPromptPay ctx s input = .ok (row, s')) :
    Kept ctx.companyId (· = .company) s s' := by
  obtain ⟨company, -, named, rfl, rfl⟩ := setPromptPay_row ok
  intro d x other
  cases x with
  | company =>
    have apart : company.id ≠ d :=
      fun same => (other.resolve_right fun outside => outside rfl) (same.symm.trans named)
    exact Table.Agree.put_keyed apart fun _ here => here
  | _ => exact Table.Agree.refl _

/-- **What an admin's handler changes, its route's permission allows.** -/
theorem Endpoint.handleAs_kept (A : Api) (s : Dorm) (claims : AdminJwtClaims) {e : Endpoint}
    {p : Action × Resource} (demands : e.perm = some p) :
    ∃ X : Shelf → Prop, Kept claims.companyId X s (e.handleAs A s (.admin claims)) ∧
      ∀ x, X x → p ∈ x.permissions := by
  cases e with
  | premises call =>
    obtain rfl := Option.some.inj demands
    have kept : Kept claims.companyId (· = call.shelf) s
        (call.commit A.server A.pgcrypto ⟨claims.companyId⟩ s) :=
      call.commit_kept ⟨claims.companyId⟩
    refine ⟨_, kept, ?_⟩
    rintro x rfl
    cases call <;> simp [PremisesCall.perm, PremisesCall.shelf, Shelf.permissions]
  | leasing call =>
    obtain rfl := Option.some.inj demands
    have kept : Kept claims.companyId (· = call.shelf) s
        (s.withEstate (call.commit A.server ⟨claims.companyId⟩ s.leased)) :=
      call.commit_kept ⟨claims.companyId⟩
    refine ⟨_, kept, ?_⟩
    rintro x rfl
    cases call <;> simp [LeasingCall.perm, LeasingCall.shelf, Shelf.permissions]
  | invoicing queueUp call =>
    obtain rfl := Option.some.inj demands
    refine ⟨_, InvoicingRequest.commit_kept ⟨⟨claims.companyId⟩, queueUp, call⟩, ?_⟩
    rintro x rfl
    cases call <;> simp [InvoicingCall.perm, Shelf.permissions]
  | createPayment queueUp newId body header =>
    obtain rfl := Option.some.inj demands
    refine ⟨fun x => ∃ tenantId, x = .payments tenantId, ?_, ?_⟩
    · simp only [handleAs]
      split
      · exact .refl s
      · rename_i key _
        exact billed_kept A s claims queueUp (.create newId body key)
    · rintro x ⟨tenantId, rfl⟩
      simp [Shelf.permissions]
  | confirmPayment queueUp now id =>
    obtain rfl := Option.some.inj demands
    refine ⟨_, billed_kept A s claims queueUp (.confirm now id claims.sub), ?_⟩
    rintro x (rfl | rfl | ⟨tenantId, rfl⟩) <;> simp [Shelf.permissions]
  | rejectPayment queueUp id reason =>
    obtain rfl := Option.some.inj demands
    refine ⟨_, billed_kept A s claims queueUp (.reject id reason), ?_⟩
    rintro x (rfl | ⟨tenantId, rfl⟩) <;> simp [Shelf.permissions]
  | createAnnouncement queueUp newId body header =>
    obtain rfl := Option.some.inj demands
    refine ⟨(· = .announcements), ?_, ?_⟩
    · simp only [handleAs]
      split
      · exact .refl s
      · rename_i key _
        refine withBooks_kept (Call.serve_kept (R := fun _ => True) ?_ queueUp)
        exact AnnouncementService.createBroadcast_within newId body key claims.sub
    · rintro x rfl
      simp [Shelf.permissions]
  | generateInvite row newId auditId now plaintext tenantId =>
    obtain rfl := Option.some.inj demands
    refine ⟨(· = .invite newId), invite_kept fun d x inside => inside, ?_⟩
    rintro x rfl
    simp [Shelf.permissions]
  | revokeInvite row auditId id reason =>
    obtain rfl := Option.some.inj demands
    refine ⟨(· = .invite id), invite_kept fun d x inside => inside, ?_⟩
    rintro x rfl
    simp [Shelf.permissions]
  | setPromptPay body =>
    obtain rfl := Option.some.inj demands
    refine ⟨(· = .company), ?_, ?_⟩
    · simp only [handleAs]
      split
      · exact .refl s
      · rename_i stored
        exact CompanyService.setPromptPay_kept stored
    · rintro x rfl
      simp [Shelf.permissions]
  | peekInvite | redeemInvite | mePaymentCreate | mePaymentRegisterSlip => cases demands

theorem Endpoint.of_perm {e : Endpoint} {p : Action × Resource} (demands : e.perm = some p) :
    e.route = { perm := some p, slugged := true } ∧
      ∀ (A : Api) (s : Dorm) (user : RequestUser),
        e.handle A s (some user) = e.handleAs A s user := by
  cases e with
  | peekInvite | redeemInvite | mePaymentCreate | mePaymentRegisterSlip => cases demands
  | _ =>
    have same := congrArg (fun perm => ({ perm := perm, slugged := true } : Route)) demands
    exact ⟨same, fun _ _ _ => rfl⟩

/-- Slips aside, a payment that is found was there before. -/
theorem payment_before {tenantId paymentId : Id} {st : Dorm} {p : Payment}
    (kept : Kept c (OwnSlip s c tenantId paymentId) s st)
    (found : st.db.payment? c paymentId = some p) : s.db.payment? c paymentId = some p := by
  obtain ⟨stored, mine⟩ := Option.filter_eq_some_iff.mp found
  have same : Shelf.Same c s st (.payments p.tenantId) :=
    kept c _ (.inr fun slip => nomatch slip.1)
  have before : p ∈ s.db.payments.rows :=
    (Table.Agree.mem same ⟨of_decide_eq_true mine, rfl⟩).mp (Table.find?_mem stored)
  refine Option.filter_eq_some_iff.mpr ⟨?_, mine⟩
  rw [← Table.find?_key stored]
  exact Table.find?_of_mem before

/-- A tenant attaches a slip to an own payment. -/
theorem MePaymentController.registerSlip_kept (S : Server) (P : Pgcrypto) (ctx : Ctx)
    (tenantId : Id) (head : Except Failure (Option HeadObject)) (newId paymentId : Id)
    (body : UploadSlipInput) :
    Kept ctx.companyId (OwnSlip s ctx.companyId tenantId paymentId) s
      (((registerSlip ctx tenantId head newId paymentId body).serve (Premises.engine S P)
        (fun _ => true) s).commit (Premises.engine S P) s) := by
  have seen : (Premises.prisma ctx (.paymentFindUnique paymentId)).Asks (Premises.engine S P)
      (Kept ctx.companyId (OwnSlip s ctx.companyId tenantId paymentId) s)
      (Stays ctx.companyId (OwnSlip s ctx.companyId tenantId paymentId))
      (fun row : Option (Payment × Option Slip) => ∀ p ∈ row.map Prod.fst,
        s.db.payment? ctx.companyId paymentId = some p) := by
    refine Prog.Asks.query (σ := premises)
      (s := (⟨ctx.companyId, .paymentFindUnique paymentId⟩ : Premises.Statement))
      ⟨⟨rfl, trivial⟩, fun _ => False.elim⟩ ?_
    intro st ws a kept ran p found
    cases ran
    obtain ⟨pair, listed, rfl⟩ := Option.map_eq_some_iff.mp found
    obtain ⟨payment, stored, rfl⟩ := Option.map_eq_some_iff.mp listed
    exact payment_before kept stored
  refine serve_kept (R := fun _ => True) (Prog.Asks.bind (seen.bind fun row known => ?_)
    fun p (own : s.db.payment? ctx.companyId paymentId = some p ∧ p.tenantId = tenantId) => ?_)
  · apply (orThrow_within _ _ _).imp
    intro p held
    obtain ⟨held, tenant⟩ := Option.filter_eq_some_iff.mp held
    exact ⟨known p held, of_decide_eq_true tenant⟩
  · exact (SlipService.register_within head newId paymentId body).mono fun x same =>
      ⟨same, p, own.1, own.2⟩

/-- What a tenant's handler can change stays as it is, if the tenant may not. -/
theorem tenant_kept {claims : TenantJwtClaims} (known : call.tenant? A = some claims)
    (other : ¬call.May A c x s) (demands : call.endpoint.route = { isTenantAuth := true }) :
    x.Same c s (call.endpoint.handle A s (some (.tenant claims))) := by
  obtain ⟨authorization, slug, e⟩ := call
  have outside : ∀ X : Shelf → Prop, (claims.companyId = c → X x →
      HttpCall.ByTenant A c x s ⟨authorization, slug, e⟩) → c ≠ claims.companyId ∨ ¬X x := by
    intro X reach
    by_contra inside
    obtain ⟨mine, inside⟩ := not_or.mp inside
    exact other (.inr (.inl (reach (not_not.mp mine).symm (not_not.mp inside))))
  cases e with
  | mePaymentCreate queueUp newId body header =>
    simp only [Endpoint.handle, Endpoint.handleAs]
    split
    · exact Shelf.Same.refl x c s
    · rename_i key _
      have kept : Kept claims.companyId (· = .payments claims.sub) s
          (Endpoint.billed A s (.tenant claims) queueUp
            (.createForTenant newId body key claims.sub)) :=
        Dormitory.Request.commit_kept
          ⟨⟨claims.companyId⟩, queueUp, .createForTenant newId body key claims.sub⟩
      exact kept c x
        (outside (· = .payments claims.sub) fun mine same => ⟨claims, known, mine, same⟩)
  | mePaymentRegisterSlip head newId paymentId body =>
    exact MePaymentController.registerSlip_kept A.server A.pgcrypto ⟨claims.companyId⟩ claims.sub
      head newId paymentId body c x (outside _ fun mine own => ⟨claims, known, mine, mine ▸ own⟩)
  | _ => cases demands

/-- Whoever has the code may open its invite. -/
theorem code_kept {invite : InviteCall}
    (reach : invite.Shelved A.sha256Hex s.tenancy c x → call.ByCode A c x s)
    (other : ¬call.May A c x s) : x.Same c s (invite.commit A.server A.sha256Hex s) :=
  InviteCall.commit_kept invite fun inside => other (.inr (.inr (reach inside)))

/-- **A request changes what its caller may change.** -/
theorem HttpCall.commit_same (other : ¬call.May A c x s) : x.Same c s (call.commit A s) := by
  unfold HttpCall.commit
  split
  case h_1 => exact Shelf.Same.refl x c s
  case h_2 user passed =>
    cases demands : call.endpoint.perm with
    | some p =>
      obtain ⟨route, handled⟩ := Endpoint.of_perm demands
      rw [route] at passed
      obtain ⟨claims, rfl, known, path, holds⟩ := staff_passed (Endpoint.granted demands) passed
      obtain ⟨X, kept, names⟩ := Endpoint.handleAs_kept A s claims demands
      rw [handled]
      exact staff_kept demands known path holds kept names other
    | none =>
      obtain ⟨authorization, slug, e⟩ := call
      cases e with
      | peekInvite now code =>
        exact code_kept (fun ⟨i, found, mine, opens⟩ => ⟨i, mine.symm, opens, found⟩) other
      | redeemInvite auditId now now' code lineIdToken =>
        simp only [Endpoint.handle]
        split
        · exact Shelf.Same.refl x c s
        · exact code_kept (fun ⟨i, found, mine, opens⟩ => ⟨i, mine.symm, opens, found⟩) other
      | mePaymentCreate queueUp newId body header =>
        obtain ⟨claims, rfl, known⟩ := tenant_passed passed
        exact tenant_kept known other rfl
      | mePaymentRegisterSlip head newId paymentId body =>
        obtain ⟨claims, rfl, known⟩ := tenant_passed passed
        exact tenant_kept known other rfl
      | _ => cases demands

/-- A request under a permission is refused, or handled as the admin's. -/
theorem HttpCall.commit_staff {claims : AdminJwtClaims} {p : Action × Resource}
    (known : call.admin? A = some claims) (demands : call.endpoint.perm = some p) :
    call.commit A s = s ∨ call.commit A s = call.endpoint.handleAs A s (.admin claims) := by
  unfold HttpCall.commit
  split
  case h_1 => exact .inl rfl
  case h_2 user passed =>
    obtain ⟨route, handled⟩ := Endpoint.of_perm demands
    rw [route] at passed
    obtain ⟨claims', rfl, known', -⟩ := staff_passed (Endpoint.granted demands) passed
    obtain rfl : claims = claims' := Option.some.inj (known.symm.trans known')
    exact .inr (handled A s _)

end request

/-! ### Any number of requests -/

/-- The database after the requests, one after the other. -/
def commitAll (A : Api) (s : Dorm) (calls : List HttpCall) : Dorm :=
  calls.foldl (fun s call => call.commit A s) s

namespace Demo

def owner : AdminJwtClaims := ⟨7, 1, "acme", "owner@acme.test", [.company_owner]⟩

/-- One admin, and no sessions of tenants. -/
def api : Api where
  jwt :=
    { verifyAccessToken := fun token =>
        if token = "owner" then some owner else none
      verifyTenantToken := fun _ => none }
  server := server
  pgcrypto := ⟨id, some⟩
  sha256Hex := id
  verifyIdToken := fun _ => none

/-- A payment in full that nobody has looked at. -/
def paidInCash : Dorm where
  estate := { books := db [invoice 1 11 (baht 100) .issued] [payment 5 1 11 (baht 100) "k"] }

def byOwner (e : Endpoint) : HttpCall := ⟨some "Bearer owner", some "acme", e⟩

theorem byOwner_commit {e : Endpoint} {p : Action × Resource} (demands : e.perm = some p)
    (s : Dorm) : (byOwner e).commit api s = e.handleAs api s (.admin owner) := by
  obtain ⟨route, handled⟩ := Endpoint.of_perm demands
  have holds : can owner.roles p.1 p.2 :=
    can_iff.mpr ⟨.company_owner, List.mem_singleton.mpr rfl,
      mem_allowedRoles.mpr (Endpoint.granted demands)⟩
  have admitted : guards api.jwt (byOwner e).endpoint.route (byOwner e).authorization
      (byOwner e).companySlug = .ok (some (.admin owner)) := by
    rw [show (byOwner e).endpoint.route = _ from route]
    exact staff_admitted rfl (fun _ named _ => (Option.some.inj named).symm) holds
  unfold HttpCall.commit
  rw [admitted]
  exact handled api s (.admin owner)

def confirmation : HttpCall := byOwner (.confirmPayment (fun _ => true) 50 5)

def confirmedInCash : Payment :=
  (PaymentService.confirmPatch 50 7).apply (payment 5 1 11 (baht 100) "k")

theorem confirmation_stored :
    confirmedInCash ∈ (commitAll api paidInCash [confirmation]).db.payments.rows := by
  change confirmedInCash ∈ (confirmation.commit api paidInCash).db.payments.rows
  rw [confirmation, byOwner_commit (p := (.approve, .payment)) rfl]
  decide

end Demo

/-- The request confirms the payment: it is by an admin of the company under its path,
with a role that has the permission, and the row names the admin. -/
def HttpCall.Confirms (A : Api) (s : Dorm) (call : HttpCall) (p : Payment) : Prop :=
  ∃ claims queueUp now, call.endpoint = .confirmPayment queueUp now p.id ∧
    call.admin? A = some claims ∧ claims.companyId = p.companyId ∧
    (∀ slug ∈ call.companySlug, slug ≠ "" → slug = claims.companySlug) ∧
    can claims.roles .approve .payment ∧ p.confirmedByUserId = some claims.sub ∧
    p.confirmedAt = some now ∧ ∃ old ∈ s.db.payments.rows, old.id = p.id ∧ old.status = .pending

section confirmed
variable {A : Api} {s : Dorm} {S : Server} {queueUp : Nat → Bool} {ctx : Ctx} {db : Db}
  {p : Payment} {id : Id}

theorem confirm_stored {now : Instant} {user : Id}
    (stored : p ∈ (BillingCall.commit S queueUp ctx db (.confirm now id user)).payments.rows) :
    p ∈ db.payments.rows ∨ ∃ old, db.payment? ctx.companyId id = some old ∧
      old.status = .pending ∧ p = (PaymentService.confirmPatch now user).apply old := by
  rw [BillingCall.commit_eq] at stored
  simp only [BillingCall.rows, PaymentService.confirmRows] at stored
  split at stored
  · rename_i row decided
    rw [List.foldl_cons, payments_rollup] at stored
    obtain ⟨old, found, pending, -, rfl⟩ := PaymentService.decidedRow_some decided
    rcases Table.mem_put.mp stored with rfl | ⟨before, -⟩
    · exact .inr ⟨old, found, pending, rfl⟩
    · exact .inl before
  · exact .inl stored

theorem reject_stored {reason : String} (status : p.status = .confirmed)
    (stored : p ∈ (BillingCall.commit S queueUp ctx db (.reject id reason)).payments.rows) :
    p ∈ db.payments.rows := by
  rw [BillingCall.commit_eq] at stored
  simp only [BillingCall.rows, PaymentService.rejectRows] at stored
  split at stored
  · rename_i row decided
    obtain ⟨old, -, -, -, rfl⟩ := PaymentService.decidedRow_some decided
    rcases Table.mem_put.mp stored with rfl | ⟨before, -⟩
    · cases status
    · exact before
  · exact stored

/-- The routes that decide on payments. -/
theorem Endpoint.approves {e : Endpoint} (demands : e.perm = some (.approve, .payment)) :
    (∃ queueUp now id, e = .confirmPayment queueUp now id) ∨
      ∃ queueUp id reason, e = .rejectPayment queueUp id reason := by
  cases e with
  | confirmPayment queueUp now id => exact .inl ⟨queueUp, now, id, rfl⟩
  | rejectPayment queueUp id reason => exact .inr ⟨queueUp, id, reason, rfl⟩
  | premises call => cases call <;> cases demands
  | leasing call => cases call <;> cases demands
  | invoicing queueUp call => cases call <;> cases demands
  | _ => cases demands

/-- A confirmed payment was there before the request, or the request confirms it. -/
theorem HttpCall.confirmed_step {call : HttpCall} (status : p.status = .confirmed)
    (stored : p ∈ (call.commit A s).db.payments.rows) :
    p ∈ s.db.payments.rows ∨ call.Confirms A s p := by
  have decided : p.companyId = p.companyId ∧ p.status ≠ .pending := by simp [status]
  by_cases may : call.May A p.companyId .decisions s
  case neg => exact .inl ((Table.Agree.mem (HttpCall.commit_same may) decided).mp stored)
  rcases may with ⟨claims, known, mine, path, perm, listed, demands, holds⟩ | tenant | code
  case inr.inl =>
    obtain ⟨claims, -, -, own⟩ := tenant
    split at own
    · cases own
    · cases own.1
    · exact own.elim
  case inr.inr =>
    obtain ⟨i, -, opens, -⟩ := code
    rcases opens with invite | tenant
    · cases invite
    · cases tenant
  obtain rfl := List.mem_singleton.mp listed
  rcases HttpCall.commit_staff (s := s) known demands with refused | handled
  · rw [refused] at stored
    exact .inl stored
  rw [handled] at stored
  rcases Endpoint.approves demands with ⟨queueUp, now, id, routed⟩ | ⟨queueUp, id, reason, routed⟩
  · rw [routed] at stored
    rcases confirm_stored stored with before | ⟨old, found, pending, rfl⟩
    · exact .inl before
    · obtain ⟨there, -⟩ := Option.filter_eq_some_iff.mp found
      obtain rfl : old.id = id := Table.find?_key there
      exact .inr ⟨claims, queueUp, now, routed, known, mine, path, holds, rfl, rfl, old,
        Table.find?_mem there, rfl, pending⟩
  · rw [routed] at stored
    exact .inl (reject_stored status stored)

/-- **Money counts as received only when an approver says so**: a payment that is
confirmed after any requests was so before them, or one of them is the confirmation of
it, while it was pending, by the admin that its row names. -/
theorem confirmed_by_approver (A : Api) (s : Dorm) (calls : List HttpCall) (p : Payment)
    (status : p.status = .confirmed) (stored : p ∈ (commitAll A s calls).db.payments.rows) :
    p ∈ s.db.payments.rows ∨ ∃ before call rest, calls = before ++ call :: rest ∧
      call.Confirms A (commitAll A s before) p := by
  induction calls generalizing s with
  | nil => exact .inl stored
  | cons call rest ih =>
    rcases ih (call.commit A s) stored with there | ⟨before, call', rest', rfl, confirms⟩
    · rcases HttpCall.confirmed_step status there with first | confirms
      · exact .inl first
      · exact .inr ⟨[], call, rest, rfl, confirms⟩
    · exact .inr ⟨call :: before, call', rest', rfl, confirms⟩

open Demo in
theorem confirmed_by_approver_cash :
    ∃ before call rest, [confirmation] = before ++ call :: rest ∧
      call.Confirms api (commitAll api paidInCash before) confirmedInCash :=
  (confirmed_by_approver api paidInCash [confirmation] confirmedInCash rfl
    confirmation_stored).resolve_left (by decide)

end confirmed


end Dormitory
