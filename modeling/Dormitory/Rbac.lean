import Dormitory.AuthService
import Dormitory.Bindings

/-!
# Roles and guards

The permission matrix of the five roles, and the three guards that a request
passes before its handler: the bearer token, the roles of the route, the company
of the path. Signatures are the token library's; the guards take what it answers.
-/

namespace Dormitory

def Role.toString : Role → String
  | company_owner => "company_owner"
  | property_manager => "property_manager"
  | staff => "staff"
  | tenant => "tenant"
  | guardian => "guardian"

namespace Rbac

inductive Resource where
  | company | property | unit | meter | contract | invoice | payment | slip | meter_reading
  | maintenance_ticket | announcement | tenant_user | staff_user | audit_log | dashboard
  deriving DecidableEq, Repr

inductive Action where
  | read | create | update | delete | approve | broadcast
  deriving DecidableEq, Repr

def Resource.toString : Resource → String
  | company => "company"
  | property => "property"
  | unit => "unit"
  | meter => "meter"
  | contract => "contract"
  | invoice => "invoice"
  | payment => "payment"
  | slip => "slip"
  | meter_reading => "meter_reading"
  | maintenance_ticket => "maintenance_ticket"
  | announcement => "announcement"
  | tenant_user => "tenant_user"
  | staff_user => "staff_user"
  | audit_log => "audit_log"
  | dashboard => "dashboard"

def Action.toString : Action → String
  | read => "read"
  | create => "create"
  | update => "update"
  | delete => "delete"
  | approve => "approve"
  | broadcast => "broadcast"

/-- The key `resource:action`. -/
structure PermissionKey where
  resource : Resource
  action : Action
  deriving DecidableEq, Repr

def PermissionKey.toString (key : PermissionKey) : String :=
  s!"{key.resource.toString}:{key.action.toString}"

def companyOwner : List PermissionKey :=
  [⟨.announcement, .broadcast⟩, ⟨.announcement, .create⟩, ⟨.announcement, .delete⟩,
   ⟨.announcement, .read⟩, ⟨.announcement, .update⟩, ⟨.audit_log, .read⟩, ⟨.company, .read⟩,
   ⟨.company, .update⟩, ⟨.contract, .create⟩, ⟨.contract, .delete⟩, ⟨.contract, .read⟩,
   ⟨.contract, .update⟩, ⟨.dashboard, .read⟩, ⟨.invoice, .approve⟩, ⟨.invoice, .create⟩,
   ⟨.invoice, .delete⟩, ⟨.invoice, .read⟩, ⟨.invoice, .update⟩, ⟨.maintenance_ticket, .approve⟩,
   ⟨.maintenance_ticket, .create⟩, ⟨.maintenance_ticket, .delete⟩, ⟨.maintenance_ticket, .read⟩,
   ⟨.maintenance_ticket, .update⟩, ⟨.meter, .create⟩, ⟨.meter, .delete⟩, ⟨.meter, .read⟩,
   ⟨.meter, .update⟩, ⟨.meter_reading, .create⟩, ⟨.meter_reading, .delete⟩, ⟨.meter_reading, .read⟩,
   ⟨.meter_reading, .update⟩, ⟨.payment, .approve⟩, ⟨.payment, .create⟩, ⟨.payment, .read⟩,
   ⟨.payment, .update⟩, ⟨.property, .create⟩, ⟨.property, .delete⟩, ⟨.property, .read⟩,
   ⟨.property, .update⟩, ⟨.slip, .approve⟩, ⟨.slip, .create⟩, ⟨.slip, .read⟩, ⟨.slip, .update⟩,
   ⟨.staff_user, .create⟩, ⟨.staff_user, .delete⟩, ⟨.staff_user, .read⟩, ⟨.staff_user, .update⟩,
   ⟨.tenant_user, .create⟩, ⟨.tenant_user, .delete⟩, ⟨.tenant_user, .read⟩, ⟨.tenant_user, .update⟩,
   ⟨.unit, .create⟩, ⟨.unit, .delete⟩, ⟨.unit, .read⟩, ⟨.unit, .update⟩]

def propertyManager : List PermissionKey :=
  [⟨.announcement, .broadcast⟩, ⟨.announcement, .create⟩, ⟨.announcement, .read⟩,
   ⟨.announcement, .update⟩, ⟨.audit_log, .read⟩, ⟨.company, .read⟩, ⟨.contract, .create⟩,
   ⟨.contract, .read⟩, ⟨.contract, .update⟩, ⟨.dashboard, .read⟩, ⟨.invoice, .approve⟩,
   ⟨.invoice, .create⟩, ⟨.invoice, .read⟩, ⟨.invoice, .update⟩, ⟨.maintenance_ticket, .approve⟩,
   ⟨.maintenance_ticket, .create⟩, ⟨.maintenance_ticket, .read⟩, ⟨.maintenance_ticket, .update⟩,
   ⟨.meter, .create⟩, ⟨.meter, .read⟩, ⟨.meter, .update⟩, ⟨.meter_reading, .create⟩,
   ⟨.meter_reading, .read⟩, ⟨.meter_reading, .update⟩, ⟨.payment, .approve⟩, ⟨.payment, .create⟩,
   ⟨.payment, .read⟩, ⟨.payment, .update⟩, ⟨.property, .create⟩, ⟨.property, .read⟩,
   ⟨.property, .update⟩, ⟨.slip, .approve⟩, ⟨.slip, .create⟩, ⟨.slip, .read⟩, ⟨.slip, .update⟩,
   ⟨.tenant_user, .create⟩, ⟨.tenant_user, .read⟩, ⟨.tenant_user, .update⟩, ⟨.unit, .create⟩,
   ⟨.unit, .read⟩, ⟨.unit, .update⟩]

def staff : List PermissionKey :=
  [⟨.announcement, .read⟩, ⟨.contract, .read⟩, ⟨.dashboard, .read⟩, ⟨.invoice, .read⟩,
   ⟨.maintenance_ticket, .create⟩, ⟨.maintenance_ticket, .read⟩, ⟨.maintenance_ticket, .update⟩,
   ⟨.meter, .read⟩, ⟨.meter_reading, .create⟩, ⟨.meter_reading, .read⟩, ⟨.meter_reading, .update⟩,
   ⟨.payment, .create⟩, ⟨.payment, .read⟩, ⟨.property, .read⟩, ⟨.slip, .create⟩, ⟨.slip, .read⟩,
   ⟨.tenant_user, .create⟩, ⟨.tenant_user, .read⟩, ⟨.tenant_user, .update⟩, ⟨.unit, .read⟩]

def tenant : List PermissionKey :=
  [⟨.announcement, .read⟩, ⟨.contract, .read⟩, ⟨.invoice, .read⟩, ⟨.maintenance_ticket, .create⟩,
   ⟨.maintenance_ticket, .read⟩, ⟨.payment, .read⟩, ⟨.slip, .create⟩, ⟨.slip, .read⟩,
   ⟨.unit, .read⟩]

def guardian : List PermissionKey :=
  [⟨.announcement, .read⟩, ⟨.contract, .read⟩, ⟨.invoice, .read⟩, ⟨.payment, .read⟩]

def matrix : Role → List PermissionKey
  | .company_owner => companyOwner
  | .property_manager => propertyManager
  | .staff => staff
  | .tenant => tenant
  | .guardian => guardian

def roles : List Role := [.company_owner, .property_manager, .staff, .tenant, .guardian]

/-- Whether any of the roles grants the action. -/
def can (roles : List Role) (action : Action) (resource : Resource) : Bool :=
  roles.any fun role => (matrix role).contains ⟨resource, action⟩

def permissionsFor (role : Role) : List PermissionKey :=
  (matrix role).mergeSort fun key key' => decide (key.toString ≤ key'.toString)

/-- The roles that `@Perm` writes into the metadata of a route. -/
def allowedRoles (action : Action) (resource : Resource) : List Role :=
  roles.filter fun role => (permissionsFor role).contains ⟨resource, action⟩

/-- `@Perm`, which refuses a permission that nobody has. -/
def Perm (action : Action) (resource : Resource) : Except String (List Role) :=
  let roles := allowedRoles action resource
  if roles.isEmpty then
    .error (s!"@Perm('{action.toString}', '{resource.toString}'): no role grants this " ++
      "permission in the matrix. Add a row in packages/shared/src/rbac/index.ts or pick a " ++
      "different (action, resource).")
  else .ok roles

/-- The roles in the metadata of a route with `@Perm`. -/
theorem Perm_getD (action : Action) (resource : Resource) :
    (Perm action resource).toOption.getD [] = allowedRoles action resource := by
  unfold Perm
  dsimp only
  split
  · rename_i nobody
    exact (List.isEmpty_iff.mp nobody).symm
  · rfl

theorem mem_roles (role : Role) : role ∈ roles := by cases role <;> decide

theorem mem_allowedRoles {role : Role} {action : Action} {resource : Resource} :
    role ∈ allowedRoles action resource ↔ ⟨resource, action⟩ ∈ matrix role := by
  rw [allowedRoles, List.mem_filter, List.contains_iff_mem, permissionsFor, List.mem_mergeSort]
  exact and_iff_right (mem_roles role)

/-- `@Perm` lets a permission through that somebody has. -/
theorem Perm_ok {role : Role} {action : Action} {resource : Resource}
    (granted : ⟨resource, action⟩ ∈ matrix role) :
    Perm action resource = .ok (allowedRoles action resource) := by
  have somebody : (allowedRoles action resource).isEmpty = false :=
    List.isEmpty_eq_false_iff.mpr (List.ne_nil_of_mem (mem_allowedRoles.mpr granted))
  rw [Perm, somebody]
  rfl

/-- What a route demands is what the matrix grants. -/
theorem can_iff {roles : List Role} {action : Action} {resource : Resource} :
    can roles action resource = true ↔ ∃ role ∈ roles, role ∈ allowedRoles action resource := by
  rw [can, List.any_eq_true]
  refine exists_congr fun role => and_congr_right fun _ => ?_
  rw [List.contains_iff_mem, mem_allowedRoles]

end Rbac

open Rbac

/-! ## The guards -/

/-- `req.user`: the claims of an admin or of a tenant's LIFF session. -/
inductive RequestUser where
  | admin (claims : AdminJwtClaims)
  | tenant (claims : Tenancy.TenantJwtClaims)
  deriving DecidableEq, Repr

namespace RequestUser

def companyId : RequestUser → Id
  | admin claims => claims.companyId
  | tenant claims => claims.companyId

def companySlug : RequestUser → String
  | admin claims => claims.companySlug
  | tenant claims => claims.companySlug

/-- A tenant's claims have no `roles`. -/
def roles? : RequestUser → Option (List Role)
  | admin claims => some claims.roles
  | tenant _ => none

end RequestUser

/-- What the token library and the schemas of the claims make of a token. -/
structure TokenVerifier where
  verifyAccessToken : String → Option AdminJwtClaims
  verifyTenantToken : String → Option Tenancy.TenantJwtClaims

/-- The metadata of a route, and whether its path begins with the company's slug. -/
structure Route where
  isPublic : Bool := false
  isTenantAuth : Bool := false
  perm : Option (Action × Resource) := none
  slugged : Bool := false
  deriving DecidableEq, Repr

/-- The roles that `@Perm` has left on the route. -/
def Route.allowedRoles (route : Route) : List Role :=
  match route.perm with
  | some (action, resource) => (Perm action resource).toOption.getD []
  | none => []

theorem Route.mem_allowedRoles {route : Route} {role : Role} {action : Action}
    {resource : Resource} (demands : route.perm = some (action, resource)) :
    role ∈ route.allowedRoles ↔ role ∈ Rbac.allowedRoles action resource := by
  simp only [Route.allowedRoles, demands, Perm_getD]

def forbidden (message : String) : ApiError := .http 403 "" message

/-- The token behind `Bearer `. -/
def bearerToken (header : String) : Option String :=
  if "Bearer ".toList.isPrefixOf header.toList then
    some (String.ofList (AuditLogInterceptor.trim (header.toList.drop "Bearer ".length)))
  else none

/-- The user that the guard attaches to the request. -/
def JwtGuard.canActivate (jwt : TokenVerifier) (route : Route) (authorization : Option String) :
    Except ApiError (Option RequestUser) :=
  if route.isPublic then .ok none
  else match authorization.bind bearerToken with
    | none => .error (unauthorized "Missing bearer token")
    | some token =>
      let claims :=
        if route.isTenantAuth then (jwt.verifyTenantToken token).map RequestUser.tenant
        else (jwt.verifyAccessToken token).map RequestUser.admin
      match claims with
      | some user => .ok (some user)
      | none => .error (unauthorized "Invalid or expired token")

def RbacGuard.canActivate (route : Route) (user : Option RequestUser) : Except ApiError Unit :=
  if route.allowedRoles.isEmpty then .ok ()
  else match user with
    | none => .error (forbidden "Authenticated user required")
    | some user =>
      match user.roles? with
      | none => .error (.http 500 "" "Cannot read properties of undefined (reading 'some')")
      | some roles =>
        if roles.any route.allowedRoles.contains then .ok ()
        else .error (forbidden ("Insufficient role. Required: " ++
          " | ".intercalate (route.allowedRoles.map Role.toString)))

def PathCompanyGuard.canActivate (paramSlug : Option String) (user : Option RequestUser) :
    Except ApiError Unit :=
  match paramSlug.filter (· ≠ ""), user with
  | some paramSlug, some user =>
    if paramSlug ≠ user.companySlug then
      .error (forbidden (s!"URL company '{paramSlug}' does not match authenticated tenancy " ++
        s!"'{user.companySlug}'"))
    else .ok ()
  | _, _ => .ok ()

/-- The guards in the order of their registration. -/
def guards (jwt : TokenVerifier) (route : Route) (authorization paramSlug : Option String) :
    Except ApiError (Option RequestUser) := do
  let user ← JwtGuard.canActivate jwt route authorization
  RbacGuard.canActivate route user
  PathCompanyGuard.canActivate (if route.slugged then paramSlug else none) user
  pure user

end Dormitory
