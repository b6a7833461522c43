import Dormitory.Prisma

/-!
# The request pipeline

`TenantContextInterceptor` opens one transaction for the request, with the
company of its user, and `AuditLogInterceptor` runs inside it: it awaits the
handler, inserts an audit row with the same transaction, swallows whatever that
insert throws, and passes the handler's value on. Committing, or rolling back,
is what `withTenant` does with the whole of it.
-/

namespace Dormitory
open Txn

/-- The claims of `req.user`. -/
inductive Claims where
  | admin (sub companyId : Id)
  | liff (sub companyId : Id) (lineUserId : String)
  deriving DecidableEq, Repr

def Claims.companyId : Claims → Id
  | admin _ c => c
  | liff _ c _ => c

/-- The parts of a request that the interceptors read. -/
structure HttpRequest where
  method : String
  url : String
  routeUrl : Option String
  xForwardedFor : Option String
  userAgent : Option String
  ip : Option String
  user : Option Claims
  deriving DecidableEq, Repr

def mutatingMethods : List String := ["POST", "PUT", "PATCH", "DELETE"]

namespace AuditLogInterceptor

/-- White space and line ends, as `String.prototype.trim` knows them. -/
def isSpace (c : Char) : Bool :=
  c.toNat ∈ [9, 10, 11, 12, 13, 32, 160, 0x1680, 0x2028, 0x2029, 0x202f, 0x205f, 0x3000, 0xfeff] ∨
    (0x2000 ≤ c.toNat ∧ c.toNat ≤ 0x200a)

def trim (cs : List Char) : List Char :=
  ((cs.dropWhile isSpace).reverse.dropWhile isSpace).reverse

/-- The first address of `x-forwarded-for`, else the socket's. -/
def clientIp (req : HttpRequest) : Option String :=
  match req.xForwardedFor with
  | some header => some (String.ofList (trim (header.toList.takeWhile (· ≠ ','))))
  | none => req.ip

/-- `path.split('/').filter(Boolean)`. -/
def segments (path : List Char) : List (List Char) :=
  (path.splitOn '/').filter fun s => !s.isEmpty

def deriveResource (url : String) : String :=
  let parts := segments (url.toList.takeWhile (· ≠ '?'))
  let start := if parts.head? = some ['c'] then 2 else 0
  let resource := (parts[start]?).getD "unknown".toList
  String.ofList (if resource.getLast? = some 's' then resource.dropLast else resource)

/-- The row written for a request of `user`. -/
def auditRow (req : HttpRequest) (user : Claims) (newId : Id) : AuditLog where
  id := newId
  companyId := user.companyId
  actorUserId := match user with
    | .admin sub _ => some sub
    | .liff .. => none
  action := req.method ++ " " ++ req.routeUrl.getD req.url
  resource := deriveResource req.url
  resourceId := none
  metadata := match user with
    | .admin .. => []
    | .liff sub _ lineUserId => [("actorTenantId", toString sub), ("actorLineUserId", lineUserId)]
  ipAddress := clientIp req
  userAgent := req.userAgent

/-- The audit insert; its error is logged and dropped. -/
def record {α : Type} (row : AuditLog) (value : α) : Call α :=
  Prog.attempt
    (do
      let _ ← prisma ⟨row.companyId⟩ (.auditLogCreate row)
      pure value)
    fun _ => pure value

def intercept {α : Type} (req : HttpRequest) (newId : Id) (handle : Call α) : Call α :=
  if req.method ∉ mutatingMethods then handle
  else match req.user with
    | none => handle
    | some user => handle >>= record (auditRow req user newId)

end AuditLogInterceptor
end Dormitory
