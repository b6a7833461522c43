import Dormitory.Bindings

/-!
# AuthService

`modules/auth/auth.service.ts`: sign-up, password login and refresh of the
admins, and the exchange of a LIFF id token. A token is the claims it carries;
`jwt.service.ts` signs them, so that no others are accepted.
-/

namespace Dormitory

inductive CompanyStatus where
  | active | suspended | churned
  deriving DecidableEq, Repr

inductive UserStatus where
  | active | disabled
  deriving DecidableEq, Repr

inductive Role where
  | company_owner | property_manager | staff | tenant | guardian
  deriving DecidableEq, Repr

/-- A `user` row with the columns of a login. -/
structure UserAccount extends User where
  email : String
  passwordHash : String
  status : UserStatus
  deriving DecidableEq, Repr

structure RoleAssignment where
  id : Id
  companyId : Id
  userId : Id
  role : Role
  deriving DecidableEq, Repr

/-! ## Passwords and slugs -/

/-- The argon2 package: a hash is not empty, and its password matches it. -/
structure Argon2 where
  hash (salt plain : String) : String
  /-- `none` is an exception. -/
  verify (storedHash plain : String) : Option Bool
  hash_ne (salt plain : String) : hash salt plain ≠ ""
  verify_hash (salt plain : String) : verify (hash salt plain) plain = some true

def Argon2.verifyPassword (argon2 : Argon2) (plain storedHash : String) : Bool :=
  if plain = "" ∨ storedHash = "" then false else (argon2.verify storedHash plain).getD false

/-- The hash of a password that `hashPassword` takes. -/
def Argon2.Hashed (argon2 : Argon2) (storedHash : String) : Prop :=
  ∃ salt plain, plain ≠ "" ∧ storedHash = argon2.hash salt plain

theorem Argon2.Hashed.verifies {argon2 : Argon2} {storedHash : String}
    (hashed : argon2.Hashed storedHash) :
    ∃ plain, argon2.verifyPassword plain storedHash = true := by
  obtain ⟨salt, plain, given, rfl⟩ := hashed
  exact ⟨plain, by simp [verifyPassword, given, argon2.hash_ne, argon2.verify_hash]⟩

inductive SlugValidationError where
  | too_short | too_long | invalid_chars | reserved
  deriving DecidableEq, Repr

def reservedSlugs : List String :=
  ["admin", "api", "app", "assets", "auth", "billing", "c", "console", "dashboard", "docs",
    "health", "help", "home", "internal", "liff", "login", "logout", "me", "onboarding", "public",
    "register", "root", "settings", "signin", "signout", "signup", "static", "status", "support",
    "system", "webhook", "webhooks", "www"]

def slugAlnum (c : Char) : Bool := ('a' ≤ c ∧ c ≤ 'z') ∨ ('0' ≤ c ∧ c ≤ '9')

/-- `SLUG_REGEX`: the characters, the first and the last of them, the length. -/
def slugRegex (slug : String) : Bool :=
  slug.toList.all (fun c => slugAlnum c ∨ c = '-') ∧ slug.length ≤ 64 ∧
    slug.toList.head?.any slugAlnum ∧ slug.toList.getLast?.any slugAlnum

/-- `length`, in UTF-16 code units. -/
def utf16Length (s : String) : Nat :=
  (s.toList.map fun c => if c.toNat < 0x10000 then 1 else 2).sum

theorem length_le_utf16Length (s : String) : s.length ≤ utf16Length s := by
  rw [← String.length_toList, utf16Length]
  induction s.toList with
  | nil => simp
  | cons c cs ih =>
    simp only [List.length_cons, List.map_cons, List.sum_cons]
    split <;> omega

def validateSlug (slug : String) : Except SlugValidationError String :=
  if utf16Length slug < 2 then .error .too_short
  else if 64 < utf16Length slug then .error .too_long
  else if ¬ slugRegex slug then .error .invalid_chars
  else if slug ∈ reservedSlugs then .error .reserved
  else .ok slug

/-! ## Tokens -/

structure AdminJwtClaims where
  sub : Id
  companyId : Id
  companySlug : String
  email : String
  roles : List Role
  deriving DecidableEq, Repr

inductive TokenType where
  | access | refresh
  deriving DecidableEq, Repr

/-- A signed token of the admins; `exp` is in seconds. -/
structure AdminToken where
  claims : AdminJwtClaims
  typ : TokenType
  exp : Int
  deriving DecidableEq, Repr

structure AuthTokens where
  accessToken : AdminToken
  refreshToken : AdminToken
  deriving DecidableEq, Repr

def unauthorized (message : String) : ApiError := .http 401 "" message

/-- The lifetimes of the environment, and `adminJwtClaimsSchema`. -/
structure JwtService where
  accessTtl : Int
  refreshTtl : Int
  claimsSchema : AdminJwtClaims → Bool

namespace JwtService
variable (jwt : JwtService) (now : Int)

def signAccessToken (claims : AdminJwtClaims) : AdminToken := ⟨claims, .access, now + jwt.accessTtl⟩

def signRefreshToken (claims : AdminJwtClaims) : AdminToken :=
  ⟨claims, .refresh, now + jwt.refreshTtl⟩

def verifyAdmin (token : AdminToken) (expectedTyp : TokenType) :
    Except ApiError AdminJwtClaims :=
  if token.exp ≤ now then .error (unauthorized "Invalid or expired token")
  else if ¬ jwt.claimsSchema token.claims then .error (unauthorized "Invalid token claims")
  else if token.typ ≠ expectedTyp then .error (unauthorized "Wrong token type")
  else .ok token.claims

def verifyRefreshToken (token : AdminToken) : Except ApiError AdminJwtClaims :=
  jwt.verifyAdmin now token .refresh

theorem verifyRefreshToken_claims {jwt : JwtService} {now : Int} {token : AdminToken}
    {claims : AdminJwtClaims} (h : jwt.verifyRefreshToken now token = .ok claims) :
    claims = token.claims := by
  unfold verifyRefreshToken verifyAdmin at h
  split at h
  · cases h
  · split at h
    · cases h
    · split at h
      · cases h
      · cases h
        rfl

end JwtService

namespace Tenancy

/-- The unique index on the LINE account within a company. -/
def OwnAccounts (db : Db) : Prop :=
  ∀ t ∈ db.tenants.rows, ∀ t' ∈ db.tenants.rows, t.companyId = t'.companyId →
    ∀ {l}, t.lineUserId = some l → t'.lineUserId = some l → t = t'

end Tenancy

namespace Auth

instance : Keyed UserAccount Id := ⟨fun u => u.id⟩
instance : Keyed RoleAssignment Id := ⟨RoleAssignment.id⟩

@[simp] theorem key_user (u : UserAccount) : key u = u.id := rfl

/-- The database: what the tenants' services see of it, and the columns that
only `AuthService` reads. -/
structure Site where
  tenancy : Tenancy.Db := {}
  /-- `company.status`. -/
  companyStatus : Id → CompanyStatus := fun _ => .active
  users : Table UserAccount := default
  roleAssignments : Table RoleAssignment := default

structure CompanyInfo where
  id : Id
  slug : String
  status : CompanyStatus
  deriving DecidableEq, Repr

namespace Site
variable (site : Site)

/-- Under `app.bypass_rls`. -/
def lookupCompanyBySlug (slug : String) : Option CompanyInfo :=
  (site.tenancy.companies.rows.find? fun c => c.slug = slug).map fun c =>
    ⟨c.id, c.slug, site.companyStatus c.id⟩

/-- `user.findUnique` in the scope of a company. -/
def user? (companyId id : Id) : Option UserAccount :=
  (site.users.find? id).filter fun u => u.companyId = companyId

def userByEmail? (companyId : Id) (email : String) : Option UserAccount :=
  site.users.rows.find? fun u => u.companyId = companyId ∧ u.email = email

/-- The roles that a query for the user selects with it. -/
def rolesOf (companyId userId : Id) : List Role :=
  (site.roleAssignments.rows.filter fun r => r.companyId = companyId ∧ r.userId = userId).map
    RoleAssignment.role

def tenantByLine? (companyId : Id) (lineUserId : String) : Option TenantProfile :=
  site.tenancy.tenants.rows.find? fun t => t.companyId = companyId ∧ t.lineUserId = some lineUserId

end Site

/-! ## The service -/

/-- `loginAdminInputSchema`. -/
structure LoginAdminInput where
  companySlug : String
  email : String
  password : String
  deriving DecidableEq, Repr

/-- `signupInputSchema`, with the bounds that the service relies on. -/
structure SignupInput where
  companyName : String
  slug : String
  ownerEmail : String
  ownerPassword : String
  ownerDisplayName : String
  long : 8 ≤ utf16Length ownerPassword
  short : utf16Length companyName ≤ 128 ∧ utf16Length ownerEmail ≤ 254 ∧
    utf16Length ownerDisplayName ≤ 128
  deriving DecidableEq

inductive SlugUnavailableReason where
  | shape (error : SlugValidationError)
  | taken
  deriving DecidableEq, Repr

inductive CheckSlugResponse where
  | available
  | unavailable (reason : SlugUnavailableReason)
  deriving DecidableEq, Repr

structure LoginLiffInput where
  companySlug : String
  idToken : String
  deriving DecidableEq, Repr

structure LoginLiffResponse where
  tenantId : Id
  companyId : Id
  companySlug : String
  token : Tenancy.TenantJwtClaims
  deriving DecidableEq, Repr

/-- The keys and the salt that a sign-up draws. -/
structure SignupDraws where
  companyId : Id
  userId : Id
  roleId : Id
  auditId : Id
  salt : String
  deriving DecidableEq, Repr

namespace AuthService

def timingSafeDummyHash : String :=
  "$argon2id$v=19$m=19456,t=2,p=1$YW5vbnltb3VzLXNhbHQtZHVtbXk" ++
    "$RDWpHRjL42/yi/uRIk+DuIBnaHvK4G6SGEPo8sD5Ke0"

def invalidCredentials : ApiError := unauthorized "Invalid credentials"

def noRoles : ApiError := unauthorized "No roles assigned"

def slugTaken (slug : String) : ApiError :=
  .http 409 "SlugTaken" ("Slug \"" ++ slug ++ "\" is taken")

section calls
variable (argon2 : Argon2) (jwt : JwtService) (now : Int)

def issueTokens (claims : AdminJwtClaims) : AuthTokens :=
  ⟨jwt.signAccessToken now claims, jwt.signRefreshToken now claims⟩

/-- The stamp of `lastLoginAt` at the end changes none of the columns here. -/
def loginAdmin (site : Site) (input : LoginAdminInput) : Except ApiError AuthTokens :=
  match (site.lookupCompanyBySlug input.companySlug).filter fun c => c.status = .active with
  | none => .error invalidCredentials
  | some company =>
    let found := site.userByEmail? company.id input.email
    let hash := (found.map UserAccount.passwordHash).getD timingSafeDummyHash
    let ok := argon2.verifyPassword input.password hash
    match found.filter fun u => ok ∧ u.status = .active with
    | none => .error invalidCredentials
    | some user =>
      let roles := site.rolesOf company.id user.id
      if roles = [] then .error noRoles
      else .ok (issueTokens jwt now {
        sub := user.id
        companyId := company.id
        companySlug := company.slug
        email := user.email
        roles := roles })

/-- What `refresh` does with the claims of a token that verifies. -/
def refreshClaims (site : Site) (claims : AdminJwtClaims) : Except ApiError AuthTokens :=
  match (site.user? claims.companyId claims.sub).filter fun u => u.status = .active with
  | none => .error (unauthorized "User is no longer active")
  | some user =>
    let roles := site.rolesOf claims.companyId user.id
    if roles = [] then .error noRoles
    else .ok (issueTokens jwt now {
      sub := user.id
      companyId := claims.companyId
      companySlug := claims.companySlug
      email := user.email
      roles := roles })

def refresh (site : Site) (refreshToken : AdminToken) : Except ApiError AuthTokens :=
  match jwt.verifyRefreshToken now refreshToken with
  | .error e => .error e
  | .ok claims => refreshClaims jwt now site claims

def slugReasonToMessage : SlugValidationError → String
  | .too_short => "Slug ต้องยาวอย่างน้อย 2 ตัวอักษร"
  | .too_long => "Slug ยาวเกิน 64 ตัวอักษร"
  | .invalid_chars =>
    "Slug ใช้ได้เฉพาะตัวพิมพ์เล็ก / ตัวเลข / ขีดกลาง — ห้ามขึ้นต้นหรือลงท้ายด้วยขีดกลาง"
  | .reserved => "Slug นี้สงวนไว้สำหรับระบบ — กรุณาเลือกชื่ออื่น"

def checkSlugAvailability (site : Site) (slug : String) : CheckSlugResponse :=
  match validateSlug slug with
  | .error reason => .unavailable (.shape reason)
  | .ok slug =>
    if (site.lookupCompanyBySlug slug).isSome then .unavailable .taken else .available

/-- The rows of a sign-up, written in one transaction. -/
def signupRows (site : Site) (draws : SignupDraws) (slug email passwordHash : String) : Site where
  tenancy := { site.tenancy with
    companies := site.tenancy.companies.put ⟨draws.companyId, slug, none⟩
    users := site.tenancy.users.put ⟨draws.userId, draws.companyId⟩
    auditLogs := site.tenancy.auditLogs.put {
      id := draws.auditId
      companyId := draws.companyId
      actorUserId := none
      action := "signup.success"
      resource := "company"
      resourceId := some (toString draws.companyId)
      metadata := [("slug", slug), ("plan", "free"), ("trialDays", "14"),
        ("userId", toString draws.userId), ("ownerEmail", email)]
      ipAddress := none
      userAgent := none } }
  companyStatus := Function.update site.companyStatus draws.companyId .active
  users := site.users.put ⟨⟨draws.userId, draws.companyId⟩, email, passwordHash, .active⟩
  roleAssignments := site.roleAssignments.put
    ⟨draws.roleId, draws.companyId, draws.userId, .company_owner⟩

/-- The column of the slug is shorter than `SLUG_MAX_LEN`. -/
def signup (draws : SignupDraws) (site : Site) (input : SignupInput) :
    Except ApiError AuthTokens × Site :=
  match validateSlug input.slug with
  | .error reason => (.error (.http 400 "InvalidSlug" (slugReasonToMessage reason)), site)
  | .ok slug =>
    let email := input.ownerEmail.toLower
    if (site.lookupCompanyBySlug slug).isSome then (.error (slugTaken slug), site)
    else
      let passwordHash := argon2.hash draws.salt input.ownerPassword
      let name := AuditLogInterceptor.trim input.companyName.toList
      let displayName := AuditLogInterceptor.trim input.ownerDisplayName.toList
      if 32 < slug.length ∨ 128 < name.length ∨ 255 < email.length ∨ 128 < displayName.length then
        (.error Tenancy.tooLong, site)
      else
        (.ok (issueTokens jwt now {
          sub := draws.userId
          companyId := draws.companyId
          companySlug := slug
          email := email
          roles := [.company_owner] }),
        signupRows site draws slug email passwordHash)

end calls

/-- `verify` is LINE's check of an id token, with the LINE user it is for. -/
def exchangeLiffIdToken (verify : String → Except ApiError String) (site : Site)
    (input : LoginLiffInput) : Except ApiError LoginLiffResponse :=
  match (site.lookupCompanyBySlug input.companySlug).filter fun c => c.status = .active with
  | none => .error invalidCredentials
  | some company =>
    match verify input.idToken with
    | .error e => .error e
    | .ok lineUserId =>
      match (site.tenantByLine? company.id lineUserId).filter fun t => t.status = .active with
      | none => .error invalidCredentials
      | some tenant => .ok {
          tenantId := tenant.id
          companyId := company.id
          companySlug := company.slug
          token := ⟨tenant.id, company.id, company.slug, lineUserId⟩ }

end AuthService

/-! ## What the schema keeps -/

/-- The unique indexes on `company.slug`, on `user.email` and on
`tenant.lineUserId`, the latter two within a company. -/
structure Site.Indexed (site : Site) : Prop where
  slugs : ∀ c ∈ site.tenancy.companies.rows, ∀ c' ∈ site.tenancy.companies.rows,
    c.slug = c'.slug → c = c'
  emails : ∀ u ∈ site.users.rows, ∀ u' ∈ site.users.rows,
    u.companyId = u'.companyId → u.email = u'.email → u = u'
  accounts : Tenancy.OwnAccounts site.tenancy

theorem find?_only {α : Type} {rows : List α} {p : α → Prop} [DecidablePred p] {x : α}
    (mem : x ∈ rows) (holds : p x) (only : ∀ y ∈ rows, p y → y = x) :
    rows.find? (fun y => p y) = some x := by
  cases found : rows.find? fun y => p y with
  | none => exact absurd holds (by simpa using List.find?_eq_none.1 found x mem)
  | some y =>
    rw [only y (List.mem_of_find?_eq_some found) (by simpa using List.find?_some found)]

section lookups
variable {site : Site} (indexed : site.Indexed)
include indexed

theorem lookup_company {c : Company} (stored : site.tenancy.companies.find? c.id = some c) :
    site.lookupCompanyBySlug c.slug = some ⟨c.id, c.slug, site.companyStatus c.id⟩ := by
  have found := find?_only (p := fun c' : Company => c'.slug = c.slug) (Table.find?_mem stored) rfl
    fun c' mem same => indexed.slugs c' mem c (Table.find?_mem stored) same
  rw [Site.lookupCompanyBySlug, found]
  rfl

theorem lookup_user {u : UserAccount} (stored : site.users.find? u.id = some u) :
    site.userByEmail? u.companyId u.email = some u :=
  find?_only (p := fun u' : UserAccount => u'.companyId = u.companyId ∧ u'.email = u.email)
    (Table.find?_mem stored) ⟨rfl, rfl⟩
    fun u' mem same => indexed.emails u' mem u (Table.find?_mem stored) same.1 same.2

theorem lookup_tenant {t : TenantProfile} {lineUserId : String}
    (mem : t ∈ site.tenancy.tenants.rows) (bound : t.lineUserId = some lineUserId) :
    site.tenantByLine? t.companyId lineUserId = some t :=
  find?_only
    (p := fun t' : TenantProfile => t'.companyId = t.companyId ∧ t'.lineUserId = some lineUserId)
    mem ⟨rfl, bound⟩
    fun t' mem' same => indexed.accounts t' mem' t mem same.1 same.2 bound

end lookups

end Auth
end Dormitory
