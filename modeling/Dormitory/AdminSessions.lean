import Dormitory.AuthService
import Dormitory.Txn.Serial

/-!
# Sessions of admins

An admin logs in with a password and renews the session with a refresh token.
Both look at the user and its roles; only the login looks at the company, which
may have been suspended since the token was issued.
-/

namespace Dormitory.Auth
open Txn AuthService

/-! ## Histories -/

/-- The database, and the tokens that have been issued. -/
structure Desk where
  site : Site
  issued : List AdminToken := []

inductive AdminEvent where
  | login (now : Int) (input : LoginAdminInput)
  | refresh (now : Int) (refreshToken : AdminToken)
  | signup (now : Int) (draws : SignupDraws) (input : SignupInput)
  /-- The writes of anybody else: users, roles and the status of a company change. -/
  | others (site : Site)

def issuedBy : Except ApiError AuthTokens → List AdminToken
  | .ok tokens => [tokens.accessToken, tokens.refreshToken]
  | .error _ => []

/-- What the indexes and foreign keys keep, and where password hashes come from. -/
structure Site.Sound (argon2 : Argon2) (site : Site) : Prop where
  indexed : site.Indexed
  members : ∀ u ∈ site.users.rows, (site.tenancy.companies.find? u.companyId).isSome
  hashed : ∀ u ∈ site.users.rows, argon2.Hashed u.passwordHash

section histories
variable (argon2 : Argon2) (jwt : JwtService)

def AdminEvent.next (desk : Desk) : AdminEvent → Desk
  | login now input =>
    { desk with issued := desk.issued ++ issuedBy (loginAdmin argon2 jwt now desk.site input) }
  | refresh now refreshToken =>
    { desk with
      issued := desk.issued ++ issuedBy (AuthService.refresh jwt now desk.site refreshToken) }
  | signup now draws input =>
    let (answer, site) := AuthService.signup argon2 jwt now draws desk.site input
    ⟨site, desk.issued ++ issuedBy answer⟩
  | others site => { desk with site := site }

/-- No token is forged, keys are drawn fresh, and a company keeps its slug. -/
def AdminEvent.Allowed (desk : Desk) : AdminEvent → Prop
  | login _ _ => True
  | refresh _ refreshToken => refreshToken ∈ desk.issued
  | signup _ draws _ => desk.site.tenancy.companies.find? draws.companyId = none ∧
      desk.site.users.find? draws.userId = none
  | others site => site.Sound argon2 ∧ ∀ c ∈ desk.site.tenancy.companies.rows,
      ∃ c' ∈ site.tenancy.companies.rows, c'.id = c.id ∧ c'.slug = c.slug

/-! ## What every token says -/

/-- The token is for a stored company, under its slug. -/
def Site.Issues (site : Site) (token : AdminToken) : Prop :=
  ∃ c, site.tenancy.companies.find? token.claims.companyId = some c ∧
    c.slug = token.claims.companySlug

structure Desk.Sound (desk : Desk) : Prop where
  site : desk.site.Sound argon2
  issued : ∀ token ∈ desk.issued, desk.site.Issues token

end histories

section answers
variable {argon2 : Argon2} {jwt : JwtService} {now : Int} {site : Site} {tokens : AuthTokens}

/-- What `refresh` answers. -/
theorem refresh_ok {refreshToken : AdminToken} :
    AuthService.refresh jwt now site refreshToken = .ok tokens ↔
      (jwt.verifyRefreshToken now refreshToken).isOk ∧
      ∃ u ∈ site.user? refreshToken.claims.companyId refreshToken.claims.sub,
        u.status = .active ∧ site.rolesOf refreshToken.claims.companyId u.id ≠ [] ∧
        tokens = issueTokens jwt now ⟨u.id, refreshToken.claims.companyId,
          refreshToken.claims.companySlug, u.email,
          site.rolesOf refreshToken.claims.companyId u.id⟩ := by
  unfold AuthService.refresh
  cases verified : jwt.verifyRefreshToken now refreshToken with
  | error e => simp [Except.isOk, Except.toBool]
  | ok claims =>
    obtain rfl := JwtService.verifyRefreshToken_claims verified
    unfold refreshClaims
    cases found : site.user? refreshToken.claims.companyId refreshToken.claims.sub with
    | none => simp [found]
    | some u =>
      by_cases active : u.status = .active
      · by_cases roles : site.rolesOf refreshToken.claims.companyId u.id = []
        · simp [found, Option.filter, active, roles]
        · simp [found, Option.filter, active, roles, Except.isOk, Except.toBool,
            @eq_comm _ tokens]
      · simp [found, Option.filter, active]

/-- A login with the right password is answered the same way, if the company is
active. -/
theorem login_ok (jwt : JwtService) (now : Int) (indexed : site.Indexed) {c : Company}
    {u : UserAccount} {password : String}
    (company : site.tenancy.companies.find? c.id = some c) (user : site.users.find? u.id = some u)
    (member : u.companyId = c.id) (right : argon2.verifyPassword password u.passwordHash = true)
    (active : u.status = .active) (roles : site.rolesOf c.id u.id ≠ []) :
    loginAdmin argon2 jwt now site ⟨c.slug, u.email, password⟩ =
      if site.companyStatus c.id = .active then
        .ok (issueTokens jwt now ⟨u.id, c.id, c.slug, u.email, site.rolesOf c.id u.id⟩)
      else .error invalidCredentials := by
  have known := lookup_user indexed user
  rw [member] at known
  unfold loginAdmin
  by_cases open' : site.companyStatus c.id = .active
  · simp [lookup_company indexed company, Option.filter, open', known, right, active, roles]
  · simp [lookup_company indexed company, Option.filter, open']

end answers

/-! ## Each event -/

section events
variable {argon2 : Argon2} {jwt : JwtService} {now : Int} {site site' : Site}

/-- Tokens stay sound while companies keep their slugs. -/
theorem Site.Issues.later {token : AdminToken} (issues : site.Issues token)
    (kept : ∀ c ∈ site.tenancy.companies.rows,
      ∃ c' ∈ site'.tenancy.companies.rows, c'.id = c.id ∧ c'.slug = c.slug) :
    site'.Issues token := by
  obtain ⟨c, stored, slug⟩ := issues
  obtain ⟨c', stored', id, same⟩ := kept c (Table.find?_mem stored)
  have key : c.id = token.claims.companyId := Table.find?_key stored
  refine ⟨c', ?_, same.trans slug⟩
  rw [← key, ← id]
  exact Table.find?_of_mem stored'

theorem login_issues (input : LoginAdminInput) :
    ∀ token ∈ issuedBy (loginAdmin argon2 jwt now site input), site.Issues token := by
  cases answer : loginAdmin argon2 jwt now site input with
  | error e => intro token mem; cases mem
  | ok tokens =>
    unfold loginAdmin at answer
    split at answer
    · cases answer
    · rename_i company known
      obtain ⟨known, -⟩ := Option.filter_eq_some_iff.1 known
      obtain ⟨c, found, rfl⟩ := Option.map_eq_some_iff.1 known
      have stored := Table.find?_of_mem (List.mem_of_find?_eq_some found)
      simp only at answer
      split at answer
      · cases answer
      · split at answer
        · cases answer
        · cases answer
          intro token mem
          rcases List.mem_pair.1 mem with rfl | rfl
          · exact ⟨c, stored, rfl⟩
          · exact ⟨c, stored, rfl⟩

theorem refresh_issues {refreshToken : AdminToken} (issues : site.Issues refreshToken) :
    ∀ token ∈ issuedBy (AuthService.refresh jwt now site refreshToken), site.Issues token := by
  cases answer : AuthService.refresh jwt now site refreshToken with
  | error e => intro token mem; cases mem
  | ok tokens =>
    obtain ⟨-, u, -, -, -, rfl⟩ := refresh_ok.1 answer
    intro token mem
    rcases List.mem_pair.1 mem with rfl | rfl
    · exact issues
    · exact issues

section signup
variable {draws : SignupDraws} {slug email passwordHash : String}
  (freshCompany : site.tenancy.companies.find? draws.companyId = none)
include freshCompany

theorem signupRows_keeps : ∀ c ∈ site.tenancy.companies.rows,
    ∃ c' ∈ (signupRows site draws slug email passwordHash).tenancy.companies.rows,
      c'.id = c.id ∧ c'.slug = c.slug := by
  intro c mem
  have other : c.id ≠ draws.companyId := by
    intro same
    have stored := Table.find?_of_mem mem
    rw [show key c = draws.companyId from same, freshCompany] at stored
    cases stored
  exact ⟨c, Table.mem_put.2 (.inr ⟨mem, other⟩), rfl, rfl⟩

theorem signupRows_sound (sound : site.Sound argon2) (hashed : argon2.Hashed passwordHash)
    (free : site.lookupCompanyBySlug slug = none) :
    (signupRows site draws slug email passwordHash).Sound argon2 := by
  have unused : ∀ c ∈ site.tenancy.companies.rows, c.slug ≠ slug := by
    simpa [Site.lookupCompanyBySlug] using free
  -- No user belongs to the company yet.
  have empty : ∀ u ∈ site.users.rows, u.companyId ≠ draws.companyId := by
    intro u mem same
    have member := sound.members u mem
    rw [same, freshCompany] at member
    cases member
  refine ⟨⟨?_, ?_, sound.indexed.accounts⟩, ?_, ?_⟩
  · intro c hc c' hc' same
    rcases Table.mem_put.1 hc with rfl | ⟨hc, -⟩ <;>
      rcases Table.mem_put.1 hc' with rfl | ⟨hc', -⟩
    · rfl
    · exact absurd same.symm (unused c' hc')
    · exact absurd same (unused c hc)
    · exact sound.indexed.slugs c hc c' hc' same
  · intro u hu u' hu' company same
    rcases Table.mem_put.1 hu with rfl | ⟨hu, -⟩ <;>
      rcases Table.mem_put.1 hu' with rfl | ⟨hu', -⟩
    · rfl
    · exact absurd company.symm (empty u' hu')
    · exact absurd company (empty u hu)
    · exact sound.indexed.emails u hu u' hu' company same
  · intro u hu
    change ((site.tenancy.companies.put _).find? u.companyId).isSome
    rw [Table.find?_put]
    split
    · rfl
    · rename_i other
      rcases Table.mem_put.1 hu with rfl | ⟨hu, -⟩
      · exact absurd rfl other
      · exact sound.members u hu
  · intro u hu
    rcases Table.mem_put.1 hu with rfl | ⟨hu, -⟩
    · exact hashed
    · exact sound.hashed u hu

end signup

/-- What a sign-up leaves, and the tokens it answers with. -/
theorem signup_sound (jwt : JwtService) (now : Int) {draws : SignupDraws} (input : SignupInput)
    (sound : site.Sound argon2)
    (freshCompany : site.tenancy.companies.find? draws.companyId = none) :
    (AuthService.signup argon2 jwt now draws site input).2.Sound argon2 ∧
    (∀ c ∈ site.tenancy.companies.rows,
      ∃ c' ∈ (AuthService.signup argon2 jwt now draws site input).2.tenancy.companies.rows,
        c'.id = c.id ∧ c'.slug = c.slug) ∧
    ∀ token ∈ issuedBy (AuthService.signup argon2 jwt now draws site input).1,
      (AuthService.signup argon2 jwt now draws site input).2.Issues token := by
  have refused : site.Sound argon2 ∧ (∀ c ∈ site.tenancy.companies.rows,
      ∃ c' ∈ site.tenancy.companies.rows, c'.id = c.id ∧ c'.slug = c.slug) ∧
      ∀ e, ∀ token ∈ issuedBy (.error e), site.Issues token :=
    ⟨sound, fun c mem => ⟨c, mem, rfl, rfl⟩, fun e token mem => by cases mem⟩
  unfold AuthService.signup
  split
  · exact ⟨refused.1, refused.2.1, refused.2.2 _⟩
  · rename_i slug valid
    simp only
    split
    · exact ⟨refused.1, refused.2.1, refused.2.2 _⟩
    · rename_i free
      split
      · exact ⟨refused.1, refused.2.1, refused.2.2 _⟩
      · have given : input.ownerPassword ≠ "" := by
          intro empty
          have long := input.long
          rw [empty] at long
          exact absurd long (by decide)
        have hashed : argon2.Hashed (argon2.hash draws.salt input.ownerPassword) :=
          ⟨_, _, given, rfl⟩
        refine ⟨signupRows_sound freshCompany sound hashed (by simpa using free),
          signupRows_keeps freshCompany, fun token mem => ?_⟩
        have stored : (signupRows site draws slug input.ownerEmail.toLower
            (argon2.hash draws.salt input.ownerPassword)).tenancy.companies.find? draws.companyId =
            some ⟨draws.companyId, slug, none⟩ := Table.find?_put_self _ _
        rcases List.mem_pair.1 mem with rfl | rfl
        · exact ⟨_, stored, rfl⟩
        · exact ⟨_, stored, rfl⟩

/-- An event keeps the tables sound, and every token. -/
theorem AdminEvent.Allowed.keeps {desk : Desk} {e : AdminEvent} (allowed : e.Allowed argon2 desk)
    (sound : desk.Sound argon2) : (e.next argon2 jwt desk).Sound argon2 := by
  have more : ∀ {tokens : List AdminToken} {site' : Site},
      (∀ token ∈ desk.issued, site'.Issues token) → (∀ token ∈ tokens, site'.Issues token) →
      ∀ token ∈ desk.issued ++ tokens, site'.Issues token := by
    intro tokens site' old new token mem
    rcases List.mem_append.1 mem with mem | mem
    · exact old token mem
    · exact new token mem
  cases e with
  | login now input => exact ⟨sound.site, more sound.issued (login_issues input)⟩
  | refresh now refreshToken =>
    exact ⟨sound.site, more sound.issued (refresh_issues (sound.issued _ allowed))⟩
  | signup now draws input =>
    obtain ⟨later, kept, new⟩ := signup_sound jwt now input sound.site allowed.1
    exact ⟨later, more (fun token mem => (sound.issued token mem).later kept) new⟩
  | others site =>
    exact ⟨allowed.1, fun token mem => (sound.issued token mem).later allowed.2⟩

end events

/-! ## Agreement -/

section agreement
variable (argon2 : Argon2) (jwt : JwtService)

/-- Whoever gets tokens for a token gets the same ones for a password. -/
def AdminEvent.Agrees (desk : Desk) : AdminEvent → Prop
  | refresh now refreshToken => ∀ tokens,
      AuthService.refresh jwt now desk.site refreshToken = .ok tokens →
      ∃ c u, desk.site.tenancy.companies.find? refreshToken.claims.companyId = some c ∧
        desk.site.users.find? refreshToken.claims.sub = some u ∧
        ∀ password, argon2.verifyPassword password u.passwordHash = true →
          loginAdmin argon2 jwt now desk.site ⟨c.slug, u.email, password⟩ = .ok tokens
  | _ => True

/-- The token is refreshed for a user who is admitted, in a company that is not. -/
def AdminEvent.Suspended (desk : Desk) : AdminEvent → Prop
  | refresh now refreshToken =>
    (jwt.verifyRefreshToken now refreshToken).isOk ∧
    (∃ u ∈ desk.site.user? refreshToken.claims.companyId refreshToken.claims.sub,
      u.status = .active ∧ desk.site.rolesOf refreshToken.claims.companyId u.id ≠ []) ∧
    desk.site.companyStatus refreshToken.claims.companyId ≠ .active
  | _ => False

variable {argon2 jwt}

theorem AdminEvent.Allowed.agrees_iff {desk : Desk} {e : AdminEvent}
    (allowed : e.Allowed argon2 desk) (sound : desk.Sound argon2) :
    e.Agrees argon2 jwt desk ↔ ¬ e.Suspended jwt desk := by
  cases e with
  | login | signup | others => exact iff_of_true trivial fun suspended => suspended
  | refresh now refreshToken =>
    obtain ⟨c, company, slug⟩ := sound.issued refreshToken allowed
    have own : c.id = refreshToken.claims.companyId := Table.find?_key company
    constructor
    · rintro agrees ⟨verified, ⟨u, user, active, roles⟩, closed⟩
      obtain ⟨stored, member⟩ := Option.filter_eq_some_iff.1 user
      obtain ⟨password, right⟩ := (sound.site.hashed u (Table.find?_mem stored)).verifies
      obtain ⟨c', u', company', user', same⟩ := agrees _
        (refresh_ok.2 ⟨verified, u, user, active, roles, rfl⟩)
      obtain rfl := Option.some.inj (company.symm.trans company')
      obtain rfl := Option.some.inj (stored.symm.trans user')
      have id : u.id = refreshToken.claims.sub := Table.find?_key stored
      rw [← own] at company roles member closed
      rw [← id] at stored
      have answered := login_ok jwt now sound.site.indexed company stored
        (by simpa using member) right active roles
      rw [if_neg closed] at answered
      cases answered.symm.trans (same password right)
    · intro open' tokens answer
      obtain ⟨verified, u, user, active, roles, rfl⟩ := refresh_ok.1 answer
      obtain ⟨stored, member⟩ := Option.filter_eq_some_iff.1 user
      have id : u.id = refreshToken.claims.sub := Table.find?_key stored
      have active' : desk.site.companyStatus refreshToken.claims.companyId = .active := by
        by_contra closed
        exact open' ⟨verified, ⟨u, user, active, roles⟩, closed⟩
      refine ⟨c, u, company, stored, fun password right => ?_⟩
      rw [← id] at stored
      rw [← own] at company roles member active' ⊢
      rw [login_ok jwt now sound.site.indexed company stored
        (by simpa using member) right active roles, if_pos active', slug]

/-- **Login and refresh admit the same admins**, as long as no token is refreshed
in a company that is not active. -/
theorem admissions_agree_iff (argon2 : Argon2) (jwt : JwtService) (desk : Desk)
    (events : List AdminEvent) (sound : desk.Sound argon2)
    (allowed : Throughout (AdminEvent.next argon2 jwt) (fun desk e => e.Allowed argon2 desk) desk
      events) :
    Throughout (AdminEvent.next argon2 jwt) (fun desk e => e.Agrees argon2 jwt desk) desk events ↔
      Throughout (AdminEvent.next argon2 jwt) (fun desk e => ¬ e.Suspended jwt desk) desk events :=
  throughout_congr (fun _ _ sound allowed => allowed.keeps sound)
    (fun _ _ sound allowed => allowed.agrees_iff sound) sound allowed

end agreement

namespace Demo

/-- A stand-in for argon2 that hashes in the clear. -/
def argon2 : Argon2 where
  hash _ plain := "$argon2id$" ++ plain
  verify storedHash plain := some (storedHash = "$argon2id$" ++ plain)
  hash_ne _ _ := by simp
  verify_hash _ _ := by simp

def jwt : JwtService := ⟨900, 2592000, fun _ => true⟩

/-- A company and its owner. -/
def office : Site where
  tenancy := { companies := Table.put default ⟨1, "siam-court", none⟩ }
  users := ⟨[⟨⟨7, 1⟩, "owner@siam.th", "$argon2id$correct horse", .active⟩], by decide⟩
  roleAssignments := ⟨[⟨1, 1, 7, .company_owner⟩], by decide⟩

def owner : AdminJwtClaims := ⟨7, 1, "siam-court", "owner@siam.th", [.company_owner]⟩

theorem office_sound (status : Id → CompanyStatus) :
    ({ office with companyStatus := status } : Site).Sound argon2 := by
  refine ⟨⟨(by decide : ∀ c ∈ office.tenancy.companies.rows, ∀ c' ∈ office.tenancy.companies.rows,
    c.slug = c'.slug → c = c'), (by decide : ∀ u ∈ office.users.rows, ∀ u' ∈ office.users.rows,
    u.companyId = u'.companyId → u.email = u'.email → u = u'), ?_⟩, ?_, ?_⟩
  · intro t ht
    cases ht
  · exact (by decide : ∀ u ∈ office.users.rows,
      (office.tenancy.companies.find? u.companyId).isSome)
  · intro u hu
    obtain rfl := List.mem_singleton.1 hu
    exact ⟨"", "correct horse", by decide, rfl⟩

/-- The owner logs in, and renews the session a minute later. -/
def renewed : List AdminEvent :=
  [.login 0 ⟨"siam-court", "owner@siam.th", "correct horse"⟩,
    .refresh 60 ⟨owner, .refresh, 2592000⟩]

/-- The company is suspended in between. -/
def suspended : List AdminEvent :=
  [.login 0 ⟨"siam-court", "owner@siam.th", "correct horse"⟩,
    .others { office with companyStatus := fun _ => .suspended },
    .refresh 60 ⟨owner, .refresh, 2592000⟩]

end Demo

theorem admissions_agree_renewed :
    Throughout (AdminEvent.next Demo.argon2 Demo.jwt)
      (fun desk e => e.Agrees Demo.argon2 Demo.jwt desk) ⟨Demo.office, []⟩ Demo.renewed ∧
    (AuthService.refresh Demo.jwt 60 Demo.office ⟨Demo.owner, .refresh, 2592000⟩).isOk := by
  have sound : Desk.Sound Demo.argon2 ⟨Demo.office, []⟩ :=
    ⟨Demo.office_sound _, fun token mem => by cases mem⟩
  refine ⟨(admissions_agree_iff Demo.argon2 Demo.jwt ⟨Demo.office, []⟩ Demo.renewed sound
    ⟨trivial, ?_, trivial⟩).2 ⟨id, fun suspended => suspended.2.2 rfl, trivial⟩, by decide +kernel⟩
  exact (by decide +kernel : (⟨Demo.owner, .refresh, 2592000⟩ : AdminToken) ∈ issuedBy
    (loginAdmin Demo.argon2 Demo.jwt 0 Demo.office
      ⟨"siam-court", "owner@siam.th", "correct horse"⟩))

/-- The owner of a suspended company gets new tokens, and cannot log in. -/
theorem suspended_owner_renews : ∃ desk : Desk, desk.Sound Demo.argon2 ∧
    Throughout (AdminEvent.next Demo.argon2 Demo.jwt) (fun desk e => e.Allowed Demo.argon2 desk)
      desk Demo.suspended ∧
    ¬ Throughout (AdminEvent.next Demo.argon2 Demo.jwt)
      (fun desk e => e.Agrees Demo.argon2 Demo.jwt desk) desk Demo.suspended := by
  refine ⟨⟨Demo.office, []⟩, ⟨Demo.office_sound _, fun token mem => by cases mem⟩,
    ⟨trivial, ⟨Demo.office_sound _, fun c mem => ⟨c, mem, rfl, rfl⟩⟩, ?_, trivial⟩, ?_⟩
  · exact (by decide +kernel : (⟨Demo.owner, .refresh, 2592000⟩ : AdminToken) ∈ issuedBy
      (loginAdmin Demo.argon2 Demo.jwt 0 Demo.office
        ⟨"siam-court", "owner@siam.th", "correct horse"⟩))
  · rintro ⟨-, -, agrees, -⟩
    obtain ⟨c, u, company, user, same⟩ := agrees _ rfl
    obtain rfl : (⟨1, "siam-court", none⟩ : Company) = c := Option.some.inj company
    obtain rfl : (⟨⟨7, 1⟩, "owner@siam.th", "$argon2id$correct horse", .active⟩ : UserAccount) =
      u := Option.some.inj user
    have refused := same "correct horse" (by decide +kernel)
    cases refused

end Dormitory.Auth
