import Dormitory.AuthService
import Dormitory.Txn.Serial

/-!
# Sessions of tenants

A tenant gets a session for a redeemed invite or in exchange for a LIFF id
token. The exchange admits active tenants of active companies only; the
redemption looks at the invite.
-/

namespace Dormitory.Tenancy
open Txn TenantInviteService Auth

/-! ## Histories -/

/-- A call of the tenants' services, or the writes of anybody else: a company is
suspended or signs up, a tenant is created. -/
inductive Event where
  | call (step : Step)
  | others (site : Site)

def Event.next : Site → Event → Site
  | site, .call step => { site with tenancy := step.after }
  | _, .others site => site

def Event.Allowed (S : Server) (sha256Hex : String → String) (site : Site) : Event → Prop
  | .call step => step.before = site.tenancy ∧ step.Served S sha256Hex
  | .others site => site.Indexed

/-- A history of calls alone. -/
theorem throughout_calls {S : Server} {sha256Hex : String → String} {site : Site}
    {steps : List Step} (P : Site → Event → Prop) (run : IsRun S sha256Hex site.tenancy steps) :
    Throughout Event.next P site (steps.map .call) ↔
      ∀ s ∈ steps, P { site with tenancy := s.before } (.call s) := by
  induction steps generalizing site with
  | nil => exact iff_of_true trivial fun s hs => by cases hs
  | cons s steps ih =>
    obtain ⟨before, -, rest⟩ := run
    have later := @ih (Event.next site (.call s)) rest
    rw [List.map_cons, List.forall_mem_cons, before]
    exact and_congr Iff.rfl later

theorem calls_allowed {S : Server} {sha256Hex : String → String} {site : Site}
    {steps : List Step} (run : IsRun S sha256Hex site.tenancy steps) :
    Throughout Event.next (fun site e => e.Allowed S sha256Hex site) site (steps.map .call) :=
  (throughout_calls _ run).2 fun s hs => ⟨rfl, run.served s hs⟩

/-! ## What calls keep -/

section keeps
variable {S : Server} {sha256Hex : String → String} {db : Db} {scope' : Option Id}

theorem updateTenant_accounts {id : Id} {data : TenantPatch} {ws : List Row} {t : TenantProfile}
    (own : OwnAccounts db) (ran : updateTenant S scope' db id data = .ok (ws, t)) :
    OwnAccounts (ws.foldl Row.apply db) := by
  unfold updateTenant at ran
  split at ran
  · cases ran
  · rename_i t found
    have stored : t ∈ db.tenants.rows := Table.find?_mem (Option.filter_eq_some_iff.1 found).1
    split at ran
    · cases ran
    · split at ran
      · cases ran
      · rename_i free
        cases ran
        -- The account of the updated row is the patch's, which is free, or its old one.
        have alone : ∀ t' ∈ db.tenants.rows, t'.id ≠ t.id → t'.companyId = t.companyId →
            ∀ l, t'.lineUserId = some l → (data.apply t).lineUserId ≠ some l := by
          intro t' mem other company l has updated
          cases patch : data.lineUserId with
          | some l' =>
            have same : l' = l := by simpa [TenantPatch.apply, patch] using updated
            exact free ⟨l', patch, t', mem, company, same ▸ has, other⟩
          | none =>
            have kept : t.lineUserId = some l := by simpa [TenantPatch.apply, patch] using updated
            exact other (congrArg (fun t : TenantProfile => t.id) (own t' mem t stored company has
              kept))
        intro a ha b hb company l has has'
        rcases Table.mem_put.1 ha with rfl | ⟨ha, other⟩ <;>
          rcases Table.mem_put.1 hb with rfl | ⟨hb, other'⟩
        · rfl
        · exact absurd has (alone b hb other' company.symm l has')
        · exact absurd has' (alone a ha other company l has)
        · exact own a ha b hb company has has'

/-- A statement keeps the unique index on the accounts, and the companies. -/
theorem run_accounts {q : Query} {ws : List Row} {a : q.Ans}
    (ran : run S scope' db q = .ok (ws, a)) :
    (OwnAccounts db → OwnAccounts (ws.foldl Row.apply db)) ∧
      (ws.foldl Row.apply db).companies = db.companies := by
  cases q with
  | tenantFindUnique | inviteFindUnique | inviteFindFirst | invitePreview =>
    cases ran
    exact ⟨id, rfl⟩
  | tenantUpdate id data =>
    refine ⟨fun own => updateTenant_accounts own ran, ?_⟩
    obtain ⟨t, -, rfl⟩ := updateTenant_ok ran
    rfl
  | inviteCreate data =>
    change createInvite S db data = _ at ran
    unfold createInvite at ran
    split at ran
    · cases ran
    · split at ran
      · cases ran
      · split at ran
        · cases ran
        · cases ran
          exact ⟨id, rfl⟩
  | inviteUpdateMany id status data =>
    change updateManyInvites scope' db id status data = _ at ran
    unfold updateManyInvites at ran
    split at ran
    · cases ran
      exact ⟨fun own => own, rfl⟩
    · split at ran
      · cases ran
        exact ⟨fun own => own, rfl⟩
      · cases ran
  | auditLogCreate data =>
    change createAuditLog S db data = _ at ran
    unfold createAuditLog at ran
    split at ran
    · split at ran
      · cases ran
      · cases ran
        exact ⟨id, rfl⟩
    · cases ran

theorem Step.Served.keeps {s : Step} (served : s.Served S sha256Hex) :
    (OwnAccounts s.before → OwnAccounts s.after) ∧ s.after.companies = s.before.companies := by
  constructor
  · exact served.2.keeps fun q st ws a own ran => (run_accounts ran).1 own
  · exact served.2.keeps (I := fun d : Db => d.companies = s.before.companies)
      (fun q st ws a same ran => (run_accounts ran).2.trans same) rfl

theorem Event.Allowed.keeps {site : Site} {e : Event} (allowed : e.Allowed S sha256Hex site)
    (indexed : site.Indexed) : (e.next site).Indexed := by
  cases e with
  | others site => exact allowed
  | call step =>
    obtain ⟨before, served⟩ := allowed
    obtain ⟨own, companies⟩ := served.keeps
    rw [before] at own companies
    refine ⟨?_, indexed.emails, own indexed.accounts⟩
    change ∀ c ∈ step.after.companies.rows, ∀ c' ∈ step.after.companies.rows, _
    rw [companies]
    exact indexed.slugs

end keeps

/-! ## Who is admitted -/

/-- The exchange admits the tenant of a company for this account. -/
def Site.Admits (site : Site) (companyId tenantId : Id) (lineUserId : String) : Prop :=
  site.companyStatus companyId = .active ∧
    ∃ t ∈ site.tenancy.tenant? (some companyId) tenantId,
      t.status = .active ∧ t.lineUserId = some lineUserId

instance (site : Site) (companyId tenantId : Id) (lineUserId : String) :
    Decidable (Site.Admits site companyId tenantId lineUserId) :=
  inferInstanceAs (Decidable (_ ∧ ∃ t ∈ site.tenancy.tenant? (some companyId) tenantId, _))

/-- The exchange of an id token of the account gives the same session. -/
def Site.Exchanges (site : Site) (claims : TenantJwtClaims) : Prop :=
  ∀ verify idToken, verify idToken = .ok claims.lineUserId →
    AuthService.exchangeLiffIdToken verify site ⟨claims.companySlug, idToken⟩ =
      .ok ⟨claims.sub, claims.companyId, claims.companySlug, claims⟩

theorem exchanges_iff {site : Site} (indexed : site.Indexed) {c : Company}
    (stored : site.tenancy.companies.find? c.id = some c) (tenantId : Id) (lineUserId : String) :
    Site.Exchanges site ⟨tenantId, c.id, c.slug, lineUserId⟩ ↔
      Site.Admits site c.id tenantId lineUserId := by
  have company := lookup_company indexed stored
  constructor
  · intro exchanges
    have exchanged := exchanges (fun l => .ok l) lineUserId rfl
    unfold AuthService.exchangeLiffIdToken at exchanged
    simp only [company, Option.filter] at exchanged
    by_cases active : site.companyStatus c.id = .active
    · simp only [active, decide_true, if_true] at exchanged
      cases found : site.tenantByLine? c.id lineUserId with
      | none => simp [found] at exchanged
      | some t =>
        by_cases admitted : t.status = .active
        · simp only [found, admitted, decide_true, if_true, Except.ok.injEq,
            LoginLiffResponse.mk.injEq, TenantJwtClaims.mk.injEq] at exchanged
          have mem := List.mem_of_find?_eq_some found
          have bound : t.companyId = c.id ∧ t.lineUserId = some lineUserId := by
            simpa using List.find?_some found
          refine ⟨active, t, ?_, admitted, bound.2⟩
          rw [← exchanged.1]
          exact Option.filter_eq_some_iff.2 ⟨Table.find?_of_mem mem, by simp [Sees, bound.1]⟩
        · simp [found, admitted] at exchanged
    · simp [active] at exchanged
  · rintro ⟨active, t, found, admitted, bound⟩ verify idToken verified
    obtain ⟨found, sees⟩ := Option.filter_eq_some_iff.1 found
    have own : t.companyId = c.id := by simpa [Sees, eq_comm] using sees
    have known := lookup_tenant indexed (Table.find?_mem found) bound
    have id : t.id = tenantId := Table.find?_key found
    rw [own] at known
    unfold AuthService.exchangeLiffIdToken
    simp [company, Option.filter, active, verified, known, admitted, id]

/-! ## What a redemption is answered -/

/-- The answer names the tenant of the invite, and its company. -/
def Names (i : TenantInvite) (slug : String) : Except ApiError Answer → Prop
  | .ok (.redeemed bind) =>
    bind.tenantId = i.tenantId ∧ bind.companyId = i.companyId ∧ bind.companySlug = slug
  | _ => True

section answers
variable {S : Server} {sha256Hex : String → String} {queueUp : Nat → Bool} {db d : Db}
  {auditId : Id} {now now' : Instant} {code lineUserId : String} {i : TenantInvite} {slug : String}
  {r : Except ApiError Answer}

theorem redeemPending_names
    (h : (redeemPending i slug auditId now' lineUserId).Serves (engine S) queueUp db r d) :
    Names i slug r := by
  refine h.returns (P := Names i slug) (Prog.Returns.bind _ fun count => ?_) fun e => trivial
  split
  · exact Prog.Returns.fail _ _
  · refine Prog.Returns.bind _ fun _ => Prog.Returns.bind _ fun _ => Prog.Returns.ret _ ?_
    exact ⟨_, rfl, rfl, rfl, rfl⟩

theorem sweep_names (h : (sweep i).Serves (engine S) queueUp db r d) : Names i slug r := by
  refine h.returns (P := Names i slug) (Prog.Returns.bind _ fun _ => ?_) fun e => trivial
  exact Prog.Returns.ret _ ⟨_, rfl, trivial⟩

theorem redeemFound_names
    (h : (redeemFound i slug auditId now now' lineUserId).Serves (engine S) queueUp db r d) :
    Names i slug r := by
  have rest : (redeemFound.rest i slug auditId now now' lineUserId).Serves (engine S) queueUp db
      r d → Names i slug r := by
    intro h
    unfold redeemFound.rest at h
    split at h
    · cases h
      trivial
    · split at h
      · exact sweep_names h
      · exact redeemPending_names h
  unfold redeemFound at h
  split at h
  · split at h
    · cases h
      exact ⟨rfl, rfl, rfl⟩
    · exact rest h
  · exact rest h

/-- A redemption is answered for the invite under the code. -/
theorem redeem_names {bind : RedeemTenantInviteResponse}
    (h : (redeem sha256Hex auditId now now' code lineUserId).Serves (engine S) queueUp db
      (.ok (.redeemed bind)) d) :
    ∃ i c, db.candidate? sha256Hex code = some (i, c) ∧
      bind.tenantId = i.tenantId ∧ bind.companyId = i.companyId ∧ bind.companySlug = c.slug := by
  refine h.leads (Q := fun r _ => r = .ok (.redeemed bind) → ∃ i c,
    db.candidate? sha256Hex code = some (i, c) ∧ bind.tenantId = i.tenantId ∧
      bind.companyId = i.companyId ∧ bind.companySlug = c.slug)
    (Prog.leads_query rfl (fun ws candidate ran => ?_) fun e ran => by cases ran) rfl
  have looked : candidate = db.candidate? sha256Hex code := by
    cases ran
    rfl
  cases candidate with
  | none => exact Prog.leads_done rfl fun answer => by cases answer
  | some found =>
    obtain ⟨i, c⟩ := found
    refine Prog.leads_ret rfl fun r d served => ?_
    rintro rfl
    exact ⟨i, c, looked.symm, redeemFound_names served⟩

end answers

/-! ## Agreement -/

/-- A session that the call is answered with can be got by exchange as well. -/
def Event.Agrees (site : Site) : Event → Prop
  | .call step => ∀ claims, step.session? = some claims →
      Site.Exchanges { site with tenancy := step.after } claims
  | .others _ => True

/-- The invite under the code is redeemed once more for an account that is not
admitted, or binds a tenant who is not active or whose company is not. -/
def Event.Retired (sha256Hex : String → String) (site : Site) : Event → Prop
  | .call ⟨_, .redeem _ now _ code lineUserId, _, _⟩ =>
    ∃ found ∈ site.tenancy.candidate? sha256Hex code,
      (RedeemedBy found.1 lineUserId ∧
        ¬ Site.Admits site found.1.companyId found.1.tenantId lineUserId) ∨
      (found.1.status = .pending ∧ now < found.1.expiresAt ∧
        ∃ t ∈ site.tenancy.tenant? (some found.1.companyId) found.1.tenantId,
          (lineUserId.length ≤ 64 ∧ ¬ site.tenancy.LineTaken t.companyId lineUserId t.id) ∧
          ¬ (site.companyStatus found.1.companyId = .active ∧ t.status = .active))
  | _ => False

instance (i : TenantInvite) (lineUserId : String) : Decidable (RedeemedBy i lineUserId) :=
  inferInstanceAs (Decidable (_ ∧ _))

instance (sha256Hex : String → String) (site : Site) (e : Event) :
    Decidable (e.Retired sha256Hex site) :=
  match e with
  | .call ⟨_, .redeem .., _, _⟩ => inferInstanceAs (Decidable (∃ found ∈ _, (_ ∧ _) ∨ _))
  | .call ⟨_, .generate .., _, _⟩ | .call ⟨_, .revoke .., _, _⟩ | .call ⟨_, .peek .., _, _⟩
  | .call ⟨_, .updateTenant .., _, _⟩ | .others _ => .isFalse id

/-- The company of a candidate. -/
theorem candidate_company {sha256Hex : String → String} {db : Db} {code : String}
    {i : TenantInvite} {c : Company} (known : db.candidate? sha256Hex code = some (i, c)) :
    c.id = i.companyId ∧ db.companies.find? c.id = some c := by
  obtain ⟨j, -, pair⟩ := Option.bind_eq_some_iff.1 known
  obtain ⟨c', stored, same⟩ := Option.map_eq_some_iff.1 pair
  cases same
  have own : c.id = i.companyId := Table.find?_key stored
  exact ⟨own, own ▸ stored⟩

/-- The tenant bound by a redemption is admitted if the statuses allow it. -/
theorem bound_admits {site : Site} {d : Db} {i : TenantInvite} {t : TenantProfile}
    {lineUserId : String} (bindable : site.tenancy.Bindable i lineUserId t)
    (bound : d.tenants = site.tenancy.tenants.put
      (TenantPatch.apply { lineUserId := some lineUserId } t)) :
    Site.Admits { site with tenancy := d } i.companyId t.id lineUserId ↔
      site.companyStatus i.companyId = .active ∧ t.status = .active := by
  obtain ⟨-, sees⟩ := Option.filter_eq_some_iff.1 bindable.1
  have found : d.tenant? (some i.companyId) t.id =
      some (TenantPatch.apply { lineUserId := some lineUserId } t) := by
    have stored : d.tenants.find? t.id =
        some (TenantPatch.apply { lineUserId := some lineUserId } t) := by
      rw [bound]
      exact Table.find?_put_self _ _
    exact Option.filter_eq_some_iff.2 ⟨stored, sees⟩
  simp [Site.Admits, found, TenantPatch.apply]

/-- A redemption that is answered agrees if the exchange admits its tenant. -/
theorem redeemed_agrees {S : Server} {sha256Hex : String → String} {site : Site} {after : Db}
    {auditId : Id} {now now' : Instant} {code lineUserId : String} {i : TenantInvite} {c : Company}
    {bind : RedeemTenantInviteResponse}
    (served : (redeem sha256Hex auditId now now' code lineUserId).Serves (engine S) (fun _ => true)
      site.tenancy (.ok (.redeemed bind)) after)
    (companies : after.companies = site.tenancy.companies)
    (later : Site.Indexed { site with tenancy := after })
    (known : site.tenancy.candidate? sha256Hex code = some (i, c)) :
    (Event.call ⟨site.tenancy, .redeem auditId now now' code lineUserId, .ok (.redeemed bind),
        after⟩).Agrees site ↔
      Site.Admits { site with tenancy := after } i.companyId i.tenantId lineUserId := by
  obtain ⟨i', c', known', tenantId, companyId, companySlug⟩ := redeem_names served
  obtain ⟨rfl, rfl⟩ := Prod.mk.inj (Option.some.inj (known.symm.trans known'))
  obtain ⟨own, stored⟩ := candidate_company known
  have claims : mintTenantSession bind lineUserId = ⟨i.tenantId, c.id, c.slug, lineUserId⟩ := by
    rw [mintTenantSession, tenantId, companyId, companySlug, own]
  have exchanges := exchanges_iff later (companies ▸ stored) i.tenantId lineUserId
  rw [← own, ← exchanges, ← claims]
  constructor
  · exact fun agrees => agrees _ rfl
  · rintro exchanges claims' ⟨⟩
    exact exchanges

theorem Event.Allowed.agrees_iff {S : Server} {sha256Hex : String → String} {site : Site}
    {e : Event} (indexed : site.Indexed) (allowed : e.Allowed S sha256Hex site) :
    e.Agrees site ↔ ¬ e.Retired sha256Hex site := by
  have later := allowed.keeps indexed
  cases e with
  | others site => exact iff_of_true trivial fun retired => retired
  | call step =>
    obtain ⟨before, call, answer, after⟩ := step
    obtain ⟨rfl, served⟩ := allowed
    have companies := served.keeps.2
    cases call with
    | generate | revoke | peek | updateTenant =>
      exact iff_of_true (fun claims minted => by cases minted) fun retired => retired
    | redeem auditId now now' code lineUserId =>
      cases served.redeemed trivial with
      | replays i l r tenant replays =>
        obtain ⟨rfl, c, known, redeemed⟩ := replays
        rw [redeemed_agrees served.2 companies later known, ← not_iff_not, not_not]
        constructor
        · exact fun refused => ⟨(i, c), known, .inl ⟨redeemed, refused⟩⟩
        · rintro ⟨found, looked, ⟨-, refused⟩ | ⟨pending, -⟩⟩
          · obtain rfl := Option.some.inj (known.symm.trans looked)
            exact refused
          · obtain rfl := Option.some.inj (known.symm.trans looked)
            cases redeemed.1.symm.trans pending
      | binds t l r d tenant binds bound =>
        obtain ⟨rfl, i, c, known, pending, valid, bindable⟩ := binds
        have own : t.id = i.tenantId :=
          Table.find?_key (Option.filter_eq_some_iff.1 bindable.1).1
        rw [redeemed_agrees served.2 companies later known, ← own, bound_admits bindable bound,
          ← not_iff_not, not_not]
        constructor
        · exact fun barred => ⟨(i, c), known, .inr ⟨pending, valid, t, bindable.1, bindable.2,
            barred⟩⟩
        · rintro ⟨found, looked, ⟨redeemed, -⟩ | ⟨-, -, t', found', -, barred⟩⟩
          · obtain rfl := Option.some.inj (known.symm.trans looked)
            cases pending.symm.trans redeemed.1
          · obtain rfl := Option.some.inj (known.symm.trans looked)
            obtain rfl := Option.some.inj (bindable.1.symm.trans found')
            exact barred
      | refuses e d same unfit other =>
        refine iff_of_true (fun claims minted => by cases minted) ?_
        rintro ⟨⟨i, c⟩, known, ⟨redeemed, -⟩ | ⟨pending, valid, t, found, free, -⟩⟩
        · exact other i lineUserId ⟨rfl, c, known, redeemed⟩
        · exact unfit t lineUserId ⟨rfl, i, c, known, pending, valid, found, free⟩

/-- **The two ways to a session agree**, as long as no invite is redeemed for a
tenant who has moved out or is blocked, in a company that is suspended or gone,
or once more for an account that the tenant no longer has. -/
theorem sessions_agree_iff (S : Server) (sha256Hex : String → String) (site : Site)
    (events : List Event) (indexed : site.Indexed)
    (allowed : Throughout Event.next (fun site e => e.Allowed S sha256Hex site) site events) :
    Throughout Event.next (fun site e => e.Agrees site) site events ↔
      Throughout Event.next (fun site e => ¬ e.Retired sha256Hex site) site events :=
  throughout_congr (fun _ _ indexed allowed => allowed.keeps indexed)
    (fun _ _ indexed allowed => allowed.agrees_iff indexed) indexed allowed

namespace Demo

/-- The company and its tenant without a LINE account. -/
def site : Site := { tenancy := unbound }

theorem site_indexed : site.Indexed := by
  refine ⟨by decide, by decide, ?_⟩
  intro t ht t' ht' company l bound
  obtain rfl := List.mem_singleton.1 ht
  cases bound

/-- The tenant moves out before the invite is redeemed. -/
def movedOut : List InviteCall :=
  [inviteTenant 31 "K7M3XQ2P",
    .updateTenant (adminRow 401) ⟨1⟩ 21 ⟨none, none, none, some .moved_out⟩,
    .redeem 301 10 10 "K7M3XQ2P" "U1"]

end Demo

/-- An invite is redeemed, and redeemed once more. -/
theorem sessions_agree_replayed : ∃ events : List Event, events.length = 4 ∧
    Throughout Event.next (fun site e => e.Agrees site) {} events := by
  have run : ∃ steps ∈ serveAll Demo.server Demo.sha256Hex Demo.unbound Demo.replayed,
      (∀ s ∈ steps, s.call.Fresh s.before) ∧ steps.length = 3 ∧
      ∀ s ∈ steps, ¬ (Event.call s).Retired Demo.sha256Hex { tenancy := s.before } := by
    decide +kernel
  obtain ⟨steps, served, fresh, length, current⟩ := run
  have run : IsRun Demo.server Demo.sha256Hex Demo.site.tenancy steps := serveAll_isRun served fresh
  have empty : Site.Indexed {} := by
    refine ⟨?_, ?_, ?_⟩ <;> intro r hr <;> cases hr
  have allowed : Throughout Event.next (fun site e => e.Allowed Demo.server Demo.sha256Hex site) {}
      (.others Demo.site :: steps.map .call) := ⟨Demo.site_indexed, calls_allowed run⟩
  refine ⟨.others Demo.site :: steps.map .call, by simpa using length, ?_⟩
  refine (sessions_agree_iff Demo.server Demo.sha256Hex {} _ empty allowed).2
    ⟨fun retired => retired, ?_⟩
  exact (throughout_calls _ run).2 current

/-- The invite of a tenant who has moved out still gets a session. -/
theorem moved_out_gets_session : ∃ events : List Event, Demo.site.Indexed ∧
    Throughout Event.next (fun site e => e.Allowed Demo.server Demo.sha256Hex site) Demo.site
      events ∧ ¬ Throughout Event.next (fun site e => e.Agrees site) Demo.site events := by
  have run : ∃ steps ∈ serveAll Demo.server Demo.sha256Hex Demo.unbound Demo.movedOut,
      (∀ s ∈ steps, s.call.Fresh s.before) ∧
      ∃ s ∈ steps, s.session? = some ⟨21, 1, "siam-court", "U1"⟩ ∧
        AuthService.exchangeLiffIdToken (fun l => .ok l) { tenancy := s.after }
          ⟨"siam-court", "U1"⟩ = .error AuthService.invalidCredentials := by decide +kernel
  obtain ⟨steps, served, fresh, s, hs, minted, refused⟩ := run
  have run : IsRun Demo.server Demo.sha256Hex Demo.site.tenancy steps := serveAll_isRun served fresh
  refine ⟨steps.map .call, Demo.site_indexed, calls_allowed run, fun agrees => ?_⟩
  have agrees := (throughout_calls _ run).1 agrees s hs _ minted (fun l => .ok l) "U1" rfl
  cases refused.symm.trans agrees

end Dormitory.Tenancy
