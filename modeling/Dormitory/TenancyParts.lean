import Dormitory.ForeignKeys
import Dormitory.PremisesParts

/-!
# The tenants and invites of one company

The rows of one company in the tables of tenants and invites, and that the calls
made in it stay among them. A call that starts from a code belongs to the company of
the invite that it finds.
-/

namespace Dormitory.Tenancy
open Txn

section references
variable (home : Id → Id)

structure Db.Housed (db : Db) : Prop where
  users : db.users.Housed home User.companyId fun _ => True
  tenants : db.tenants.Housed home (fun t => t.companyId) fun _ => True
  properties : db.properties.Housed home Property.companyId fun _ => True
  units : db.units.Housed home DormUnit.companyId (DormUnit.Refers home)
  leases : db.leases.Housed home (fun k => k.companyId) fun k => k.toContract.Refers home
  invites :
    db.invites.Housed home TenantInvite.companyId (Premises.TenantInvite.Refers home)
  auditLogs : db.auditLogs.Housed home AuditLog.companyId (AuditLog.Refers home)

def Row.Own (c : Id) : Row → Prop
  | tenant r => r.companyId = c ∧ home r.id = c
  | invite r => r.companyId = c ∧ home r.id = c ∧ Premises.TenantInvite.Refers home r
  | auditLog r => r.companyId = c ∧ home r.id = c ∧ r.Refers home

/-- The data of an insert are of the company; codes are looked up elsewhere. -/
def Query.Own (c : Id) : Query → Prop
  | inviteCreate r => (Row.invite r).Own home c
  | auditLogCreate r => (Row.auditLog r).Own home c
  | inviteFindFirst _ _ | invitePreview _ _ => False
  | _ => True

def Statement.Own (c : Id) (s : Statement) : Prop := s.scope' = some c ∧ s.query.Own home c

end references

/-- The rows of the company. -/
def Db.part (c : Id) (db : Db) : Db where
  companies := db.companies.shard Company.id c
  users := db.users.shard User.companyId c
  tenants := db.tenants.shard (fun t => t.companyId) c
  properties := db.properties.shard Property.companyId c
  units := db.units.shard DormUnit.companyId c
  leases := db.leases.shard (fun k => k.companyId) c
  invites := db.invites.shard TenantInvite.companyId c
  auditLogs := db.auditLogs.shard AuditLog.companyId c

section statements
variable {home : Id → Id} {S : Server} {c : Id} {db : Db}

theorem sees_some {c' : Id} : Sees (some c) c' ↔ c' = c := by
  simp [Sees, eq_comm]

namespace Db
open Table

@[simp] theorem invite?_part (id : Id) :
    (db.part c).invite? (some c) id = db.invite? (some c) id := by
  simp only [invite?, sees_some]
  exact filter_find?_shard

@[simp] theorem tenant?_part (id : Id) :
    (db.part c).tenant? (some c) id = db.tenant? (some c) id := by
  simp only [tenant?, sees_some]
  exact filter_find?_shard

theorem tenant?_own {id : Id} {t : TenantProfile} (housed : db.Housed home)
    (found : db.tenant? (some c) id = some t) : (Row.tenant t).Own home c ∧ t.id = id := by
  obtain ⟨stored, company⟩ := Option.filter_eq_some_iff.mp found
  rw [decide_eq_true_iff, sees_some] at company
  have mem := find?_mem stored
  exact ⟨⟨company, (housed.tenants.keys t mem).trans company⟩, find?_key stored⟩

theorem invite?_own {id : Id} {i : TenantInvite} (housed : db.Housed home)
    (found : db.invite? (some c) id = some i) : (Row.invite i).Own home c := by
  obtain ⟨stored, company⟩ := Option.filter_eq_some_iff.mp found
  rw [decide_eq_true_iff, sees_some] at company
  have mem := find?_mem stored
  exact ⟨company, (housed.invites.keys i mem).trans company, housed.invites.rows i mem⟩

variable (housed : db.Housed home)
include housed

theorem Housed.apply {w : Row} (own : w.Own home c) : (w.apply db).Housed home := by
  cases w with
  | tenant r =>
    obtain ⟨mine, here⟩ := own
    exact { housed with tenants := housed.tenants.put (here.trans mine.symm) trivial }
  | invite r =>
    obtain ⟨mine, here, refers⟩ := own
    exact { housed with invites := housed.invites.put (here.trans mine.symm) refers }
  | auditLog r =>
    obtain ⟨mine, here, refers⟩ := own
    exact { housed with auditLogs := housed.auditLogs.put (here.trans mine.symm) refers }

theorem Housed.apply_part {w : Row} (own : w.Own home c) :
    (w.apply db).part c = w.apply (db.part c) := by
  cases w with
  | tenant r =>
    obtain ⟨mine, here⟩ := own
    simp only [Row.apply, Db.part, housed.tenants.shard_put (here.trans mine.symm) mine]
  | invite r =>
    obtain ⟨mine, here, -⟩ := own
    simp only [Row.apply, Db.part, housed.invites.shard_put (here.trans mine.symm) mine]
  | auditLog r =>
    obtain ⟨mine, here, -⟩ := own
    simp only [Row.apply, Db.part, housed.auditLogs.shard_put (here.trans mine.symm) mine]

theorem Housed.apply_other {w : Row} {d : Id} (own : w.Own home c) (apart : c ≠ d) :
    (w.apply db).part d = db.part d := by
  cases w with
  | tenant r =>
    obtain ⟨rfl, here⟩ := own
    simp only [Row.apply, Db.part, housed.tenants.shard_put_ne here apart]
  | invite r =>
    obtain ⟨rfl, here, -⟩ := own
    simp only [Row.apply, Db.part, housed.invites.shard_put_ne here apart]
  | auditLog r =>
    obtain ⟨rfl, here, -⟩ := own
    simp only [Row.apply, Db.part, housed.auditLogs.shard_put_ne here apart]

/-- The room of one of the company's tenants is among its rows. -/
theorem Housed.latestRoom {tenantId : Id} (here : home tenantId = c) :
    (db.part c).latestRoom tenantId = db.latestRoom tenantId := by
  have mine : ∀ k ∈ db.leases.rows, k.tenantId = tenantId ∧ k.status = .active →
      k.companyId = c := fun k hk holds => by
    rw [← (housed.leases.rows k hk).2, holds.1, here]
  have active : (db.part c).leases.rows.filter
        (fun k => k.tenantId = tenantId ∧ k.status = .active) =
      db.leases.rows.filter fun k => k.tenantId = tenantId ∧ k.status = .active :=
    filter_shard mine
  simp only [Db.latestRoom, active, Option.bind_eq_bind]
  rcases findLatest_spec (f := Lease.startDate)
      (db.leases.rows.filter fun k => k.tenantId = tenantId ∧ k.status = .active) with
    ⟨none, -⟩ | ⟨lease, listed, latest, -⟩
  · rw [none]
    rfl
  · obtain ⟨stored, holds⟩ := List.mem_filter.mp listed
    rw [decide_eq_true_iff] at holds
    have company := mine lease stored holds
    have room : (db.part c).units.find? lease.unitId = db.units.find? lease.unitId :=
      housed.units.find? ((housed.leases.rows lease stored).1.trans company)
    simp only [latest, Option.bind_some, room]
    cases found : db.units.find? lease.unitId with
    | none => rfl
    | some unit =>
      have mem := find?_mem found
      have theirs : home unit.propertyId = unit.companyId := housed.units.rows unit mem
      have lies : unit.companyId = c := by
        rw [← housed.units.keys unit mem]
        exact (congrArg home (find?_key found)).trans
          ((housed.leases.rows lease stored).1.trans company)
      have property : (db.part c).properties.find? unit.propertyId =
          db.properties.find? unit.propertyId := housed.properties.find? (theirs.trans lies)
      simp only [Option.bind_some, property]

end Db

open Table

section
variable (housed : db.Housed home)
include housed

theorem createInvite_part {r : TenantInvite} (own : (Row.invite r).Own home c) :
    createInvite S (db.part c) r = createInvite S db r := by
  obtain ⟨mine, here, tenant, user⟩ := own
  have free : (db.part c).invites.find? r.id = db.invites.find? r.id := housed.invites.find? here
  have known : (db.part c).tenants.find? r.tenantId = db.tenants.find? r.tenantId :=
    housed.tenants.find? (tenant.trans mine)
  have staff : (db.part c).users.find? r.createdByUserId = db.users.find? r.createdByUserId :=
    housed.users.find? (user.trans mine)
  simp only [createInvite, free, known, staff]

theorem createAuditLog_part {r : AuditLog} (own : (Row.auditLog r).Own home c) :
    createAuditLog S (db.part c) r = createAuditLog S db r := by
  obtain ⟨mine, here, refers⟩ := own
  have free : (db.part c).auditLogs.find? r.id = db.auditLogs.find? r.id :=
    housed.auditLogs.find? here
  have fits : AuditFits S (db.part c) r ↔ AuditFits S db r := by
    refine and_congr_right fun _ => and_congr_right fun _ => and_congr_right fun _ =>
      and_congr_right fun _ => forall₂_congr fun u hu => ?_
    rw [show (db.part c).users.find? u = db.users.find? u from
      housed.users.find? ((refers u hu).trans mine)]
  simp only [createAuditLog, free, fits]

theorem updateTenant_part {id : Id} {data : TenantPatch} :
    updateTenant S (some c) (db.part c) id data = updateTenant S (some c) db id data := by
  simp only [updateTenant, Db.tenant?_part]
  cases found : db.tenant? (some c) id with
  | none => rfl
  | some t =>
    obtain ⟨⟨mine, -⟩, -⟩ := Db.tenant?_own housed found
    have taken : ∀ l, (db.part c).LineTaken t.companyId l t.id ↔ db.LineTaken t.companyId l t.id :=
      fun l => exists_shard fun _ _ holds => holds.1.trans mine
    simp only [taken]

/-- **A statement of a company's request answers from the company's rows.** -/
theorem run_part {q : Query} (own : q.Own home c) :
    run S (some c) (db.part c) q = run S (some c) db q := by
  cases q with
  | inviteCreate data => exact createInvite_part housed own
  | auditLogCreate data => exact createAuditLog_part housed own
  | tenantUpdate id data => exact updateTenant_part housed
  | inviteUpdateMany id status data => simp only [run, updateManyInvites, Db.invite?_part]
  | tenantFindUnique id => simp only [run, Db.tenant?_part]
  | inviteFindUnique id => simp only [run, Db.invite?_part]
  | inviteFindFirst | invitePreview => exact own.elim

/-- **A statement of a company's request writes rows of the company.** -/
theorem run_own {q : Query} {ws : List Row} {a : q.Ans} (own : q.Own home c)
    (ran : run S (some c) db q = .ok (ws, a)) : ∀ w ∈ ws, w.Own home c := by
  cases q with
  | inviteCreate data =>
    simp only [run, createInvite] at ran
    repeat (split at ran; · cases ran)
    cases ran
    exact fun w hw => List.mem_singleton.mp hw ▸ own
  | auditLogCreate data =>
    simp only [run, createAuditLog] at ran
    split at ran
    · split at ran
      · cases ran
      · cases ran
        exact fun w hw => List.mem_singleton.mp hw ▸ own
    · cases ran
  | tenantUpdate id data =>
    simp only [run, updateTenant] at ran
    split at ran
    · cases ran
    rename_i t found
    repeat (split at ran; · cases ran)
    cases ran
    intro w hw
    obtain rfl := List.mem_singleton.mp hw
    exact (Db.tenant?_own housed found).1
  | inviteUpdateMany id status data =>
    simp only [run, updateManyInvites] at ran
    split at ran
    · cases ran
      exact List.forall_mem_nil _
    rename_i i found
    split at ran
    · cases ran
      intro w hw
      obtain rfl := List.mem_singleton.mp hw
      obtain ⟨mine, here, refers⟩ := Db.invite?_own housed (Option.filter_eq_some_iff.mp found).1
      exact ⟨mine, here, refers⟩
    · cases ran
  | tenantFindUnique | inviteFindUnique =>
    cases ran
    exact List.forall_mem_nil _
  | inviteFindFirst | invitePreview => exact own.elim

end

theorem tenancy_confined (home : Id → Id) (S : Server) (c : Id) :
    Confined (engine S) (Db.Housed home) (Statement.Own home c) (Row.Own home c) := by
  constructor
  · rintro ⟨scope', q⟩ db ws a ⟨rfl, own⟩ housed ran
    exact run_own housed own ran
  · intro db w housed own
    exact housed.apply own

theorem tenancy_inside (home : Id → Id) (S : Server) (c : Id) :
    Inside (engine S) (Db.Housed home) (Statement.Own home c) (Row.Own home c) (Db.part c) := by
  constructor
  · rintro ⟨scope', q⟩ db ⟨rfl, own⟩ housed
    exact run_part housed own
  · intro db w housed own
    exact housed.apply_part own

theorem tenancy_outside (home : Id → Id) (S : Server) {c d : Id} (apart : c ≠ d) :
    Outside (engine S) (Db.Housed home) (Row.Own home c) (Db.part d) :=
  fun _ _ housed own => housed.apply_other own apart

end statements

/-! ## The calls -/

section calls
variable {home : Id → Id} {S : Server} {c : Id} {α : Type}

/-- All statements of the program are of the company, and what it returns is as `R`
says. -/
abbrev Own (home : Id → Id) (S : Server) (c : Id) (R : α → Prop) (p : Prog tenancy α) : Prop :=
  p.Asks (engine S) (Db.Housed home) (Statement.Own home c) R

theorem prisma_own {q : Query} (own : q.Own home c) :
    Own home S c (fun _ => True) (prisma (some c) q) :=
  Prog.Asks.query' (σ := tenancy) (s := (⟨some c, q⟩ : Statement)) ⟨rfl, own⟩

theorem read_own {q : Query} {f : q.Ans → Prog tenancy α} {R : α → Prop}
    (own : q.Own home c) (rest : ∀ a, Own home S c R (f a)) :
    Own home S c R (prisma (some c) q >>= f) :=
  (prisma_own own).bind fun a _ => rest a

theorem prisma_told {q : Query} {R : q.Ans → Prop} (own : q.Own home c)
    (told : ∀ db ws a, Db.Housed home db → run S (some c) db q = .ok (ws, a) → R a) :
    Own home S c R (prisma (some c) q) :=
  Prog.Asks.query (σ := tenancy) (s := (⟨some c, q⟩ : Statement)) ⟨rfl, own⟩ told

theorem record_own {row : AuditLog} {value : α} {R : α → Prop}
    (own : (Row.auditLog row).Own home c) (holds : R value) :
    Own home S c R (record row value) := by
  obtain ⟨rfl, drawn⟩ := own
  refine Prog.Asks.attempt ?_ fun _ => holds
  exact read_own (q := .auditLogCreate row) ⟨rfl, drawn⟩ fun _ => holds

theorem request_own {row : AuditLog} {handle : Prog tenancy Answer} {n : Nat}
    (own : (Row.auditLog row).Own home c) (handler : Own home S c (fun _ => True) handle) :
    (request row handle).Asks (engine S) (Db.Housed home) (Statement.Own home c) (n + 1) :=
  handler.bind fun _ _ => (record_own (R := fun _ => True) own trivial).bind fun _ _ =>
    Script.Asks.done _

namespace TenantInviteService

theorem writeAudit_own {newId resourceId : Id} {action : String} {actorUserId : Option Id}
    {metadata : List (String × String)} (drawn : home newId = c)
    (actor : ∀ u ∈ actorUserId, home u = c) :
    Own home S c (fun _ => True)
      (writeAudit c newId action resourceId actorUserId metadata) := by
  refine Prog.Asks.attempt ?_ fun _ => trivial
  exact read_own (q := .auditLogCreate _) ⟨rfl, drawn, actor⟩ fun _ => trivial

theorem generate_own {sha256Hex : String → String} {ctx : Ctx} {newId auditId : Id} {now : Instant}
    {plaintext : String} {tenantId actorUserId : Id} (drawn : home newId = ctx.companyId)
    (audit : home auditId = ctx.companyId) (actor : home actorUserId = ctx.companyId) :
    Own home S ctx.companyId (fun _ => True)
      (generate sha256Hex ctx newId auditId now plaintext tenantId actorUserId) := by
  have seen : Own home S ctx.companyId
      (fun found : Option TenantProfile => ∀ t ∈ found, home tenantId = ctx.companyId)
      (prisma (some ctx.companyId) (.tenantFindUnique tenantId)) := by
    refine prisma_told trivial fun db ws a housed ran t found => ?_
    cases ran
    obtain ⟨⟨-, here⟩, rfl⟩ := Db.tenant?_own housed found
    exact here
  refine seen.bind fun tenant own => ?_
  cases tenant with
  | none => trivial
  | some tenant =>
    dsimp only
    split
    · trivial
    · refine read_own ⟨rfl, drawn, own tenant rfl, actor⟩ fun row => ?_
      refine (writeAudit_own audit fun u hu => ?_).bind fun _ _ => trivial
      cases hu
      exact actor

theorem revoke_own {ctx : Ctx} {auditId inviteId : Id} {reason : Option String} {actorUserId : Id}
    (audit : home auditId = ctx.companyId) (actor : home actorUserId = ctx.companyId) :
    Own home S ctx.companyId (fun _ => True) (revoke ctx auditId inviteId reason actorUserId) := by
  refine read_own trivial fun existing => ?_
  cases existing with
  | none => trivial
  | some existing =>
    dsimp only
    split
    · trivial
    refine read_own trivial fun count => ?_
    split
    · trivial
    refine read_own trivial fun updated => ?_
    cases updated with
    | none => trivial
    | some updated =>
      refine (writeAudit_own audit fun u hu => ?_).bind fun _ _ => trivial
      cases hu
      exact actor

variable {candidate : TenantInvite}

theorem sweep_own {n : Nat} (mine : candidate.companyId = c) :
    (sweep candidate).Asks (engine S) (Db.Housed home) (Statement.Own home c) (n + 1) := by
  subst mine
  exact read_own trivial fun _ => Script.Asks.done _

theorem bindTenant_own {auditId : Id} {lineUserId : String} (mine : candidate.companyId = c)
    (audit : home auditId = c) :
    Own home S c (fun _ => True) (bindTenant candidate auditId lineUserId) := by
  subst mine
  refine Prog.Asks.attempt (read_own trivial fun _ => trivial) fun err => ?_
  split
  · exact read_own trivial fun _ =>
      (writeAudit_own audit fun u hu => by cases hu).bind fun _ _ => trivial
  · trivial

theorem redeemPending_own {slug : String} {auditId : Id} {now : Instant} {lineUserId : String}
    {n : Nat} (mine : candidate.companyId = c) (audit : home auditId = c) :
    (redeemPending candidate slug auditId now lineUserId).Asks (engine S) (Db.Housed home)
      (Statement.Own home c) (n + 1) := by
  subst mine
  refine read_own trivial fun count => ?_
  split
  · trivial
  · exact (bindTenant_own rfl audit).bind fun _ _ =>
      (writeAudit_own audit fun u hu => by cases hu).bind fun _ _ => Script.Asks.done _

theorem redeemFound_own {slug : String} {auditId : Id} {now now' : Instant} {lineUserId : String}
    {n : Nat} (mine : candidate.companyId = c) (audit : home auditId = c) :
    (redeemFound candidate slug auditId now now' lineUserId).Asks (engine S) (Db.Housed home)
      (Statement.Own home c) (n + 1) := by
  have rest : (redeemFound.rest candidate slug auditId now now' lineUserId).Asks (engine S)
      (Db.Housed home) (Statement.Own home c) (n + 1) := by
    unfold redeemFound.rest
    split
    · exact Script.Asks.done _
    split
    · exact sweep_own mine
    · exact redeemPending_own mine audit
  unfold redeemFound
  split
  · split
    · exact Script.Asks.done _
    · exact rest
  · exact rest

/-- What `peek` does with what it found. -/
def peekFound (now : Instant) :
    Option (TenantInvite × TenantProfile × Option (DormUnit × Property)) → Script tenancy Answer
  | none => .done (.error tenantInviteNotFound)
  | some (candidate, tenant, room) =>
    if candidate.status ≠ .pending then .done (.error (terminalState candidate.status))
    else if candidate.expiresAt ≤ now then sweep candidate
    else .done (.ok (.preview {
      inviteId := candidate.id
      tenantDisplayHint := redactDisplayName tenant.displayName
      unitNumber := room.map fun r => r.1.unitNumber
      propertyName := room.map fun r => r.2.name
      expiresAt := candidate.expiresAt }))

theorem peek_eq (sha256Hex : String → String) (now : Instant) (code : String) :
    peek sha256Hex now code =
      .tx (prisma none (.invitePreview (codePrefixOf code) (sha256Hex code)) >>=
        fun found => pure (peekFound now found)) := by
  unfold peek
  congr 2
  funext found
  cases found with
  | none => rfl
  | some found =>
    obtain ⟨candidate, tenant, room⟩ := found
    simp only [peekFound]
    split
    · rfl
    split
    · rfl
    · rfl

/-- What `redeem` does with what it found. -/
def redeemLookup (auditId : Id) (now now' : Instant) (lineUserId : String) :
    Option (TenantInvite × Company) → Script tenancy Answer
  | none => .done (.error tenantInviteNotFound)
  | some (candidate, company) =>
    redeemFound candidate company.slug auditId now now' lineUserId

theorem redeem_eq (sha256Hex : String → String) (auditId : Id) (now now' : Instant)
    (code lineUserId : String) :
    redeem sha256Hex auditId now now' code lineUserId =
      .tx (prisma none (.inviteFindFirst (codePrefixOf code) (sha256Hex code)) >>=
        fun found => pure (redeemLookup auditId now now' lineUserId found)) := by
  unfold redeem
  congr 2
  funext found
  cases found with
  | none => rfl
  | some found => rfl

theorem peekFound_own (now : Instant)
    {found : Option (TenantInvite × TenantProfile × Option (DormUnit × Property))} {n : Nat}
    (mine : ∀ f ∈ found, f.1.companyId = c) :
    (peekFound now found).Asks (engine S) (Db.Housed home) (Statement.Own home c) (n + 1) := by
  cases found with
  | none => exact Script.Asks.done _
  | some found =>
    obtain ⟨candidate, tenant, room⟩ := found
    simp only [peekFound]
    split
    · exact Script.Asks.done _
    split
    · exact sweep_own (mine _ rfl)
    · exact Script.Asks.done _

theorem redeemLookup_own {auditId : Id} (now now' : Instant) (lineUserId : String)
    {found : Option (TenantInvite × Company)} {n : Nat} (mine : ∀ f ∈ found, f.1.companyId = c)
    (audit : home auditId = c) :
    (redeemLookup auditId now now' lineUserId found).Asks (engine S) (Db.Housed home)
      (Statement.Own home c) (n + 1) := by
  cases found with
  | none => exact Script.Asks.done _
  | some found => exact redeemFound_own (mine _ rfl) audit

end TenantInviteService

theorem TenantService.update_own {ctx : Ctx} {id : Id} {input : UpdateTenantInput} :
    Own home S ctx.companyId (fun _ => True) (update ctx id input) := by
  have found : Own home S ctx.companyId (fun _ => True) (getById ctx id) := by
    refine read_own trivial fun row => ?_
    cases row with
    | none => trivial
    | some row => trivial
  refine found.bind fun _ _ => Prog.Asks.attempt (read_own trivial fun _ => trivial) fun err => ?_
  split
  · trivial
  · trivial

end calls
end Dormitory.Tenancy
