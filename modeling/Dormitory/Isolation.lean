import Dormitory.TenancyParts

/-!
# Companies do not notice each other

Every company's calls, in any order among the calls of all the others: what a
company is told and what its rows become depends on its own rows and calls alone.
-/

namespace Dormitory

/-! ## The parts of a call -/

/-- What the caller is told. -/
inductive Reply where
  | property (r : Except Failure PropertyRow)
  | unit (r : Except Failure UnitRow)
  | tenant (r : Except Failure TenantRow)
  | slip (r : Except Failure Slip)
  | contract (r : Except Failure ContractRow)
  | meter (r : Except Failure MeterRow)
  | reading (r : Except Failure ReadingRow)
  | invoice (r : Except Failure Invoice)
  | payment (r : Except Failure Payment)
  | batch (r : Except Failure BatchGenerateInvoicesResult)
  | invite (r : Option (Except ApiError Tenancy.Answer))

namespace Premises
open Txn

/-- The ids that a call draws are the company's. -/
def PremisesCall.Drawn (home : Id → Id) (c : Id) : PremisesCall → Prop
  | createProperty newId _ | createUnit newId _ | createTenant newId _
  | registerSlip _ newId _ _ => home newId = c
  | updateProperty _ _ | updateUnit _ _ | updateTenant _ _ | updateInvoice _ _ => True

def PremisesCall.answer (S : Server) (P : Pgcrypto) (ctx : Ctx) (s : Dorm) : PremisesCall → Reply
  | createProperty newId input => .property (serve (PropertyService.create ctx newId input))
  | updateProperty id input => .property (serve (PropertyService.update ctx id input))
  | createUnit newId input => .unit (serve (UnitService.create ctx newId input))
  | updateUnit id input => .unit (serve (UnitService.update ctx id input))
  | createTenant newId input => .tenant (serve (TenantService.create ctx newId input))
  | updateTenant id input => .tenant (serve (TenantService.update ctx id input))
  | registerSlip head newId paymentId input =>
    .slip (serve (SlipService.register ctx head newId paymentId input))
  | updateInvoice id input => .invoice (serve (InvoiceService.update ctx id input))
where
  serve {α : Type} (p : Prog premises α) : Except Failure α :=
    (p.serve (engine S P) (fun _ => true) s).answer

end Premises

namespace Leasing
open Txn

def LeasingCall.Drawn (home : Id → Id) (c : Id) : LeasingCall → Prop
  | createContract newId _ | createMeter newId _ | createReading newId _ _ => home newId = c
  | updateContract _ _ | updateMeter _ _ | updateReading _ _ => True

def LeasingCall.answer (S : Server) (ctx : Ctx) (e : Estate) : LeasingCall → Reply
  | createContract newId input => .contract (serve (ContractService.create ctx newId input))
  | updateContract id input => .contract (serve (ContractService.update ctx id input))
  | createMeter newId input => .meter (serve (MeterService.create ctx newId input))
  | updateMeter id input => .meter (serve (MeterService.update ctx id input))
  | createReading newId now input =>
    .reading (serve (ReadingService.create ctx newId now input))
  | updateReading id input => .reading (serve (ReadingService.update ctx id input))
where
  serve {α : Type} (p : Prog leasing α) : Except Failure α :=
    (p.serve (engine S) (fun _ => true) e).answer

end Leasing

open Txn

/-- An invoice's items bill readings of the company; the batch looks its readings
up itself. -/
def InvoicingCall.Drawn (home : Id → Id) (c : Id) : InvoicingCall → Prop
  | create newId _ input => home newId = c ∧
      ∀ it ∈ input.items, ∀ readingId ∈ it.readingId, home readingId = c
  | createBatch newId _ _ => ∀ k, home (newId k) = c
  | issue _ _ | void _ => True

def InvoicingRequest.answer (S : Server) (db : Db) (r : InvoicingRequest) : Reply :=
  match r.call with
  | .create newId now input => .invoice (serve (InvoiceService.create r.ctx newId now input))
  | .createBatch newId now input =>
    .batch (serve (InvoiceService.createBatch r.ctx newId now input))
  | .issue now id => .invoice (serve (InvoiceService.issue r.ctx now id))
  | .void id => .invoice (serve (InvoiceService.void r.ctx id))
where
  serve {α : Type} (p : Call α) : Except Failure α := (p.serve (engine S) r.queueUp db).answer

def BillingCall.Drawn (home : Id → Id) (c : Id) : BillingCall → Prop
  | create newId _ _ | createForTenant newId _ _ _ => home newId = c
  | confirm _ _ confirmedByUserId => home confirmedByUserId = c
  | reject _ _ | issue _ _ | void _ => True

def Request.answer (S : Server) (db : Db) (r : Request) : Reply :=
  match r.call with
  | .create newId input key => .payment (serve (PaymentService.create r.ctx newId input key))
  | .createForTenant newId input key tenantId =>
    .payment (serve (PaymentService.createForTenant r.ctx newId input key tenantId))
  | .confirm now id user => .payment (serve (PaymentService.confirm r.ctx now id user))
  | .reject id reason => .payment (serve (PaymentService.reject r.ctx id reason))
  | .issue now id => .invoice (serve (InvoiceService.issue r.ctx now id))
  | .void id => .invoice (serve (InvoiceService.void r.ctx id))
where
  serve {α : Type} (p : Call α) : Except Failure α := (p.serve (engine S) r.queueUp db).answer

namespace Tenancy

/-- The company of the call: the one of the admin, or of the invite that the code
finds. -/
def InviteCall.company (sha256Hex : String → String) (db : Db) : InviteCall → Option Id
  | generate _ ctx _ _ _ _ _ _ | revoke _ ctx _ _ _ _ | updateTenant _ ctx _ _ =>
    some ctx.companyId
  | peek _ code | redeem _ _ _ code _ =>
    (db.inviteByCode? none (TenantInviteService.codePrefixOf code) (sha256Hex code)).map
      TenantInvite.companyId

def InviteCall.Drawn (home : Id → Id) (c : Id) : InviteCall → Prop
  | generate row _ newId auditId _ _ _ actorUserId =>
    (Row.auditLog row).Own home c ∧ home newId = c ∧ home auditId = c ∧ home actorUserId = c
  | revoke row _ auditId _ _ actorUserId =>
    (Row.auditLog row).Own home c ∧ home auditId = c ∧ home actorUserId = c
  | updateTenant row _ _ _ => (Row.auditLog row).Own home c
  | redeem auditId _ _ _ _ => home auditId = c
  | peek _ _ => True

end Tenancy

namespace Premises

/-- The company that the call is made in. -/
def Request.company (s : Dorm) : Request → Option Id
  | premises _ ctx _ | leasing ctx _ => some ctx.companyId
  | invoicing r _ => some r.ctx.companyId
  | billing r => some r.ctx.companyId
  | invites sha256Hex call => call.company sha256Hex s.tenancy

def Request.Drawn (home : Id → Id) (c : Id) : Request → Prop
  | premises _ _ call => call.Drawn home c
  | leasing _ call => call.Drawn home c
  | invoicing r _ => r.call.Drawn home c
  | billing r => r.call.Drawn home c
  | invites _ call => call.Drawn home c

def Request.answer (S : Server) (s : Dorm) : Request → Reply
  | premises P ctx call => call.answer S P ctx s
  | leasing ctx call => call.answer S ctx s.leased
  | invoicing r _ => r.answer S s.db
  | billing r => r.answer S s.db
  | invites sha256Hex call =>
    .invite (((call.script sha256Hex).serve (Tenancy.engine S) (fun _ => true) 2 s.tenancy).map
      Prod.fst)

/-- The calls of the company among those of all, in their order. -/
def heard (S : Server) (c : Id) : Dorm → List Request → List Request
  | _, [] => []
  | s, r :: rs =>
    if r.company s = some c then r :: heard S c (r.commit S s) rs else heard S c (r.commit S s) rs

/-- What the company's calls are told, in the run of all calls. -/
def told (S : Server) (c : Id) : Dorm → List Request → List Reply
  | _, [] => []
  | s, r :: rs =>
    if r.company s = some c then r.answer S s :: told S c (r.commit S s) rs
    else told S c (r.commit S s) rs

/-- What all calls of a run are told. -/
def answers (S : Server) : Dorm → List Request → List Reply
  | _, [] => []
  | s, r :: rs => r.answer S s :: answers S (r.commit S s) rs

end Premises

/-! ## One call -/

section calls
variable {home : Id → Id} {S : Server} {ctx : Ctx}

theorem Premises.PremisesCall.stays {P : Pgcrypto} {s : Dorm} (housed : s.Housed home)
    {call : PremisesCall} (drawn : call.Drawn home ctx.companyId) :
    Local (Dorm.Housed home) Dorm.part ctx.companyId (fun s => call.answer S P ctx s)
      (fun s => call.commit S P ctx s) s := by
  have serve {α : Type} {p : Prog premises α}
      (own : Own home S P ctx.companyId (fun _ => True) p) (make : Except Failure α → Reply) :=
    Prog.serve_local (premises_confined home S P _) (premises_inside home S P _)
      (fun _ => premises_outside home S P) housed (fun _ => true) own make
  cases call with
  | createProperty newId input => exact serve (PropertyService.create_own drawn) .property
  | updateProperty id input => exact serve (PropertyService.update_own id input) .property
  | createUnit newId input => exact serve (UnitService.create_own drawn) .unit
  | updateUnit id input => exact serve (UnitService.update_own id input) .unit
  | createTenant newId input => exact serve (TenantService.create_own drawn) .tenant
  | updateTenant id input => exact serve (TenantService.update_own id input) .tenant
  | registerSlip head newId paymentId input => exact serve (SlipService.register_own drawn) .slip
  | updateInvoice id input => exact serve (InvoiceService.update_own id input) .invoice

theorem Leasing.LeasingCall.stays {e : Estate} (housed : e.Housed home) {call : LeasingCall}
    (drawn : call.Drawn home ctx.companyId) :
    Local (Estate.Housed home) Estate.part ctx.companyId (fun e => call.answer S ctx e)
      (fun e => call.commit S ctx e) e := by
  have serve {α : Type} {p : Prog leasing α} (own : Own home S ctx.companyId (fun _ => True) p)
      (make : Except Failure α → Reply) :=
    Prog.serve_local (leasing_confined home S _) (leasing_inside home S _)
      (fun _ => leasing_outside home S) housed (fun _ => true) own make
  cases call with
  | createContract newId input => exact serve (ContractService.create_own drawn) .contract
  | updateContract id input => exact serve (ContractService.update_own id input) .contract
  | createMeter newId input => exact serve (MeterService.create_own drawn) .meter
  | updateMeter id input => exact serve (MeterService.update_own id input) .meter
  | createReading newId now input => exact serve (ReadingService.create_own drawn) .reading
  | updateReading id input => exact serve (ReadingService.update_own id input) .reading

theorem billing_stays {α : Type} {db : Db} {c : Id} (housed : db.Housed home)
    (queueUp : Nat → Bool) {p : Call α} (own : p.Own home S c fun _ => True)
    (make : Except Failure α → Reply) :
    Local (Db.Housed home) Db.part c (fun db => make (p.serve (engine S) queueUp db).answer)
      (fun db => (p.serve (engine S) queueUp db).commit (engine S) db) db :=
  Prog.serve_local (billing_confined home S c) (billing_inside home S c)
    (fun _ => billing_outside home S) housed queueUp own make

theorem InvoicingRequest.stays {db : Db} (housed : db.Housed home) {r : InvoicingRequest}
    (drawn : r.call.Drawn home r.ctx.companyId) :
    Local (Db.Housed home) Db.part r.ctx.companyId (fun db => r.answer S db)
      (fun db => r.commit S db) db := by
  obtain ⟨ctx, queueUp, call⟩ := r
  cases call with
  | create newId now input =>
    exact billing_stays housed queueUp (InvoiceService.create_own drawn.1 drawn.2) .invoice
  | createBatch newId now input =>
    exact billing_stays housed queueUp (InvoiceService.createBatch_own drawn) .batch
  | issue now id => exact billing_stays housed queueUp (InvoiceService.issue_own now id) .invoice
  | void id => exact billing_stays housed queueUp (InvoiceService.void_own id) .invoice

theorem Request.stays {db : Db} (housed : db.Housed home) {r : Request}
    (drawn : r.call.Drawn home r.ctx.companyId) :
    Local (Db.Housed home) Db.part r.ctx.companyId (fun db => r.answer S db)
      (fun db => r.commit S db) db := by
  obtain ⟨ctx, queueUp, call⟩ := r
  cases call with
  | create newId input key =>
    exact billing_stays housed queueUp (PaymentService.createPayment_own drawn) .payment
  | createForTenant newId input key tenantId =>
    exact billing_stays housed queueUp (PaymentService.createForTenant_own drawn) .payment
  | confirm now id user =>
    exact billing_stays housed queueUp (PaymentService.confirm_own drawn) .payment
  | reject id reason =>
    exact billing_stays housed queueUp (PaymentService.reject_own id reason) .payment
  | issue now id => exact billing_stays housed queueUp (InvoiceService.issue_own now id) .invoice
  | void id => exact billing_stays housed queueUp (InvoiceService.void_own id) .invoice

namespace Tenancy
variable {sha256Hex : String → String} {db : Db} {c : Id}

/-- Of the invites under a code, the first one of all is the first one of its
company. -/
theorem inviteByCode?_part {codePrefix codeHash : String} {i : TenantInvite}
    (found : db.inviteByCode? none codePrefix codeHash = some i) (mine : i.companyId = c) :
    (db.part c).inviteByCode? none codePrefix codeHash = some i := by
  simp only [Db.inviteByCode?, Db.part, Table.shard, List.find?_filter] at found ⊢
  obtain ⟨holds, before, after, split, none⟩ := List.find?_eq_some_iff_append.mp found
  refine List.find?_eq_some_iff_append.mpr ⟨?_, before, after, split, fun x hx => ?_⟩
  · simpa [mine] using holds
  · have missed := none x hx
    simp only [Bool.not_eq_true', decide_eq_false_iff_not] at missed ⊢
    exact fun holds => missed (of_decide_eq_true holds.2)

theorem inviteByCode?_some {codePrefix codeHash : String} {i : TenantInvite}
    (housed : db.Housed home) (found : db.inviteByCode? none codePrefix codeHash = some i) :
    (Row.invite i).Own home i.companyId := by
  have mem := List.mem_of_find?_eq_some found
  exact ⟨rfl, housed.invites.keys i mem, housed.invites.rows i mem⟩

/-- What a lookup by code finds, it finds among the rows of its company. -/
theorem run_lookup {codePrefix codeHash : String} {i : TenantInvite} (housed : db.Housed home)
    (found : db.inviteByCode? none codePrefix codeHash = some i) (mine : i.companyId = c) :
    run S none (db.part c) (.invitePreview codePrefix codeHash) =
        run S none db (.invitePreview codePrefix codeHash) ∧
      run S none (db.part c) (.inviteFindFirst codePrefix codeHash) =
        run S none db (.inviteFindFirst codePrefix codeHash) := by
  obtain ⟨-, -, tenantHere, -⟩ := inviteByCode?_some housed found
  rw [mine] at tenantHere
  have tenant : (db.part c).tenants.find? i.tenantId = db.tenants.find? i.tenantId :=
    housed.tenants.find? tenantHere
  have company : (db.part c).companies.find? i.companyId = db.companies.find? i.companyId := by
    refine Table.find?_shard.trans ?_
    cases stored : db.companies.find? i.companyId with
    | none => rfl
    | some company =>
      have same : company.id = i.companyId := Table.find?_key stored
      simp [same, mine]
  simp only [run, inviteByCode?_part found mine, found, Option.bind_some, tenant, company, and_true]
  cases stored : db.tenants.find? i.tenantId with
  | none => rfl
  | some t =>
    have same : t.id = i.tenantId := Table.find?_key stored
    simp only [Option.map_some, same, housed.latestRoom tenantHere]

theorem preview_found {codePrefix codeHash : String} {i : TenantInvite} (housed : db.Housed home)
    (found : db.inviteByCode? none codePrefix codeHash = some i) (mine : i.companyId = c) :
    ∃ a, run S none db (.invitePreview codePrefix codeHash) = .ok ([], a) ∧
      run S none (db.part c) (.invitePreview codePrefix codeHash) = .ok ([], a) ∧
      ∀ f ∈ a, f.1.companyId = c := by
  refine ⟨_, rfl, (run_lookup housed found mine).1, fun f hf => ?_⟩
  obtain ⟨i', found', hf⟩ := Option.bind_eq_some_iff.mp hf
  obtain ⟨t, -, rfl⟩ := Option.map_eq_some_iff.mp hf
  obtain rfl := Option.some.inj (found.symm.trans found')
  exact mine

theorem first_found {codePrefix codeHash : String} {i : TenantInvite} (housed : db.Housed home)
    (found : db.inviteByCode? none codePrefix codeHash = some i) (mine : i.companyId = c) :
    ∃ a, run S none db (.inviteFindFirst codePrefix codeHash) = .ok ([], a) ∧
      run S none (db.part c) (.inviteFindFirst codePrefix codeHash) = .ok ([], a) ∧
      ∀ f ∈ a, f.1.companyId = c := by
  refine ⟨_, rfl, (run_lookup housed found mine).2, fun f hf => ?_⟩
  obtain ⟨i', found', hf⟩ := Option.bind_eq_some_iff.mp hf
  obtain ⟨company, -, rfl⟩ := Option.map_eq_some_iff.mp hf
  obtain rfl := Option.some.inj (found.symm.trans found')
  exact mine

variable {call : InviteCall} {queueUp : Nat → Bool}

theorem InviteCall.company_part (mine : call.company sha256Hex db = some c) :
    call.company sha256Hex (db.part c) = some c := by
  cases call with
  | generate | revoke | updateTenant => exact mine
  | peek | redeem =>
    obtain ⟨i, found, own⟩ := Option.map_eq_some_iff.mp mine
    simp only [company, inviteByCode?_part found own, Option.map_some, own]

/-- A code that somebody of the company has is not nobody's. -/
theorem InviteCall.company_whole {d : Id} (mine : call.company sha256Hex (db.part c) = some d) :
    call.company sha256Hex db ≠ none := by
  cases call with
  | generate | revoke | updateTenant => exact fun missing => nomatch missing
  | peek | redeem =>
    intro missing
    obtain ⟨i, found, -⟩ := Option.map_eq_some_iff.mp mine
    have stored : i ∈ db.invites.rows := (Table.mem_shard.mp (List.mem_of_find?_eq_some found)).1
    have none := List.find?_eq_none.mp (Option.map_eq_none_iff.mp missing) i stored
    exact none (by simpa only [Db.inviteByCode?] using List.find?_some (l := _) found)

/-- A call of the company is the rest of a script that is confined to the company,
after what it has looked up the same in both. -/
theorem InviteCall.confined (queueUp : Nat → Bool) (housed : db.Housed home)
    (mine : call.company sha256Hex db = some c) (drawn : call.Drawn home c) :
    ∃ s n, Script.Asks (engine S) (Db.Housed home) (Statement.Own home c) n s ∧
      (call.script sha256Hex).serve (engine S) queueUp 2 db = s.serve (engine S) queueUp n db ∧
      (call.script sha256Hex).serve (engine S) queueUp 2 (db.part c) =
        s.serve (engine S) queueUp n (db.part c) := by
  cases call with
  | generate row ctx newId auditId now plaintext tenantId actorUserId =>
    obtain rfl : ctx.companyId = c := Option.some.inj mine
    obtain ⟨audit, drawn, log, actor⟩ := drawn
    exact ⟨_, 2, request_own audit (TenantInviteService.generate_own drawn log actor), rfl, rfl⟩
  | revoke row ctx auditId inviteId reason actorUserId =>
    obtain rfl : ctx.companyId = c := Option.some.inj mine
    obtain ⟨audit, log, actor⟩ := drawn
    exact ⟨_, 2, request_own audit (TenantInviteService.revoke_own log actor), rfl, rfl⟩
  | updateTenant row ctx id input =>
    obtain rfl : ctx.companyId = c := Option.some.inj mine
    exact ⟨_, 2, request_own drawn TenantService.update_own, rfl, rfl⟩
  | peek now code =>
    obtain ⟨i, found, own⟩ := Option.map_eq_some_iff.mp mine
    obtain ⟨a, here, there, theirs⟩ := preview_found (S := S) housed found own
    refine ⟨_, 1, TenantInviteService.peekFound_own now (n := 0) theirs, ?_, ?_⟩
    · rw [script, TenantInviteService.peek_eq]
      exact Script.serve_lookup queueUp (σ := tenancy) (q := ⟨none, _⟩) here
    · rw [script, TenantInviteService.peek_eq]
      exact Script.serve_lookup queueUp (σ := tenancy) (q := ⟨none, _⟩) there
  | redeem auditId now now' code lineUserId =>
    obtain ⟨i, found, own⟩ := Option.map_eq_some_iff.mp mine
    obtain ⟨a, here, there, theirs⟩ := first_found (S := S) housed found own
    refine ⟨_, 1, TenantInviteService.redeemLookup_own now now' lineUserId (n := 0) theirs
      drawn, ?_, ?_⟩
    · rw [script, TenantInviteService.redeem_eq]
      exact Script.serve_lookup queueUp (σ := tenancy) (q := ⟨none, _⟩) here
    · rw [script, TenantInviteService.redeem_eq]
      exact Script.serve_lookup queueUp (σ := tenancy) (q := ⟨none, _⟩) there

/-- A code that nobody has is told so, and nothing happens. -/
theorem InviteCall.nobody (nobody : call.company sha256Hex db = none) :
    (call.script sha256Hex).serve (engine S) queueUp 2 db =
      some (.error TenantInviteService.tenantInviteNotFound, db) := by
  cases call with
  | generate | revoke | updateTenant => cases nobody
  | peek now code =>
    have missing := Option.map_eq_none_iff.mp nobody
    have ran : run S none db (.invitePreview (TenantInviteService.codePrefixOf code)
        (sha256Hex code)) = .ok ([], none) := by
      simp only [run, missing, Option.bind_none]
    rw [script, TenantInviteService.peek_eq]
    exact Script.serve_lookup (E := engine S) queueUp (σ := tenancy)
      (q := ⟨none, .invitePreview _ _⟩)
      ran
  | redeem auditId now now' code lineUserId =>
    have missing := Option.map_eq_none_iff.mp nobody
    have ran : run S none db (.inviteFindFirst (TenantInviteService.codePrefixOf code)
        (sha256Hex code)) = .ok ([], none) := by
      simp only [run, missing, Option.bind_none]
    rw [script, TenantInviteService.redeem_eq]
    exact Script.serve_lookup (E := engine S) queueUp (σ := tenancy)
      (q := ⟨none, .inviteFindFirst _ _⟩)
      ran

end Tenancy
end calls

namespace Premises
variable {home : Id → Id} {S : Server} {c d : Id} {s : Dorm}

namespace Dorm
open Table

@[simp] theorem part_part : (s.part c).part c = s.part c := by
  simp only [Dorm.part, Leasing.Estate.part, Db.part, shard_shard, shard_default]

theorem Housed.part (housed : s.Housed home) (c : Id) : (s.part c).Housed home where
  properties := housed.properties.part c
  units := housed.units.part c
  tenants := housed.tenants.part c
  slips := housed.slips.part c
  invites := housed.invites.part c
  estate :=
    { contracts := housed.estate.contracts.part c
      meters := housed.estate.meters.part c
      readings := housed.estate.readings.part c
      books :=
        { users := housed.estate.books.users.part c
          tenants := housed_default
          units := housed_default
          contracts := housed_default
          meters := housed_default
          readings := housed_default
          invoices := housed.estate.books.invoices.part c
          payments := housed.estate.books.payments.part c
          announcements := housed.estate.books.announcements.part c
          auditLogs := housed.estate.books.auditLogs.part c } }

/-! Leasing and billing put their own tables back. -/

theorem lease_part {e e' : Leasing.Estate} (same : e'.part c = e.part c)
    (reads : e.part c = s.leased.part c) : ({ s with estate := e' } : Dorm).part c = s.part c := by
  have estate := same.trans reads
  simp only [Dorm.part]
  rw [estate]
  rfl

theorem bill_part {books : Db} (same : books.part c = s.db.part c) :
    ({ s with estate := { s.estate with books := books } } : Dorm).part c = s.part c := by
  simp only [Dorm.part, Leasing.Estate.part, same]
  rfl

/-! ## Tenants and invites -/

theorem tenancy_part : (s.part c).tenancy = s.tenancy.part c := by
  have tenants : s.tenancy.tenants.shard (fun t => t.companyId) c =
      (s.part c).tenancy.tenants :=
    shard_map (fun t : TenantRow => t.toTenantProfile) (fun _ => rfl) fun _ => rfl
  have properties : s.tenancy.properties.shard Property.companyId c =
      (s.part c).tenancy.properties :=
    shard_map (fun p : PropertyRow => p.toProperty) (fun _ => rfl) fun _ => rfl
  have units : s.tenancy.units.shard DormUnit.companyId c =
      (s.part c).tenancy.units := shard_map _ UnitRow.toDormUnit_key fun _ => rfl
  have leases : s.tenancy.leases.shard (fun k => k.companyId) c =
      (s.part c).tenancy.leases :=
    shard_map (fun k : ContractRow => (⟨k.toContract, k.startDate⟩ : Lease)) (fun _ => rfl)
      fun _ => rfl
  simp only [Tenancy.Db.part, tenants, properties, units, leases]
  rfl

theorem Housed.tenancy (housed : s.Housed home) : s.tenancy.Housed home where
  users := housed.estate.books.users
  tenants := housed.tenants.map (fun t => t.toTenantProfile) (fun _ => rfl) (fun _ => rfl)
    fun _ _ => trivial
  properties := housed.properties.map (fun p => p.toProperty) (fun _ => rfl) (fun _ => rfl)
    fun _ _ => trivial
  units := housed.units.map UnitRow.toDormUnit UnitRow.toDormUnit_key (fun _ => rfl)
    fun _ refers => refers
  leases := housed.estate.contracts.map (fun k => (⟨k.toContract, k.startDate⟩ : Lease))
    (fun _ => rfl) (fun _ => rfl) fun _ refers => refers
  invites := housed.invites
  auditLogs := housed.estate.books.auditLogs

variable {db : Tenancy.Db} (housed : s.Housed home) (after : db.Housed home)
include housed after

/-- A tenant's profile stays with the tenant's company. -/
theorem settled_companyId {t : TenantRow} (stored : t ∈ s.tenants.rows) :
    (TenantRow.settled db t).companyId = t.companyId := by
  unfold TenantRow.settled
  split
  · rename_i profile found
    have here := after.tenants.keys profile (find?_mem found)
    rw [find?_key found] at here
    exact here.symm.trans (housed.tenants.keys t stored)
  · rfl

theorem Housed.settle : (s.settle db).Housed home := by
  refine { housed with
    tenants := ⟨fun t ht => ?_, fun _ _ => trivial⟩
    invites := after.invites
    estate := { housed.estate with
      books := { housed.estate.books with auditLogs := after.auditLogs } } }
  obtain ⟨row, stored, rfl⟩ := List.mem_map.mp ht
  rw [settled_companyId housed after stored]
  exact (congrArg home (TenantRow.settled_key db row)).trans (housed.tenants.keys row stored)

/-- The tenants of a company are settled from the company's profiles. -/
theorem settle_tenants {db' : Tenancy.Db}
    (same : ∀ t ∈ s.tenants.rows, t.companyId = c →
      TenantRow.settled db t = TenantRow.settled db' t) :
    (s.settle db).tenants.shard (fun t => t.companyId) c =
      (s.tenants.shard (fun t => t.companyId) c).map (TenantRow.settled db')
        (TenantRow.settled_key db') := by
  apply ext_rows
  simp only [settle, Table.shard, Table.map, List.filter_map]
  have owns : ∀ t ∈ s.tenants.rows, ((fun t : TenantRow => decide (t.companyId = c)) ∘
      TenantRow.settled db) t = decide (t.companyId = c) := by
    intro t ht
    simp only [Function.comp_apply, settled_companyId housed after ht]
  rw [List.filter_congr owns]
  apply List.map_congr_left
  intro t ht
  obtain ⟨stored, mine⟩ := List.mem_filter.mp ht
  exact same t stored (of_decide_eq_true mine)

theorem settle_part : (s.settle db).part c = ((s.part c).settle (db.part c)).part c := by
  have tenants : (s.settle db).tenants.shard (fun t => t.companyId) c =
      ((s.part c).settle (db.part c)).tenants := by
    apply settle_tenants housed after
    intro t stored mine
    have same : (db.part c).tenants.find? t.id = db.tenants.find? t.id :=
      after.tenants.find? ((housed.tenants.keys t stored).trans mine)
    simp only [TenantRow.settled, same]
  have again : ((s.part c).settle (db.part c)).tenants.shard (fun t => t.companyId) c =
      ((s.part c).settle (db.part c)).tenants := by
    rw [← tenants, shard_shard]
  have rest : ∀ x : Dorm, x.part c = { x.part c with
      tenants := x.tenants.shard (fun t => t.companyId) c } := fun _ => rfl
  rw [rest, tenants, rest ((s.part c).settle (db.part c)), again]
  simp only [settle, Dorm.part, Leasing.Estate.part, Db.part, Tenancy.Db.part, shard_shard,
    shard_default]

theorem settle_other (same : db.part c = s.tenancy.part c) : (s.settle db).part c = s.part c := by
  have profiles : ∀ t ∈ s.tenants.rows, t.companyId = c →
      db.tenants.find? t.id = some t.toTenantProfile := by
    intro t stored mine
    have here : home t.id = c := (housed.tenants.keys t stored).trans mine
    have known : s.tenancy.tenants.find? t.id = some t.toTenantProfile :=
      find?_of_mem (t := s.tenancy.tenants) (List.mem_map_of_mem stored)
    rw [← after.tenants.find? here, ← known, ← housed.tenancy.tenants.find? here]
    exact congrArg (fun d => d.tenants.find? t.id) same
  have tenants : (s.settle db).tenants.shard (fun t => t.companyId) c =
      s.tenants.shard (fun t => t.companyId) c := by
    refine (settle_tenants housed after fun t stored mine => rfl).trans (ext_rows ?_)
    refine (List.map_congr_left (g := id) fun t ht => ?_).trans (List.map_id _)
    obtain ⟨stored, mine⟩ := mem_shard.mp ht
    simp only [TenantRow.settled, profiles t stored mine, id]
  have invites : db.invites.shard TenantInvite.companyId c =
      s.invites.shard TenantInvite.companyId c := congrArg Tenancy.Db.invites same
  have auditLogs : db.auditLogs.shard AuditLog.companyId c =
      s.estate.books.auditLogs.shard AuditLog.companyId c := congrArg Tenancy.Db.auditLogs same
  have rest : ∀ x : Dorm, x.part c = { x.part c with
      tenants := x.tenants.shard (fun t => t.companyId) c } := fun _ => rfl
  rw [rest, tenants, rest s]
  simp only [settle, Dorm.part, Leasing.Estate.part, Db.part, invites, auditLogs]

end Dorm

/-- Nothing but the rows of the company. -/
def Dorm.Alone (c : Id) (s : Dorm) : Prop := ∀ d, c ≠ d → s.part d = {}

theorem Dorm.part_alone : (s.part c).Alone c := by
  intro d apart
  simp only [Dorm.part, Leasing.Estate.part, Db.part, Table.shard_shard_ne apart,
    Table.shard_default]

namespace Request
variable {r : Request}

theorem company_part (mine : r.company s = some c) : r.company (s.part c) = some c := by
  cases r with
  | premises | leasing | invoicing | billing => exact mine
  | invites sha256Hex call =>
    change call.company sha256Hex (s.part c).tenancy = some c
    rw [Dorm.tenancy_part]
    exact Tenancy.InviteCall.company_part mine

theorem company_whole (mine : r.company (s.part c) = some d) : r.company s ≠ none := by
  cases r with
  | premises | leasing | invoicing | billing => exact fun missing => nomatch missing
  | invites sha256Hex call =>
    change call.company sha256Hex (s.part c).tenancy = some d at mine
    rw [Dorm.tenancy_part] at mine
    exact Tenancy.InviteCall.company_whole mine

/-- The call of a company does the same among the company's rows as among all rows,
and nothing outside them. -/
structure Stays (home : Id → Id) (S : Server) (c : Id) (s : Dorm) (r : Request) : Prop where
  answer : r.answer S (s.part c) = r.answer S s
  inside : (r.commit S (s.part c)).part c = (r.commit S s).part c
  keeps : (r.commit S s).Housed home
  outside : ∀ d, c ≠ d → (r.commit S s).part d = s.part d

/-- A call that leaves its books. -/
theorem books_stay {answer : Db → Reply} {commit : Db → Db} (housed : s.Housed home)
    (stays : Local (Db.Housed home) Db.part c answer commit s.db)
    (told : ∀ s, r.answer S s = answer s.db)
    (left : ∀ s, r.commit S s =
      { s with estate := { s.estate with books := commit s.db } }) : r.Stays home S c s where
  answer := by rw [told, told, Dorm.db_part, stays.answer]
  inside := by
    rw [left, left, Dorm.db_part, stays.inside]
    simp only [Dorm.part, Leasing.Estate.part, Db.part, Table.shard_shard]
  keeps := by
    rw [left]
    exact { housed with estate := { housed.estate with books := stays.keeps } }
  outside := by
    intro d apart
    rw [left]
    exact Dorm.bill_part (stays.outside d apart)

theorem invites_stay {sha256Hex : String → String} {call : Tenancy.InviteCall}
    (housed : s.Housed home) (mine : call.company sha256Hex s.tenancy = some c)
    (drawn : call.Drawn home c) : (Request.invites sha256Hex call).Stays home S c s := by
  obtain ⟨script, n, asks, here, there⟩ := Tenancy.InviteCall.confined (S := S)
    (fun _ => true) housed.tenancy mine drawn
  rw [Script.serve_within (Tenancy.tenancy_confined home S c) _
    (Tenancy.tenancy_inside home S c) asks housed.tenancy, ← here] at there
  obtain ⟨reply, d, ends⟩ := call.endsIn S sha256Hex (fun _ => true) s.tenancy
  rw [ends, Option.map_some] at there
  have left : (Request.invites sha256Hex call).commit S s = s.settle d := by
    simp only [commit, ends]
  have within : (Request.invites sha256Hex call).commit S (s.part c) =
      (s.part c).settle (d.part c) := by
    simp only [commit, Dorm.tenancy_part, there]
  obtain ⟨after, alone⟩ := Script.serve_confined (Tenancy.tenancy_confined home S c) _ asks
    housed.tenancy (here.symm.trans ends)
  constructor
  · simp only [answer, Dorm.tenancy_part, there, ends, Option.map_some]
  · rw [left, within]
    exact (Dorm.settle_part housed after).symm
  · rw [left]
    exact housed.settle after
  · intro d' apart
    rw [left]
    exact Dorm.settle_other housed after (alone _ (Tenancy.tenancy_outside home S apart))

/-- **A call stays in its company.** -/
theorem stays (housed : s.Housed home) (mine : r.company s = some c) (drawn : r.Drawn home c) :
    r.Stays home S c s := by
  cases r with
  | premises P ctx call =>
    cases mine
    have stays := call.stays (S := S) (P := P) housed drawn
    exact ⟨stays.answer, (congrArg (Dorm.part _) stays.inside).trans Dorm.part_part, stays.keeps,
      stays.outside⟩
  | leasing ctx call =>
    cases mine
    have stays := call.stays (S := S) housed.leased drawn
    constructor
    · simp only [answer, Dorm.leased_part, stays.answer]
    · simp only [commit, Dorm.leased_part, stays.inside]
      simp only [Dorm.part, Leasing.Estate.part, Db.part, Table.shard_shard, Table.shard_default]
    · exact { housed with estate := stays.keeps }
    · exact fun d apart => Dorm.lease_part (stays.outside d apart) rfl
  | invoicing r accepted =>
    cases mine
    exact books_stay housed (r.stays housed.db drawn) (fun _ => rfl) fun _ => rfl
  | billing r =>
    cases mine
    exact books_stay housed (r.stays housed.db drawn) (fun _ => rfl) fun _ => rfl
  | invites sha256Hex call => exact invites_stay housed mine drawn

/-- A call with a code that nobody has changes nothing. -/
theorem nobody (housed : s.Housed home) (nobody : r.company s = none) :
    (r.commit S s).Housed home ∧ ∀ d, (r.commit S s).part d = s.part d := by
  cases r with
  | premises | leasing | invoicing | billing => cases nobody
  | invites sha256Hex call =>
    have left : (Request.invites sha256Hex call).commit S s = s.settle s.tenancy := by
      simp only [commit, Tenancy.InviteCall.nobody nobody]
    rw [left]
    exact ⟨housed.settle housed.tenancy, fun d => Dorm.settle_other housed housed.tenancy rfl⟩

/-- Alone with its rows, the company makes the same calls. -/
theorem company_alone {u : Dorm} (same : s.part c = u.part c) (alone : u.Alone c)
    (mine : r.company s = some c) : r.company u = some c := by
  have inside : r.company (u.part c) = some c := same ▸ company_part mine
  cases r with
  | premises | leasing | invoicing | billing => exact inside
  | invites sha256Hex call =>
    cases call with
    | generate | revoke | updateTenant => exact inside
    | peek | redeem =>
      cases whole : Request.company u (invites sha256Hex _) with
      | none =>
        exact absurd whole (company_whole inside)
      | some d =>
        by_cases here : c = d
        · rw [here]
        -- Nobody else has an invite.
        · have theirs := company_part whole
          rw [alone d here] at theirs
          exact nomatch theirs

end Request

/-! ## All calls -/

/-- **Companies do not notice each other.** In any sequence of calls of all
companies, a company is told what its own calls alone, on its own rows alone, would
have told it, and is left the rows that they would have left. -/
theorem companies_isolated (home : Id → Id) (S : Server) (c : Id) (s : Dorm)
    (start : s.Housed home) (rs : List Request)
    (drawn : Throughout (Request.commit S) (fun s r => ∀ c ∈ r.company s, r.Drawn home c) s rs) :
    told S c s rs = answers S (s.part c) (heard S c s rs) ∧
      (rs.foldl (Request.commit S) s).part c =
        ((heard S c s rs).foldl (Request.commit S) (s.part c)).part c := by
  suffices ∀ u : Dorm, u.Housed home → u.Alone c → s.part c = u.part c →
      told S c s rs = answers S u (heard S c s rs) ∧
        (rs.foldl (Request.commit S) s).part c =
          ((heard S c s rs).foldl (Request.commit S) u).part c from
    this (s.part c) (start.part c) Dorm.part_alone Dorm.part_part.symm
  induction rs generalizing s with
  | nil => exact fun u _ _ same => ⟨rfl, same⟩
  | cons r rs ih =>
    intro u housed alone same
    obtain ⟨here, rest⟩ := drawn
    by_cases mine : r.company s = some c
    · have stays := Request.stays (S := S) start mine (here c mine)
      have own := Request.company_alone same alone mine
      have stays' := Request.stays (S := S) housed own (here c mine)
      have answered : r.answer S s = r.answer S u := by
        rw [← stays.answer, same, stays'.answer]
      have left : (r.commit S s).part c = (r.commit S u).part c := by
        rw [← stays.inside, same, stays'.inside]
      obtain ⟨replies, state⟩ := ih (r.commit S s) stays.keeps rest (r.commit S u) stays'.keeps
        (fun d apart => (stays'.outside d apart).trans (alone d apart)) left
      simp only [told, heard, if_pos mine, answers, answered, replies, List.foldl_cons, state,
        and_self]
    · have elsewhere : (r.commit S s).Housed home ∧ (r.commit S s).part c = s.part c := by
        cases whose : r.company s with
        | none =>
          obtain ⟨kept, unchanged⟩ := Request.nobody (S := S) start whose
          exact ⟨kept, unchanged c⟩
        | some d =>
          have stays := Request.stays (S := S) start whose (here d whose)
          exact ⟨stays.keeps, stays.outside c fun same => mine (same ▸ whose)⟩
      obtain ⟨replies, state⟩ := ih (r.commit S s) elsewhere.1 rest u housed alone
        (elsewhere.2.trans same)
      simp only [told, heard, if_neg mine, replies, List.foldl_cons, state, and_self]

theorem Demo.empty_housed (home : Id → Id) : ({} : Dorm).Housed home where
  properties := Table.housed_default
  units := Table.housed_default
  tenants := Table.housed_default
  slips := Table.housed_default
  invites := Table.housed_default
  estate :=
    { contracts := Table.housed_default
      meters := Table.housed_default
      readings := Table.housed_default
      books := by constructor <;> exact Table.housed_default }

open Dormitory.Demo in
/-- Two companies open. -/
theorem companies_isolated_two :
    told server 1 {} (Demo.opens 2 200 ++ Demo.opens 1 100) =
        answers server (({} : Dorm).part 1)
          (heard server 1 {} (Demo.opens 2 200 ++ Demo.opens 1 100)) ∧
      ((Demo.opens 2 200 ++ Demo.opens 1 100).foldl (Request.commit server) {}).part 1 =
        ((heard server 1 {} (Demo.opens 2 200 ++ Demo.opens 1 100)).foldl
          (Request.commit server) (({} : Dorm).part 1)).part 1 := by
  refine companies_isolated (fun id => if id < 200 then 1 else 2) server 1 {}
    (Demo.empty_housed _) _ ⟨?_, ?_, ?_, ?_, ?_, ?_, ?_, ?_, trivial⟩
  all_goals
    rintro c ⟨⟩
    rfl

end Premises
end Dormitory
