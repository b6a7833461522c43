import Dormitory.AnnouncementService
import Dormitory.Interceptors
import Dormitory.OwnBooks
import Dormitory.Shards
import Dormitory.Txn.Parts

/-!
# The books of one company

The rows of one company in the tables of billing, and that the statements and the
calls of its requests stay among them. `home` tells the company that draws an id:
no id is drawn by two.
-/

namespace Dormitory
open Txn

section references
variable (home : Id → Id)

/-! What the rows refer to is drawn by their company. -/

def DormUnit.Refers (u : DormUnit) : Prop := home u.propertyId = u.companyId

def Contract.Refers (k : Contract) : Prop :=
  home k.unitId = k.companyId ∧ home k.tenantId = k.companyId

def Meter.Refers (m : Meter) : Prop := home m.unitId = m.companyId

def Reading.Refers (r : Reading) : Prop := home r.meterId = r.companyId

structure Invoice.Refers (i : Invoice) : Prop where
  contract : home i.contractId = i.companyId
  unit : home i.unitId = i.companyId
  tenant : home i.tenantId = i.companyId
  items : ∀ it ∈ i.items, ∀ readingId ∈ it.readingId, home readingId = i.companyId

structure Payment.Refers (p : Payment) : Prop where
  invoice : home p.invoiceId = p.companyId
  tenant : home p.tenantId = p.companyId
  user : ∀ u ∈ p.confirmedByUserId, home u = p.companyId

def Announcement.Refers (a : Announcement) : Prop := home a.createdByUserId = a.companyId

def AuditLog.Refers (a : AuditLog) : Prop := ∀ u ∈ a.actorUserId, home u = a.companyId

/-- Every row's key and all that it refers to are drawn by its company. -/
structure Db.Housed (db : Db) : Prop where
  users : db.users.Housed home User.companyId fun _ => True
  tenants : db.tenants.Housed home Tenant.companyId fun _ => True
  units : db.units.Housed home DormUnit.companyId (DormUnit.Refers home)
  contracts : db.contracts.Housed home Contract.companyId (Contract.Refers home)
  meters : db.meters.Housed home Meter.companyId (Meter.Refers home)
  readings : db.readings.Housed home Reading.companyId (Reading.Refers home)
  invoices : db.invoices.Housed home Invoice.companyId (Invoice.Refers home)
  payments : db.payments.Housed home Payment.companyId (Payment.Refers home)
  announcements :
    db.announcements.Housed home Announcement.companyId (Announcement.Refers home)
  auditLogs : db.auditLogs.Housed home AuditLog.companyId (AuditLog.Refers home)

/-- A stored row of the company. -/
def Row.Own (c : Id) : Row → Prop
  | invoice r => r.companyId = c ∧ home r.id = c ∧ r.Refers home
  | payment r => r.companyId = c ∧ home r.id = c ∧ r.Refers home
  | announcement r => r.companyId = c ∧ home r.id = c ∧ r.Refers home
  | auditLog r => r.companyId = c ∧ home r.id = c ∧ r.Refers home

/-- The data of an insert are of the company, and so is the user that an update
names. -/
def Query.Own (c : Id) : Query → Prop
  | invoiceCreate d => d.companyId = c ∧ home d.id = c ∧ home d.contractId = c ∧
      home d.unitId = c ∧ home d.tenantId = c ∧
      ∀ it ∈ d.items, ∀ readingId ∈ it.readingId, home readingId = c
  | paymentCreate p => (Row.payment p).Own home c
  | paymentUpdate _ patch => ∀ u ∈ patch.confirmedByUserId, home u = c
  | announcementCreate a => (Row.announcement a).Own home c
  | auditLogCreate a => (Row.auditLog a).Own home c
  | _ => True

/-- A statement of one of the company's requests. -/
def Statement.Own (c : Id) (s : Statement) : Prop := s.company = c ∧ s.query.Own home c

end references

/-- The rows of the company. -/
def Db.part (c : Id) (db : Db) : Db where
  companies := db.companies.shard Company.id c
  users := db.users.shard User.companyId c
  tenants := db.tenants.shard Tenant.companyId c
  channels := db.channels.shard CompanyLineChannel.companyId c
  units := db.units.shard DormUnit.companyId c
  contracts := db.contracts.shard Contract.companyId c
  meters := db.meters.shard Meter.companyId c
  readings := db.readings.shard Reading.companyId c
  invoices := db.invoices.shard Invoice.companyId c
  payments := db.payments.shard Payment.companyId c
  announcements := db.announcements.shard Announcement.companyId c
  auditLogs := db.auditLogs.shard AuditLog.companyId c

section statements
variable {home : Id → Id} {S : Server} {c : Id} {db : Db}

namespace Db
open Table

@[simp] theorem invoice?_part (id : Id) : (db.part c).invoice? c id = db.invoice? c id :=
  filter_find?_shard

@[simp] theorem payment?_part (id : Id) : (db.part c).payment? c id = db.payment? c id :=
  filter_find?_shard

@[simp] theorem company?_part (id : Id) : (db.part c).company? c id = db.company? c id :=
  filter_find?_shard

@[simp] theorem paymentByKey?_part (idempotencyKey : String) :
    (db.part c).paymentByKey? c idempotencyKey = db.paymentByKey? c idempotencyKey :=
  search_shard fun _ _ holds => holds.1

@[simp] theorem announcementByKey?_part (idempotencyKey : String) :
    (db.part c).announcementByKey? c idempotencyKey = db.announcementByKey? c idempotencyKey :=
  search_shard fun _ _ holds => holds.1

@[simp] theorem confirmedPayments_part (invoiceId : Id) :
    (db.part c).confirmedPayments c invoiceId = db.confirmedPayments c invoiceId :=
  filter_shard fun _ _ holds => holds.1

@[simp] theorem openInvoices_part (contractIds : List Id) (period : Period) :
    (db.part c).openInvoices c contractIds period = db.openInvoices c contractIds period :=
  filter_shard fun _ _ holds => holds.1

variable (housed : db.Housed home)
include housed

theorem Housed.user {u : Id} (here : home u = c) : (db.part c).users.find? u = db.users.find? u :=
  housed.users.find? here

theorem Housed.slotTaken {contractId : Id} {period : Period} (here : home contractId = c) :
    (db.part c).slotTaken contractId period ↔ db.slotTaken contractId period := by
  refine exists_shard fun i hi holds => ?_
  rw [← (housed.invoices.rows i hi).contract, holds.1, here]

/-- A row of the company keeps everything in its place. -/
theorem Housed.apply {w : Row} (own : w.Own home c) : (w.apply db).Housed home := by
  cases w with
  | invoice r =>
    obtain ⟨mine, here, refers⟩ := own
    exact { housed with invoices := housed.invoices.put (here.trans mine.symm) refers }
  | payment r =>
    obtain ⟨mine, here, refers⟩ := own
    exact { housed with payments := housed.payments.put (here.trans mine.symm) refers }
  | announcement r =>
    obtain ⟨mine, here, refers⟩ := own
    exact { housed with announcements := housed.announcements.put (here.trans mine.symm) refers }
  | auditLog r =>
    obtain ⟨mine, here, refers⟩ := own
    exact { housed with auditLogs := housed.auditLogs.put (here.trans mine.symm) refers }

theorem Housed.apply_part {w : Row} (own : w.Own home c) :
    (w.apply db).part c = w.apply (db.part c) := by
  cases w with
  | invoice r =>
    obtain ⟨mine, here, -⟩ := own
    simp only [Row.apply, Db.part, housed.invoices.shard_put (here.trans mine.symm) mine]
  | payment r =>
    obtain ⟨mine, here, -⟩ := own
    simp only [Row.apply, Db.part, housed.payments.shard_put (here.trans mine.symm) mine]
  | announcement r =>
    obtain ⟨mine, here, -⟩ := own
    simp only [Row.apply, Db.part, housed.announcements.shard_put (here.trans mine.symm) mine]
  | auditLog r =>
    obtain ⟨mine, here, -⟩ := own
    simp only [Row.apply, Db.part, housed.auditLogs.shard_put (here.trans mine.symm) mine]

theorem Housed.apply_other {w : Row} {d : Id} (own : w.Own home c) (apart : c ≠ d) :
    (w.apply db).part d = db.part d := by
  cases w with
  | invoice r =>
    obtain ⟨rfl, here, -⟩ := own
    simp only [Row.apply, Db.part, housed.invoices.shard_put_ne here apart]
  | payment r =>
    obtain ⟨rfl, here, -⟩ := own
    simp only [Row.apply, Db.part, housed.payments.shard_put_ne here apart]
  | announcement r =>
    obtain ⟨rfl, here, -⟩ := own
    simp only [Row.apply, Db.part, housed.announcements.shard_put_ne here apart]
  | auditLog r =>
    obtain ⟨rfl, here, -⟩ := own
    simp only [Row.apply, Db.part, housed.auditLogs.shard_put_ne here apart]

end Db

namespace Server
open Table
variable (housed : db.Housed home)
include housed

theorem createInvoice_part {d : InvoiceData} (own : (Query.invoiceCreate d).Own home c) :
    S.createInvoice d (db.part c) = S.createInvoice d db := by
  obtain ⟨-, here, contract, -, -, items⟩ := own
  have free : (db.part c).invoices.find? d.id = db.invoices.find? d.id :=
    housed.invoices.find? here
  unfold createInvoice
  simp only [free, housed.slotTaken contract]
  cases stored : d.items.mapM ItemData.store with
  | none => rfl
  | some its =>
    have same : (∀ i ∈ its, ∀ r ∈ i.readingId, ((db.part c).readings.find? r).isSome = true) ↔
        ∀ i ∈ its, ∀ r ∈ i.readingId, (db.readings.find? r).isSome = true := by
      refine forall₂_congr fun it hit => forall₂_congr fun r names => ?_
      obtain ⟨data, hdata, keeps⟩ := (stored_readings stored r).mp ⟨it, hit, names⟩
      rw [show (db.part c).readings.find? r = db.readings.find? r from
        housed.readings.find? (items data hdata r keeps)]
    simp only [same]

theorem createPayment_part {r : Payment} (own : (Row.payment r).Own home c) :
    S.createPayment r (db.part c) = S.createPayment r db := by
  obtain ⟨rfl, here, -⟩ := own
  have free : (db.part r.companyId).payments.find? r.id = db.payments.find? r.id :=
    housed.payments.find? here
  simp only [createPayment, free, Db.paymentByKey?_part]

theorem createAnnouncement_part {r : Announcement} (own : (Row.announcement r).Own home c) :
    S.createAnnouncement r (db.part c) = S.createAnnouncement r db := by
  obtain ⟨rfl, here, refers⟩ := own
  have free : (db.part r.companyId).announcements.find? r.id = db.announcements.find? r.id :=
    housed.announcements.find? here
  simp only [createAnnouncement, free, Db.announcementByKey?_part, housed.user refers]

theorem createAuditLog_part {r : AuditLog} (own : (Row.auditLog r).Own home c) :
    S.createAuditLog r (db.part c) = S.createAuditLog r db := by
  obtain ⟨rfl, here, refers⟩ := own
  have free : (db.part r.companyId).auditLogs.find? r.id = db.auditLogs.find? r.id :=
    housed.auditLogs.find? here
  have fits : S.AuditFits r (db.part r.companyId) ↔ S.AuditFits r db := by
    refine and_congr_right fun _ => and_congr_right fun _ => and_congr_right fun _ =>
      and_congr_right fun _ => forall₂_congr fun u hu => ?_
    rw [housed.user (refers u hu)]
  simp only [createAuditLog, free, fits]

theorem updatePayment_part {id : Id} {patch : PaymentPatch}
    (own : ∀ u ∈ patch.confirmedByUserId, home u = c) :
    updatePayment c id patch (db.part c) = updatePayment c id patch db := by
  have known : (∀ u ∈ patch.confirmedByUserId, ((db.part c).users.find? u).isSome) ↔
      ∀ u ∈ patch.confirmedByUserId, (db.users.find? u).isSome :=
    forall₂_congr fun u hu => by rw [housed.user (own u hu)]
  simp only [updatePayment, Db.payment?_part, known]

/-- **A statement of a company's request answers from the company's rows.** -/
theorem run_part {q : Query} (own : q.Own home c) : S.run c q (db.part c) = S.run c q db := by
  cases q with
  | invoiceCreate data => exact createInvoice_part housed own
  | paymentCreate data => exact createPayment_part housed own
  | paymentUpdate id data => exact updatePayment_part housed own
  | announcementCreate data => exact createAnnouncement_part housed own
  | auditLogCreate data => exact createAuditLog_part housed own
  | contractFindMany propertyId =>
    refine congrArg (fun a => Except.ok ([], a)) ?_
    have rooms : ∀ k ∈ db.contracts.rows, k.companyId = c →
        (db.part c).units.find? k.unitId = db.units.find? k.unitId := fun k hk company =>
      housed.units.find? ((housed.contracts.rows k hk).1.trans company)
    trans
    · exact filterMap_shard fun k _ foreign => if_neg foreign
    · refine List.filterMap_congr fun k hk => ?_
      by_cases company : k.companyId = c
      · simp only [company, if_true, rooms k hk company]
      · simp only [company, if_false]
  | invoiceFindUnique id | invoiceFindFirst id tenantId | invoiceUpdate id data =>
    simp only [run, Db.invoice?_part]
  | invoiceFindOpen contractIds period => simp only [run, Db.openInvoices_part]
  | paymentFindUnique id => simp only [run, Db.payment?_part]
  | paymentFindByKey idempotencyKey => simp only [run, Db.paymentByKey?_part]
  | paymentFindConfirmed invoiceId => simp only [run, Db.confirmedPayments_part]
  | companyFindUnique id => simp only [run, Db.company?_part]
  | companyFindFirst => simp only [run, Db.company?_part]
  | contractFindUnique id => exact congrArg (fun a => Except.ok ([], a)) filter_find?_shard
  | meterFindMany unitIds =>
    exact congrArg (fun a => Except.ok ([], a)) (filter_shard fun _ _ holds => holds.1)
  | readingFindMany meterIds period =>
    exact congrArg (fun a => Except.ok ([], a)) (filter_shard fun _ _ holds => holds.1)
  | channelFindFirst =>
    exact congrArg (fun a => Except.ok ([], a)) (search_shard fun _ _ holds => holds)
  | tenantFindBound =>
    exact congrArg (fun a => Except.ok ([], a)) (filter_shard fun _ _ holds => holds.1)
  | announcementFindByKey idempotencyKey => simp only [run, Db.announcementByKey?_part]

theorem invoice_own {id : Id} {i : Invoice} (found : db.invoice? c id = some i) :
    (Row.invoice i).Own home c := by
  obtain ⟨stored, company⟩ := Db.invoice?_some.mp found
  have mem := find?_mem stored
  exact ⟨company, (housed.invoices.keys i mem).trans company, housed.invoices.rows i mem⟩

/-- **A statement of a company's request writes rows of the company.** -/
theorem run_own {q : Query} {ws : List Row} {a : q.Ans} (own : q.Own home c)
    (ran : S.run c q db = .ok (ws, a)) : ∀ w ∈ ws, w.Own home c := by
  cases q with
  | invoiceCreate data =>
    obtain ⟨r, eq, makes⟩ := S.createInvoice_row ran
    obtain ⟨rfl, rfl⟩ := Prod.mk.inj eq
    obtain ⟨-, -, -, tenant⟩ := createInvoice_accepts ran
    obtain ⟨company, here, contract, unit, tenantHere, items⟩ := own
    intro w hw
    obtain rfl := List.mem_singleton.mp hw
    have mine : a.companyId = c := makes.companyId.trans company
    refine ⟨mine, by rw [makes.id, here], ?_⟩
    constructor
    · rw [makes.contractId, contract, mine]
    · rw [makes.unitId, unit, mine]
    · rw [tenant, tenantHere, mine]
    · intro it hit readingId names
      obtain ⟨data, hdata, keeps⟩ := (stored_readings makes.items readingId).mp ⟨it, hit, names⟩
      rw [items data hdata readingId keeps, mine]
  | invoiceUpdate id data =>
    simp only [run] at ran
    split at ran
    · rename_i i found
      cases ran
      intro w hw
      obtain rfl := List.mem_singleton.mp hw
      obtain ⟨company, here, refers⟩ := invoice_own housed found
      exact ⟨company, here, refers.contract, refers.unit, refers.tenant, refers.items⟩
    · cases ran
  | paymentCreate data =>
    simp only [run, createPayment] at ran
    repeat (split at ran; · cases ran)
    cases ran
    exact fun w hw => List.mem_singleton.mp hw ▸ own
  | paymentUpdate id data =>
    simp only [run, updatePayment] at ran
    split at ran
    · cases ran
    rename_i p found
    split at ran
    · cases ran
      intro w hw
      obtain rfl := List.mem_singleton.mp hw
      obtain ⟨stored, company⟩ := Option.filter_eq_some_iff.mp found
      simp only [decide_eq_true_eq] at company
      have mem := find?_mem stored
      have refers := housed.payments.rows p mem
      refine ⟨company, (housed.payments.keys p mem).trans company, refers.invoice, refers.tenant,
        fun u hu => ?_⟩
      cases named : data.confirmedByUserId with
      | none =>
        simp only [PaymentPatch.apply, named] at hu
        exact refers.user u hu
      | some u' =>
        simp only [PaymentPatch.apply, named] at hu
        cases hu
        exact (own u named).trans company.symm
    · cases ran
  | announcementCreate data =>
    simp only [run, createAnnouncement] at ran
    repeat (split at ran; · cases ran)
    cases ran
    exact fun w hw => List.mem_singleton.mp hw ▸ own
  | auditLogCreate data =>
    simp only [run, createAuditLog] at ran
    split at ran
    · split at ran
      · cases ran
      · cases ran
        exact fun w hw => List.mem_singleton.mp hw ▸ own
    · cases ran
  | invoiceFindUnique | invoiceFindFirst | invoiceFindOpen | paymentFindUnique | paymentFindByKey
  | paymentFindConfirmed | companyFindUnique | companyFindFirst | contractFindUnique
  | contractFindMany | meterFindMany | readingFindMany | channelFindFirst | tenantFindBound
  | announcementFindByKey =>
    cases ran
    exact List.forall_mem_nil _

end Server

theorem billing_confined (home : Id → Id) (S : Server) (c : Id) :
    Confined (engine S) (Db.Housed home) (Statement.Own home c) (Row.Own home c) := by
  constructor
  · rintro ⟨company, q⟩ db ws a ⟨rfl, own⟩ housed ran
    exact S.run_own housed own ran
  · intro db w housed own
    exact housed.apply own

theorem billing_inside (home : Id → Id) (S : Server) (c : Id) :
    Inside (engine S) (Db.Housed home) (Statement.Own home c) (Row.Own home c) (Db.part c) := by
  constructor
  · rintro ⟨company, q⟩ db ⟨rfl, own⟩ housed
    exact S.run_part housed own
  · intro db w housed own
    exact housed.apply_part own

theorem billing_outside (home : Id → Id) (S : Server) {c d : Id} (apart : c ≠ d) :
    Outside (engine S) (Db.Housed home) (Row.Own home c) (Db.part d) :=
  fun _ _ housed own => housed.apply_other own apart

end statements

/-! ## The calls -/

section calls
variable {home : Id → Id} {S : Server} {ctx : Ctx} {α β : Type}

/-- All statements of the program are of the company, and what it returns is as `R`
says. -/
abbrev Call.Own (home : Id → Id) (S : Server) (c : Id) (R : α → Prop) (p : Call α) : Prop :=
  p.Asks (engine S) (Db.Housed home) (Statement.Own home c) R

theorem prisma_own {q : Query} (own : q.Own home ctx.companyId) :
    (prisma ctx q).Own home S ctx.companyId fun _ => True :=
  Prog.Asks.query' (σ := billing) (s := (⟨ctx.companyId, q⟩ : Statement)) ⟨rfl, own⟩

/-- A statement, whatever it answers, and the rest of the program. -/
theorem read_own {q : Query} {f : q.Ans → Call α} {R : α → Prop}
    (own : q.Own home ctx.companyId) (rest : ∀ a, (f a).Own home S ctx.companyId R) :
    (prisma ctx q >>= f).Own home S ctx.companyId R :=
  (prisma_own own).bind fun a _ => rest a

/-- A statement, and what its answer is known to be. -/
theorem prisma_told {q : Query} {R : q.Ans → Prop} (own : q.Own home ctx.companyId)
    (told : ∀ db ws a, Db.Housed home db → S.run ctx.companyId q db = .ok (ws, a) → R a) :
    (prisma ctx q).Own home S ctx.companyId R :=
  Prog.Asks.query (σ := billing) (s := (⟨ctx.companyId, q⟩ : Statement)) ⟨rfl, own⟩ told

theorem invoiceFindUnique_told {id : Id} :
    (prisma ctx (.invoiceFindUnique id)).Own home S ctx.companyId fun found =>
      ∀ i ∈ found, (Row.invoice i).Own home ctx.companyId := by
  refine prisma_told trivial fun db ws a housed ran i found => ?_
  cases ran
  exact Server.invoice_own housed found

theorem contractFindUnique_told {id : Id} :
    (prisma ctx (.contractFindUnique id)).Own home S ctx.companyId fun found =>
      ∀ k ∈ found, home k.id = ctx.companyId ∧ home k.unitId = ctx.companyId ∧
        home k.tenantId = ctx.companyId := by
  refine prisma_told trivial fun db ws a housed ran k found => ?_
  cases ran
  obtain ⟨stored, company⟩ := Option.filter_eq_some_iff.mp found
  simp only [decide_eq_true_eq] at company
  have mem := Table.find?_mem stored
  obtain ⟨unit, tenant⟩ := housed.contracts.rows k mem
  exact ⟨(housed.contracts.keys k mem).trans company, unit.trans company, tenant.trans company⟩

namespace NotificationService

theorem enqueue_own (c : Id) (job : Job) :
    (enqueue job).Own home S c fun _ => True := by
  rw [enqueue_eq]
  exact fun _ => trivial

theorem enqueueAnnouncementBroadcast_own (c announcementId companyId : Id)
    (companySlug title body : String) (tenantIds : List Id) :
    (enqueueAnnouncementBroadcast announcementId companyId companySlug title body
      tenantIds).Own home S c fun _ => True := by
  unfold enqueueAnnouncementBroadcast
  generalize tenantIds.length = n
  induction tenantIds with
  | nil => trivial
  | cons tenantId rest ih => exact (enqueue_own c _).bind fun _ _ => ih

end NotificationService

namespace PaymentService

theorem getById_own (id : Id) : (getById ctx id).Own home S ctx.companyId fun _ => True := by
  refine read_own trivial fun row => ?_
  cases row with
  | none => trivial
  | some row => trivial

theorem existingOrRethrow_own (idempotencyKey : String) (err : Failure) :
    (existingOrRethrow ctx idempotencyKey err).Own home S ctx.companyId fun _ => True := by
  unfold existingOrRethrow
  split
  · refine read_own trivial fun existing => ?_
    cases existing with
    | none => trivial
    | some existing => trivial
  · trivial

theorem insertOnce_own {row : Payment} (own : (Row.payment row).Own home ctx.companyId) :
    (insertOnce ctx row).Own home S ctx.companyId fun _ => True := by
  refine Prog.Asks.attempt ?_ fun err => ?_
  · exact (prisma_own (q := .paymentCreate row) own).bind fun _ _ =>
      (Prog.Asks.control _).bind fun _ _ => trivial
  · exact (Prog.Asks.control _).bind fun _ _ => existingOrRethrow_own _ err

theorem createPayment_own {newId : Id} {input : CreatePaymentInput} {idempotencyKey : String}
    (drawn : home newId = ctx.companyId) :
    (create ctx newId input idempotencyKey).Own home S ctx.companyId fun _ => True := by
  refine invoiceFindUnique_told.bind fun invoice own => ?_
  cases invoice with
  | none => trivial
  | some invoice =>
    obtain ⟨-, here, refers⟩ := own invoice rfl
    dsimp only
    cases refusal invoice input with
    | some err => trivial
    | none =>
      refine read_own trivial fun replay => ?_
      cases replay with
      | some replay => trivial
      | none =>
        refine (Prog.Asks.control _).bind fun _ _ => insertOnce_own ⟨rfl, drawn, ?_⟩
        exact ⟨here, refers.tenant.trans (own invoice rfl).1, fun u hu => (nomatch hu)⟩

theorem createForTenant_own {newId : Id} {input : CreatePaymentInput} {idempotencyKey : String}
    {tenantId : Id} (drawn : home newId = ctx.companyId) :
    (createForTenant ctx newId input idempotencyKey tenantId).Own home S ctx.companyId
      fun _ => True := by
  refine read_own trivial fun invoice => ?_
  cases invoice with
  | none => trivial
  | some invoice => exact createPayment_own drawn

theorem recomputeInvoiceStatus_own (invoiceId : Id) :
    (recomputeInvoiceStatus ctx invoiceId).Own home S ctx.companyId fun _ => True := by
  refine read_own trivial fun invoice => ?_
  cases invoice with
  | none => trivial
  | some invoice =>
    dsimp only
    split
    · trivial
    refine read_own trivial fun confirmedPayments => ?_
    cases nextStatus invoice.total confirmedPayments with
    | none => trivial
    | some next =>
      dsimp only
      split
      · trivial
      · exact read_own trivial fun _ => trivial

theorem enqueuePaymentNotification_own (invoiceId : Id) (kind : Verdict) :
    (enqueuePaymentNotification ctx invoiceId kind).Own home S ctx.companyId fun _ => True := by
  refine read_own trivial fun invoice => read_own trivial fun company => ?_
  cases invoice with
  | none => trivial
  | some invoice =>
    cases company with
    | none => trivial
    | some company =>
      cases kind with
      | approved => exact NotificationService.enqueue_own _ _
      | rejected reason => exact NotificationService.enqueue_own _ _

theorem confirm_own {now : Instant} {id confirmedByUserId : Id}
    (staff : home confirmedByUserId = ctx.companyId) :
    (confirm ctx now id confirmedByUserId).Own home S ctx.companyId fun _ => True := by
  refine (getById_own id).bind fun existing _ => ?_
  cases existing.status with
  | confirmed => trivial
  | rejected => trivial
  | pending =>
    have named : (Query.paymentUpdate id { status := .confirmed, confirmedAt := some now
                                           confirmedByUserId := some confirmedByUserId }).Own
        home ctx.companyId := by
      intro u hu
      cases hu
      exact staff
    exact read_own named fun _ => (recomputeInvoiceStatus_own _).bind fun _ _ =>
      (enqueuePaymentNotification_own _ _).bind fun _ _ => trivial

theorem reject_own (id : Id) (rejectionReason : String) :
    (reject ctx id rejectionReason).Own home S ctx.companyId fun _ => True := by
  refine (getById_own id).bind fun existing _ => ?_
  cases existing.status with
  | confirmed => trivial
  | rejected => trivial
  | pending =>
    have named : (Query.paymentUpdate id { status := .rejected
                                           rejectionReason := some rejectionReason }).Own
        home ctx.companyId := fun u hu => (nomatch hu)
    exact read_own named fun _ =>
      (enqueuePaymentNotification_own _ _).bind fun _ _ => trivial

end PaymentService

namespace InvoiceService

theorem getById_own (id : Id) : (getById ctx id).Own home S ctx.companyId fun _ => True := by
  refine read_own trivial fun row => ?_
  cases row with
  | none => trivial
  | some row => trivial

theorem create_own {newId : Id} {now : Instant} {input : CreateInvoiceInput}
    (drawn : home newId = ctx.companyId)
    (readings : ∀ it ∈ input.items, ∀ readingId ∈ it.readingId, home readingId = ctx.companyId) :
    (create ctx newId now input).Own home S ctx.companyId fun _ => True := by
  refine contractFindUnique_told.bind fun contract own => ?_
  cases contract with
  | none => trivial
  | some contract =>
    obtain ⟨here, unit, tenant⟩ := own contract rfl
    refine Prog.Asks.attempt (prisma_own ⟨rfl, drawn, here, unit, tenant, ?_⟩) fun err => ?_
    · exact (forall_lineItems ctx input.items (P := fun _ named =>
        ∀ readingId ∈ named, home readingId = ctx.companyId)).mpr readings
    · split
      · trivial
      · trivial

theorem issue_own (now : Instant) (id : Id) :
    (issue ctx now id).Own home S ctx.companyId fun _ => True := by
  refine (getById_own id).bind fun existing _ => ?_
  split
  · trivial
  split
  · trivial
  refine read_own trivial fun company => ?_
  cases company with
  | none => trivial
  | some company =>
    dsimp only
    cases company.promptPayId with
    | none => trivial
    | some promptPayId =>
      dsimp only
      split
      · trivial
      cases PromptPay.generatePromptPayPayload promptPayId (some existing.total.toDecimal) with
      | error message => trivial
      | ok promptPayRef =>
        exact read_own trivial fun _ =>
          (NotificationService.enqueue_own _ _).bind fun _ _ => trivial

theorem void_own (id : Id) : (void ctx id).Own home S ctx.companyId fun _ => True := by
  refine (getById_own id).bind fun existing _ => ?_
  split
  · trivial
  split
  · trivial
  · exact prisma_own trivial

theorem insertDraft_own {data : InvoiceData}
    (own : (Query.invoiceCreate data).Own home ctx.companyId) :
    (insertDraft ctx data).Own home S ctx.companyId fun _ => True := by
  refine Prog.Asks.attempt ((prisma_own own).bind fun _ _ => trivial) fun err => ?_
  split
  · trivial
  · trivial

/-- The loop, where each contract and what is billed to it is of the company. -/
theorem applyBatch_own {newId : Id → Id} {now : Instant} {input : BatchGenerateInvoicesInput}
    {decide : Contract → DormUnit → Plan} {contracts : List (Contract × DormUnit)}
    (drawn : ∀ k, home (newId k) = ctx.companyId)
    (own : ∀ k ∈ contracts, home k.1.id = ctx.companyId ∧ home k.1.unitId = ctx.companyId ∧
      home k.1.tenantId = ctx.companyId)
    (readings : ∀ k ∈ contracts, ∀ items, decide k.1 k.2 = .generate items →
      ∀ it ∈ items, ∀ readingId ∈ it.readingId, home readingId = ctx.companyId)
    (acc : BatchGenerateInvoicesResult) :
    (applyBatch ctx newId now input decide contracts acc).Own home S ctx.companyId
      fun _ => True := by
  induction contracts generalizing acc with
  | nil => trivial
  | cons k rest ih =>
    obtain ⟨contract, unit⟩ := k
    have later := fun acc => ih (fun k hk => own k (List.mem_cons_of_mem _ hk))
      (fun k hk => readings k (List.mem_cons_of_mem _ hk)) acc
    simp only [applyBatch]
    cases decided : decide contract unit with
    | skip reason => exact later _
    | generate items =>
      obtain ⟨here, room, tenant⟩ := own _ List.mem_cons_self
      refine (insertDraft_own ⟨rfl, drawn _, here, room, tenant,
        readings _ List.mem_cons_self items decided⟩).bind fun created _ => ?_
      cases created with
      | none => exact later _
      | some id => exact later _

/-- The items of the batch bill readings that it was given. -/
theorem plan_readings {input : BatchGenerateInvoicesInput} {existing : List Invoice}
    {meters : List Meter} {readings : List Reading} {k : Contract} {u : DormUnit}
    {items : List ItemData}
    (decided : plan ctx input existing meters readings k u = .generate items)
    {it : ItemData} (hit : it ∈ items) {readingId : Id} (names : readingId ∈ it.readingId) :
    ∃ r ∈ readings, r.id = readingId := by
  unfold plan at decided
  split at decided
  · cases decided
  split at decided
  · cases decided
  dsimp only at decided
  split at decided
  · cases decided
  · cases decided
    obtain ⟨m, r, metered, rfl⟩ := buildBatchItems_readings.mp ⟨it, hit, names⟩
    exact ⟨r, readingOf_mem metered.read, rfl⟩

theorem createBatch_own {newId : Id → Id} {now : Instant} {input : BatchGenerateInvoicesInput}
    (drawn : ∀ k, home (newId k) = ctx.companyId) :
    (createBatch ctx newId now input).Own home S ctx.companyId fun _ => True := by
  have scope : (prisma ctx (.contractFindMany input.propertyId)).Own home S ctx.companyId
      fun found => ∀ k ∈ found, home k.1.id = ctx.companyId ∧ home k.1.unitId = ctx.companyId ∧
        home k.1.tenantId = ctx.companyId := by
    refine prisma_told trivial fun db ws a housed ran k found => ?_
    cases ran
    obtain ⟨mem, company⟩ : k.1 ∈ db.contracts.rows ∧ k.1.companyId = ctx.companyId :=
      mem_scope found
    obtain ⟨unit, tenant⟩ := housed.contracts.rows k.1 mem
    exact ⟨(housed.contracts.keys k.1 mem).trans company, unit.trans company,
      tenant.trans company⟩
  refine scope.bind fun contracts own => ?_
  split
  · trivial
  refine read_own trivial fun existing => read_own trivial fun meters => ?_
  have read : (prisma ctx (.readingFindMany (meters.map Meter.id) input.period)).Own home S
      ctx.companyId fun found => ∀ r ∈ found, home r.id = ctx.companyId := by
    refine prisma_told trivial fun db ws a housed ran r found => ?_
    cases ran
    obtain ⟨mem, holds⟩ := List.mem_filter.mp found
    simp only [decide_eq_true_eq] at holds
    exact (housed.readings.keys r mem).trans holds.1
  refine read.bind fun readings mine => applyBatch_own drawn own (fun k _ items decided => ?_) _
  intro it hit readingId names
  obtain ⟨r, hr, rfl⟩ := plan_readings decided hit names
  exact mine r hr

end InvoiceService

namespace AnnouncementService

theorem createBroadcast_own {newId actorUserId : Id} {input : CreateAnnouncementInput}
    {idempotencyKey : String} (drawn : home newId = ctx.companyId)
    (staff : home actorUserId = ctx.companyId) :
    (createBroadcast ctx newId input idempotencyKey actorUserId).Own home S ctx.companyId
      fun _ => True := by
  refine read_own trivial fun existing => ?_
  cases existing with
  | some existing => trivial
  | none =>
    dsimp only
    split
    · trivial
    split
    · trivial
    refine read_own trivial fun channel => ?_
    split
    · trivial
    refine read_own trivial fun recipients => ?_
    split
    · trivial
    refine read_own trivial fun company => ?_
    cases company with
    | none => trivial
    | some company =>
      have row : (Row.announcement (sendingRow ctx newId input idempotencyKey actorUserId)).Own
          home ctx.companyId := ⟨rfl, drawn, staff⟩
      have insert : (insertOrFind ctx (sendingRow ctx newId input idempotencyKey
          actorUserId)).Own home S ctx.companyId fun _ => True := by
        refine Prog.Asks.attempt ?_ fun err => ?_
        · exact (prisma_own (q := .announcementCreate _) row).bind fun _ _ => trivial
        · split
          · refine read_own trivial fun found => ?_
            cases found with
            | some found => trivial
            | none => trivial
          · trivial
      refine insert.bind fun created _ => ?_
      obtain ⟨created, fresh⟩ := created
      dsimp only
      split
      · exact (NotificationService.enqueueAnnouncementBroadcast_own _ _ _ _ _ _ _).bind
          fun _ _ => trivial
      · trivial

end AnnouncementService

/-- The pipeline around a handler. -/
theorem AuditLogInterceptor.intercept_own {req : HttpRequest} {newId : Id} {handle : Call α}
    {c : Id} {R : α → Prop} (handler : handle.Own home S c R)
    (user : ∀ u ∈ req.user, u.companyId = c ∧ home newId = c ∧
      ∀ actor ∈ (auditRow req u newId).actorUserId, home actor = c) :
    (intercept req newId handle).Own home S c R := by
  unfold intercept
  split
  · exact handler
  cases known : req.user with
  | none => exact handler
  | some u =>
    refine handler.bind fun value holds => ?_
    obtain ⟨rfl, drawn, actor⟩ := user u known
    have row : (Row.auditLog (auditRow req u newId)).Own home u.companyId := ⟨rfl, drawn, actor⟩
    refine Prog.Asks.attempt ?_ fun _ => holds
    have stored : (prisma ⟨u.companyId⟩ (.auditLogCreate (auditRow req u newId))).Own home S
        u.companyId fun _ => True := prisma_own row
    exact stored.bind fun _ _ => holds

end calls
end Dormitory
