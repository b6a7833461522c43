import Dormitory.OwnReferences
import Dormitory.ReadingChains

/-!
# References of leases and invoices

The services of contracts, meters, readings and payments look up every row that
they refer to. So do those of invoices, except for the readings that the items of
a single invoice name.
-/

namespace Dormitory
open Txn

/-! ## What invoicing writes -/

section writes
variable {S : Server}

theorem store_companyId {d : ItemData} {it : InvoiceItem} (h : d.store = some it) :
    it.companyId = d.companyId := by
  simp only [ItemData.store, Option.bind_eq_bind, Option.bind_eq_some_iff] at h
  obtain ⟨_, _, _, _, _, _, h⟩ := h
  split at h
  · cases h
    rfl
  · cases h

/-- Billing never takes an invoice away, or gives it to another company. -/
theorem run_keeps_invoices {c o id : Id} {q : Dormitory.Query} {db : Db}
    {ws : List Dormitory.Row} {a : q.Ans} (ran : S.run c q db = .ok (ws, a))
    (owns : db.invoices.Owns Invoice.companyId o id) :
    (ws.foldl Dormitory.Row.apply db).invoices.Owns Invoice.companyId o id := by
  cases q with
  | invoiceCreate data =>
    obtain ⟨r, eq, makes⟩ := S.createInvoice_row ran
    obtain ⟨rfl, rfl⟩ := Prod.mk.inj eq
    obtain ⟨fresh, -⟩ := createInvoice_accepts ran
    rw [← makes.id] at fresh
    exact (Table.Grows.add (P := fun _ => True) fresh trivial).owns owns
  | invoiceUpdate id data =>
    simp only [Server.run] at ran
    split at ran
    · rename_i i found
      cases ran
      have stored := Table.find?_mem (Db.invoice?_some.mp found).1
      exact (Table.Grows.change (r := data.apply i) (P := fun _ => True) stored rfl rfl
        trivial).owns owns
    · cases ran
  | paymentCreate data =>
    simp only [Server.run, Server.createPayment] at ran
    repeat (split at ran; · cases ran)
    cases ran
    exact owns
  | paymentUpdate id data =>
    simp only [Server.run, Server.updatePayment] at ran
    split at ran
    · cases ran
    split at ran
    · cases ran
      exact owns
    · cases ran
  | announcementCreate data =>
    simp only [Server.run, Server.createAnnouncement] at ran
    repeat (split at ran; · cases ran)
    cases ran
    exact owns
  | auditLogCreate data =>
    simp only [Server.run, Server.createAuditLog] at ran
    split at ran
    · split at ran
      · cases ran
      · cases ran
        exact owns
    · cases ran
  | invoiceFindUnique | invoiceFindFirst | invoiceFindOpen | paymentFindUnique | paymentFindByKey
  | paymentFindConfirmed | companyFindUnique | companyFindFirst | contractFindUnique
  | contractFindMany | meterFindMany | readingFindMany | channelFindFirst | tenantFindBound
  | announcementFindByKey =>
    cases ran
    exact owns

theorem commit_keeps_invoices {r : InvoicingRequest} {db : Db} {o id : Id}
    (owns : db.invoices.Owns Invoice.companyId o id) :
    (r.commit S db).invoices.Owns Invoice.companyId o id := by
  obtain ⟨ctx, queueUp, call⟩ := r
  have served {α : Type} (p : Call α) : ((p.serve (Dormitory.engine S) queueUp db).commit
      (Dormitory.engine S) db).invoices.Owns Invoice.companyId o id :=
    Prog.serve_keeps (I := fun d : Db => d.invoices.Owns Invoice.companyId o id) queueUp p
      (fun _ _ _ _ owns ran => run_keeps_invoices ran owns) owns
  cases call with
  | create | createBatch | issue | void => exact served _

theorem commit_payments (r : InvoicingRequest) (db : Db) :
    (r.commit S db).payments = db.payments := by
  have invoices : ∀ w ∈ r.rows S db, ∃ i, w = .invoice i := fun w hw =>
    let ⟨i, same, _⟩ := InvoicingRequest.rows_wrote hw
    ⟨i, same⟩
  rw [InvoicingRequest.commit]
  generalize r.rows S db = ws at invoices
  induction ws generalizing db with
  | nil => rfl
  | cons w ws ih =>
    obtain ⟨i, rfl⟩ := invoices w List.mem_cons_self
    exact ih _ fun w hw => invoices w (List.mem_cons_of_mem _ hw)

end writes

namespace InvoiceService
variable {ctx : Ctx}

theorem mem_scope {c : Id} {propertyId : Option Id} {db : Db} {k : Contract × DormUnit}
    (h : k ∈ scope c propertyId db) : k.1 ∈ db.contracts.rows ∧ k.1.companyId = c := by
  simp only [scope, List.mem_filterMap] at h
  obtain ⟨k', stored, h⟩ := h
  split at h
  · rename_i company
    obtain ⟨u, -, h⟩ := Option.bind_eq_some_iff.mp h
    split at h
    · cases h
      exact ⟨stored, company⟩
    · cases h
  · cases h

theorem buildBatchItems_companyId {period : Period} {rentAmount : Numeric 10 2}
    {unitNumber : String} {meters : List Meter} {readings : List Reading}
    {additional : List BatchAdditionalItem} {it : ItemData}
    (h : it ∈ buildBatchItems ctx period rentAmount unitNumber meters readings additional) :
    it.companyId = ctx.companyId := by
  simp only [buildBatchItems, List.mem_map, Prod.exists] at h
  obtain ⟨make, n, listed, rfl⟩ := h
  rcases List.mem_cons.mp (List.fst_mem_of_mem_zipIdx listed) with rfl | listed
  · rfl
  rcases List.mem_append.mp listed with metered | added
  · simp only [List.mem_filterMap, meterItem, Option.bind_eq_bind,
      Option.bind_eq_some_iff] at metered
    obtain ⟨kind, -, meter, -, reading, -, same⟩ := metered
    cases same
    rfl
  · obtain ⟨add, -, rfl⟩ := List.mem_map.mp added
    rfl

/-- A planned invoice is for a contract of the company, and its items bill
readings of the company. -/
theorem planned_inside {newId : Id → Id} {now : Instant} {input : BatchGenerateInvoicesInput}
    {queueUp : Nat → Bool} {db : Db} {d : InvoiceData}
    (plan : d ∈ planned ctx newId now input ⟨fun _ => db, queueUp⟩) :
    (∃ k ∈ db.contracts.rows, k.companyId = ctx.companyId ∧ d.companyId = ctx.companyId ∧
        d.contractId = k.id ∧ d.unitId = k.unitId ∧ d.tenantId = k.tenantId) ∧
      ∀ it ∈ d.items, it.companyId = ctx.companyId ∧ ∀ readingId ∈ it.readingId,
        ∃ r ∈ db.readings.rows, r.id = readingId ∧ r.companyId = ctx.companyId := by
  simp only [planned, inserts, List.mem_filterMap, Prod.exists] at plan
  obtain ⟨k, u, listed, plan⟩ := plan
  cases decided : plans ctx input ⟨fun _ => db, queueUp⟩ k u with
  | skip reason => simp [decided] at plan
  | generate items =>
    simp only [decided, Option.some.injEq] at plan
    subst plan
    constructor
    · obtain ⟨stored, company⟩ := mem_scope listed
      exact ⟨k, stored, company, rfl, rfl, rfl, rfl⟩
    · intro it hit
      rw [show (batchInvoice ctx (newId k.id) now input k items).items = items from rfl,
        plan_generate decided] at hit
      refine ⟨buildBatchItems_companyId hit, fun readingId names => ?_⟩
      obtain ⟨m, r, metered, rfl⟩ := buildBatchItems_readings.mp ⟨it, hit, names⟩
      obtain ⟨stored, own⟩ := List.mem_filter.mp (readingOf_mem metered.read)
      simp only [decide_eq_true_eq] at own
      exact ⟨r, stored, rfl, own.1⟩

end InvoiceService

namespace Leasing
open Txn

/-! ## What contracts, meters and readings read -/

section reads
variable {S : Server} {ctx : Ctx} {e : Estate}

theorem prisma_reads {q : Query} {ws : List Row} {R : q.Ans → Prop}
    (reads : ∀ ws' a, run S ctx.companyId (ws.foldl Row.apply e) q = .ok (ws', a) →
      ws' = [] ∧ R a) : (prisma ctx q).Reads (engine S) e ws R :=
  Prog.Reads.query (σ := leasing) (s := (⟨ctx.companyId, q⟩ : Statement)) reads

/-- A statement that only reads, and the rest of the part. -/
theorem silent_reads {q : Query} {α : Type} {g : q.Ans → Prog leasing α} {R : α → Prop}
    (silent : ∀ ws a, run S ctx.companyId e q = .ok (ws, a) → ws = [])
    (rest : ∀ a, (g a).Reads (engine S) e [] R) :
    (prisma ctx q >>= g).Reads (engine S) e [] R :=
  .bind (P := fun _ => True) (prisma_reads fun ws a ran => ⟨silent ws a ran, trivial⟩)
    fun a _ => rest a

theorem ContractService.getById_reads (id : Id) :
    (ContractService.getById ctx id).Reads (engine S) e [] fun _ => True := by
  refine silent_reads (fun _ _ ran => by cases ran; rfl) fun found => ?_
  split
  · exact .fail _
  · exact .ret trivial

theorem MeterService.getById_reads (id : Id) :
    (MeterService.getById ctx id).Reads (engine S) e [] fun _ => True := by
  refine silent_reads (fun _ _ ran => by cases ran; rfl) fun found => ?_
  split
  · exact .fail _
  · exact .ret trivial

theorem ReadingService.getById_reads (id : Id) :
    (ReadingService.getById ctx id).Reads (engine S) e [] fun _ => True := by
  refine silent_reads (fun _ _ ran => by cases ran; rfl) fun found => ?_
  split
  · exact .fail _
  · exact .ret trivial

theorem ReadingService.resolveValuePrevious_reads (meterId : Id) (period : Period) :
    (ReadingService.resolveValuePrevious ctx meterId period).Reads (engine S) e [] fun _ =>
      True := by
  refine silent_reads (fun _ _ ran => by cases ran; rfl) fun found => ?_
  split
  · exact .ret trivial
  · exact .ret trivial

theorem leaves_stored {q : Query} {Q : Estate → Prop} (undone : Q e)
    (stores : ∀ ws a, run S ctx.companyId e q = .ok (ws, a) → Q (ws.foldl Row.apply e)) :
    (prisma ctx q).Leaves (engine S) e [] Q :=
  Prog.Leaves.last (σ := leasing) (s := (⟨ctx.companyId, q⟩ : Statement)) undone stores

/-- A write under a `catch` that throws in its turn. -/
theorem leaves_caught {q : Query} {Q : Estate → Prop} {P : Failure → Prop} [DecidablePred P]
    {named : Failure → Failure} (undone : Q e)
    (stores : ∀ ws a, run S ctx.companyId e q = .ok (ws, a) → Q (ws.foldl Row.apply e)) :
    (Prog.attempt (prisma ctx q) fun err =>
      if P err then Prog.throw (named err) else Prog.throw err).Leaves (engine S) e [] Q := by
  refine .attempt undone (leaves_stored undone stores) fun err => ?_
  split
  · exact ⟨_, rfl⟩
  · exact ⟨_, rfl⟩

end reads
end Leasing

namespace Premises
open Txn

/-! ## Contracts, meters and readings -/

section leasing
open Leasing
variable {S : Server} {ctx : Ctx} {s : Dorm}

/-- The references of the database with contracts, meters and readings as in `e`. -/
def Dorm.OwnWith (s : Dorm) (e : Estate) : Prop := ({ s with estate := e } : Dorm).OwnReferences

theorem ownWith_leased (own : s.OwnReferences) : s.OwnWith s.leased :=
  own.grow { Dorm.Grown.refl s with }

theorem units_owns {unitId : Id} (seen : UnitVisible ctx.companyId s.leased unitId) :
    s.units.Owns (fun u => u.companyId) ctx.companyId unitId := by
  obtain ⟨u, found, company⟩ := seen
  have found : (s.units.map UnitRow.toDormUnit fun _ => rfl).find? unitId = some u := found
  exact Table.owns_map (f := UnitRow.toDormUnit) (fun _ => rfl) (Table.owns_of_find? found company)

theorem tenants_owns {tenantId : Id} (seen : TenantVisible ctx.companyId s.leased tenantId) :
    s.tenants.Owns (fun t => t.companyId) ctx.companyId tenantId := by
  obtain ⟨t, found, company⟩ := seen
  have found : (s.tenants.map (fun t => t.toTenant) fun _ => rfl).find? tenantId = some t := found
  exact Table.owns_map (f := fun t : TenantRow => t.toTenant) (fun _ => rfl)
    (Table.owns_of_find? found company)

section statements
variable {c : Id} {ws : List Leasing.Row}

theorem createContract_own (own : s.OwnReferences) {d : ContractData} {a : ContractRow}
    (unit : s.units.Owns (fun u => u.companyId) d.companyId d.unitId)
    (tenant : s.tenants.Owns (fun t => t.companyId) d.companyId d.tenantId)
    (ran : createContract S s.leased d = .ok (ws, a)) :
    s.OwnWith (ws.foldl Leasing.Row.apply s.leased) := by
  obtain ⟨rfl, fresh, id, company, unitId, tenantId, -⟩ := createContract_row ran
  rw [← id] at fresh
  rw [← company, ← unitId] at unit
  rw [← company, ← tenantId] at tenant
  exact own.grow { Dorm.Grown.refl s with contracts := .add fresh ⟨unit, tenant⟩ }

theorem updateContract_own (own : s.OwnReferences) {id : Id} {d : ContractPatch} {a : ContractRow}
    (ran : updateContract c s.leased id d = .ok (ws, a)) :
    s.OwnWith (ws.foldl Leasing.Row.apply s.leased) := by
  obtain ⟨rfl, k, found, rfl⟩ := updateContract_row ran
  have stored := ContractService.contract?_mem found
  exact own.grow { Dorm.Grown.refl s with
    contracts := .change stored rfl rfl (own.contracts k stored) }

theorem createMeter_own (own : s.OwnReferences) {d : MeterData} {a : MeterRow}
    (unit : s.units.Owns (fun u => u.companyId) d.companyId d.unitId)
    (ran : createMeter S s.leased d = .ok (ws, a)) :
    s.OwnWith (ws.foldl Leasing.Row.apply s.leased) := by
  obtain ⟨rfl, fresh, -, company, unitId⟩ := createMeter_row ran
  rw [← company, ← unitId] at unit
  exact own.grow { Dorm.Grown.refl s with meters := .add fresh unit }

theorem updateMeter_own (own : s.OwnReferences) {id : Id} {d : MeterPatch} {a : MeterRow}
    (ran : updateMeter c s.leased id d = .ok (ws, a)) :
    s.OwnWith (ws.foldl Leasing.Row.apply s.leased) := by
  obtain ⟨rfl, m, stored, same, company, unitId, -⟩ := updateMeter_row ran
  have unit := own.meters m stored
  rw [Dorm.OwnMeter, ← company, ← unitId] at unit
  exact own.grow { Dorm.Grown.refl s with meters := .change stored same company unit }

theorem createReading_own (own : s.OwnReferences) {d : ReadingData} {a : ReadingRow}
    (meter : s.estate.meters.Owns (fun m => m.companyId) d.companyId d.meterId)
    (ran : createReading S s.leased d = .ok (ws, a)) :
    s.OwnWith (ws.foldl Leasing.Row.apply s.leased) := by
  obtain ⟨rfl, fresh, -, company, meterId, -⟩ := createReading_row ran
  rw [← company, ← meterId] at meter
  exact own.grow { Dorm.Grown.refl s with readings := .add fresh meter }

theorem updateReading_own (own : s.OwnReferences) {id : Id} {d : ReadingPatch} {a : ReadingRow}
    (ran : updateReading c s.leased id d = .ok (ws, a)) :
    s.OwnWith (ws.foldl Leasing.Row.apply s.leased) := by
  obtain ⟨rfl, -, r, stored, same, company, meterId, -⟩ := updateReading_row ran
  have meter := own.readings r stored
  rw [Dorm.OwnReading, ← company, ← meterId] at meter
  exact own.grow { Dorm.Grown.refl s with readings := .change stored same company meter }

end statements

theorem leased_own {α : Type} {p : Prog leasing α}
    (leaves : p.Leaves (Leasing.engine S) s.leased [] s.OwnWith) :
    s.OwnWith (LeasingCall.commit.serve S s.leased p) :=
  Prog.Leaves.serve (σ := leasing) leaves _

/-- **The services of contracts, meters and readings** keep all references
inside. -/
theorem LeasingCall.commit_own (own : s.OwnReferences) (call : LeasingCall) :
    s.OwnWith (call.commit S ctx s.leased) := by
  have undone := ownWith_leased own
  cases call with
  | createContract newId input =>
    refine leased_own ?_
    refine (Prog.Reads.guard (assertUnitVisible_guards S ctx s.leased input.unitId)).before undone
      fun _ unit => ?_
    refine (Prog.Reads.guard (ContractService.assertTenantVisible_guards S ctx s.leased
      input.tenantId)).before undone fun _ tenant => ?_
    refine (Prog.Reads.guard (ContractService.assertNoOverlap_guards S ctx s.leased
      _)).before undone fun _ _ => ?_
    exact leaves_stored undone fun _ _ ran =>
      createContract_own own (units_owns unit) (tenants_owns tenant) ran
  | updateContract id input =>
    refine leased_own ?_
    refine (ContractService.getById_reads id).before undone fun existing _ => ?_
    have stores : (Leasing.prisma ctx (.contractUpdate id input.patch)).Leaves (Leasing.engine S)
        s.leased [] s.OwnWith := leaves_stored undone fun _ _ ran => updateContract_own own ran
    dsimp only
    split
    · exact (Prog.Reads.guard (ContractService.assertNoOverlap_guards S ctx s.leased
        _)).before undone fun _ _ => stores
    · exact stores
  | createMeter newId input =>
    refine leased_own ?_
    refine (Prog.Reads.guard (assertUnitVisible_guards S ctx s.leased input.unitId)).before undone
      fun _ unit => ?_
    exact leaves_caught undone fun _ _ ran => createMeter_own own (units_owns unit) ran
  | updateMeter id input =>
    refine leased_own ?_
    refine (MeterService.getById_reads id).before undone fun _ _ => ?_
    exact leaves_stored undone fun _ _ ran => updateMeter_own own ran
  | createReading newId now input =>
    refine leased_own ?_
    refine (Prog.Reads.guard (ReadingService.assertMeterVisible_guards S ctx s.leased
      input.meterId)).before undone fun _ seen => ?_
    obtain ⟨m, found, company⟩ := seen
    have meter : s.estate.meters.Owns (fun m => m.companyId) ctx.companyId input.meterId :=
      Table.owns_of_find? (t := s.estate.meters) found company
    refine (ReadingService.resolveValuePrevious_reads input.meterId input.period).before undone
      fun previous _ => ?_
    dsimp only
    split
    · exact .fail _ undone
    · exact leaves_caught undone fun _ _ ran => createReading_own own meter ran
  | updateReading id input =>
    refine leased_own ?_
    refine (ReadingService.getById_reads id).before undone fun existing _ => ?_
    have stores (patch : ReadingPatch) : (Leasing.prisma ctx (.readingUpdate id patch)).Leaves
        (Leasing.engine S) s.leased [] s.OwnWith :=
      leaves_stored undone fun _ _ ran => updateReading_own own ran
    split
    · exact stores _
    dsimp only
    split
    · exact .fail _ undone
    · exact stores _

end leasing

/-! ## Payments and the states of invoices -/

section billing
variable {S : Server} {s : Dorm} {c : Id} {d : Db}

/-- The references of the database with all other tables as billing leaves them. -/
def Dorm.OwnBooks (s : Dorm) (d : Db) : Prop := s.OwnWith { s.estate with books := d }

theorem ownBooks_db (own : s.OwnReferences) : s.OwnBooks s.db :=
  own.grow { Dorm.Grown.refl s with }

theorem Dorm.OwnInvoice.patch {i : Invoice} (own : s.OwnInvoice i) (patch : InvoicePatch) :
    s.OwnInvoice (patch.apply i) := ⟨own.contract, own.unit, own.tenant, own.items⟩

theorem write_own {w : Dormitory.Row} (own : s.OwnBooks d) (writes : Writes c d w) :
    s.OwnBooks (Dormitory.Row.apply d w) := by
  cases writes with
  | insert p i company fresh unused invoice billable =>
    obtain ⟨found, same⟩ := Db.invoice?_some.mp invoice
    exact own.grow { Dorm.Grown.refl _ with
      payments := .add fresh (Table.owns_of_find? found (same.trans company.symm)) }
  | decide p patch found pending =>
    have stored : p ∈ d.payments.rows := Table.find?_mem (Db.payment?_some.mp found).1
    exact own.grow { Dorm.Grown.refl _ with
      payments := .change stored rfl rfl (own.payments p stored) }
  | move i patch found alive forward =>
    have stored : i ∈ d.invoices.rows := Table.find?_mem (Db.invoice?_some.mp found).1
    exact own.grow { Dorm.Grown.refl _ with
      invoices := .change stored rfl rfl ((own.invoices i stored).patch patch) }

theorem writes_own {ws : List Dormitory.Row} (own : s.OwnBooks d) (writes : WritesAll c d ws) :
    s.OwnBooks (ws.foldl Dormitory.Row.apply d) := by
  induction ws generalizing d with
  | nil => exact own
  | cons w ws ih => exact ih (write_own own writes.1) writes.2

/-- **The payment service** keeps all references inside, and so do the calls that
move an invoice on. -/
theorem billing_own (own : s.OwnReferences) (r : Dormitory.Request) :
    s.OwnBooks (r.commit S s.db) := by
  rw [Request.commit, r.call.commit_eq]
  exact writes_own (ownBooks_db own) (r.call.writes r.ctx.companyId s.db)

end billing

/-! ## New invoices -/

section invoicing
variable {S : Server} {s : Dorm} {ctx : Ctx}

/-- The items of an invoice name the company's readings exactly when its data do. -/
theorem items_own_iff {d : InvoiceData} {r : Invoice} (makes : d.Makes r) :
    (∀ it ∈ r.items, ∀ readingId ∈ it.readingId,
        s.estate.readings.Owns (fun x => x.companyId) it.companyId readingId) ↔
      ∀ it ∈ d.items, ∀ readingId ∈ it.readingId,
        s.estate.readings.Owns (fun x => x.companyId) it.companyId readingId := by
  have lines := stored_lines makes.items
  constructor
  · intro own it hit readingId names
    obtain ⟨i, hi, stored⟩ := exists_made lines hit
    rw [← store_companyId stored]
    exact own i hi readingId (ItemData.store_readingId stored ▸ names)
  · intro own i hi readingId names
    obtain ⟨it, hit, stored⟩ := exists_source lines hi
    rw [store_companyId stored]
    exact own it hit readingId (ItemData.store_readingId stored ▸ names)

theorem contract_own (own : s.OwnReferences) {k : Contract} (stored : k ∈ s.db.contracts.rows) :
    s.estate.contracts.Owns (fun x => x.companyId) k.companyId k.id ∧
      s.units.Owns (fun u => u.companyId) k.companyId k.unitId ∧
      s.tenants.Owns (fun t => t.companyId) k.companyId k.tenantId := by
  obtain ⟨row, hrow, rfl⟩ := List.mem_map.mp stored
  exact ⟨⟨row, hrow, rfl, rfl⟩, own.contracts row hrow⟩

/-- An invoice made for a contract of the company is inside if its items are. -/
theorem invoice_own (own : s.OwnReferences) {k : Contract} (stored : k ∈ s.db.contracts.rows)
    (company : k.companyId = ctx.companyId) {d : InvoiceData} {db : Db} {r : Invoice}
    (same : d.companyId = ctx.companyId ∧ d.contractId = k.id ∧ d.unitId = k.unitId ∧
      d.tenantId = k.tenantId)
    (ran : S.createInvoice d db = .ok ([.invoice r], r)) :
    s.OwnInvoice r ↔ ∀ it ∈ d.items, ∀ readingId ∈ it.readingId,
      s.estate.readings.Owns (fun x => x.companyId) it.companyId readingId := by
  obtain ⟨r', eq, makes⟩ := S.createInvoice_row ran
  obtain rfl : r = r' := (Prod.mk.inj eq).2
  obtain ⟨-, -, -, tenantId⟩ := createInvoice_accepts ran
  obtain ⟨sameCompany, sameContract, sameUnit, sameTenant⟩ := same
  obtain ⟨contract, unit, tenant⟩ := contract_own own stored
  rw [← items_own_iff makes]
  constructor
  · exact Dorm.OwnInvoice.items
  · intro items
    refine ⟨?_, ?_, ?_, items⟩
    · rw [makes.companyId, makes.contractId, sameCompany, sameContract, ← company]
      exact contract
    · rw [makes.companyId, makes.unitId, sameCompany, sameUnit, ← company]
      exact unit
    · rw [makes.companyId, tenantId, sameCompany, sameTenant, ← company]
      exact tenant

/-- After a call of the invoice service, all references are inside exactly when
those of the invoices are. -/
theorem invoicing_own_iff (own : s.OwnReferences) (r : InvoicingRequest) :
    s.OwnBooks (r.commit S s.db) ↔ ∀ i ∈ (r.commit S s.db).invoices.rows, s.OwnInvoice i := by
  constructor
  · intro after i hi
    obtain ⟨contract, unit, tenant, items⟩ := after.invoices i hi
    exact ⟨contract, unit, tenant, items⟩
  · intro inside
    refine own.grow { Dorm.Grown.refl s with invoices := ⟨?_, ?_⟩, payments := ?_ }
    · exact fun i hi => commit_keeps_invoices ⟨i, hi, rfl, rfl⟩
    · exact fun i hi => .inr (inside i hi)
    · have same : (r.commit S s.db).payments = s.estate.books.payments := commit_payments r s.db
      change Table.Grows _ _ _ (r.commit S s.db).payments
      rw [same]
      exact .refl _ _ _

/-- A call that bills single invoices only for readings of its company. -/
def OwnReadings (s : Dorm) (r : InvoicingRequest) : Prop :=
  match r.call with
  | .create newId _ input =>
    input.Insertable r.ctx newId ⟨fun _ => s.db, r.queueUp⟩ → input.Fits →
      ∀ it ∈ input.items, ∀ readingId ∈ it.readingId,
        s.estate.readings.Owns (fun x => x.companyId) r.ctx.companyId readingId
  | .createBatch _ _ _ | .issue _ _ | .void _ => True

theorem readings_owns {readingId : Id}
    (stored : ∃ r ∈ s.db.readings.rows, r.id = readingId ∧ r.companyId = ctx.companyId) :
    s.estate.readings.Owns (fun x => x.companyId) ctx.companyId readingId := by
  obtain ⟨_, hr, rfl, company⟩ := stored
  obtain ⟨row, hrow, rfl⟩ := List.mem_map.mp hr
  exact ⟨row, hrow, rfl, company⟩

/-- `create` keeps all references inside exactly when its items do. -/
theorem create_own_iff (own : s.OwnReferences) {queueUp : Nat → Bool} {newId : Id}
    {now : Instant} {input : CreateInvoiceInput} (accepted : input.Accepted) :
    (∀ i ∈ ((⟨ctx, queueUp, .create newId now input⟩ : InvoicingRequest).commit S
        s.db).invoices.rows, s.OwnInvoice i) ↔
      OwnReadings s ⟨ctx, queueUp, .create newId now input⟩ := by
  cases answer : (Prog.serve (Dormitory.engine S) queueUp s.db
      (Dormitory.InvoiceService.create ctx newId now input)).answer with
  | error err =>
    have written :
        (⟨ctx, queueUp, .create newId now input⟩ : InvoicingRequest).rows S s.db = [] := by
      simp only [InvoicingRequest.rows, Ending.written, answer]
    rw [InvoicingRequest.commit, written]
    refine iff_of_true own.invoices fun insertable fits => ?_
    obtain ⟨row, returned⟩ := (Dormitory.InvoiceService.create_returns_iff S ctx newId now accepted
      _ insertable).mpr fits
    cases answer.symm.trans returned
  | ok row =>
    obtain ⟨k, found, inserted⟩ :=
      (Dormitory.InvoiceService.create_ok_iff S ctx newId now input _ row).mp answer
    obtain ⟨tr, run⟩ :=
      Dormitory.InvoiceService.create_inserted S ctx newId now input _ found inserted
    have written : (⟨ctx, queueUp, .create newId now input⟩ : InvoicingRequest).rows S s.db =
        [.invoice row] := by
      simp [InvoicingRequest.rows, Prog.serve, run, Ending.written]
    obtain ⟨stored, company⟩ := Option.filter_eq_some_iff.mp found
    have inside := invoice_own own (Table.find?_mem stored) (of_decide_eq_true company)
      (d := Dormitory.InvoiceService.invoiceData ctx newId now input k) ⟨rfl, rfl, rfl, rfl⟩
      inserted
    have lines := Dormitory.InvoiceService.forall_lineItems ctx input.items
      (P := fun c named => ∀ readingId ∈ named,
        s.estate.readings.Owns (fun x => x.companyId) c readingId)
    have ready := Dormitory.InvoiceService.insertable_of_inserted found inserted
    have fits := (Dormitory.InvoiceService.create_returns_iff S ctx newId now accepted _ ready).mp
      ⟨row, answer⟩
    rw [InvoicingRequest.commit, written]
    constructor
    · intro all _ _
      exact lines.mp (inside.mp (all row (Table.mem_put.mpr (.inl rfl))))
    · intro reads i hi
      rcases Table.mem_put.mp hi with rfl | ⟨old, -⟩
      · exact inside.mpr (lines.mpr (reads ready fits))
      · exact own.invoices i old

/-- What a call writes decides about the invoices after it. -/
theorem invoices_own (own : s.OwnReferences) {r : InvoicingRequest}
    (wrote : ∀ i, Wrote S s.db r.ctx r.queueUp r.call i → s.OwnInvoice i) :
    ∀ i ∈ (r.commit S s.db).invoices.rows, s.OwnInvoice i := by
  intro i hi
  rcases InvoicingRequest.mem_commit hi with old | new
  · exact own.invoices i old
  · exact wrote i new

/-- **The invoice service** keeps all references inside exactly when its single
invoices bill readings of their company. -/
theorem invoicing_own (own : s.OwnReferences) {r : InvoicingRequest} (accepted : r.Accepted) :
    s.OwnBooks (r.commit S s.db) ↔ OwnReadings s r := by
  rw [invoicing_own_iff own]
  obtain ⟨ctx, queueUp, call⟩ := r
  cases call with
  | create newId now input => exact create_own_iff own accepted
  | createBatch newId now input =>
    refine iff_of_true (invoices_own own fun i wrote => ?_) trivial
    cases wrote with
    | planned plan made =>
      obtain ⟨⟨k, stored, company, same⟩, items⟩ := Dormitory.InvoiceService.planned_inside plan
      refine (invoice_own own stored company same made).mpr fun it hit readingId names => ?_
      obtain ⟨ours, reads⟩ := items it hit
      rw [ours]
      exact readings_owns (reads readingId names)
  | issue now id =>
    refine iff_of_true (invoices_own own fun i wrote => ?_) trivial
    cases wrote with
    | issued stored => exact Dorm.OwnInvoice.patch (own.invoices _ stored) _
  | void id =>
    refine iff_of_true (invoices_own own fun i wrote => ?_) trivial
    cases wrote with
    | voided stored => exact Dorm.OwnInvoice.patch (own.invoices _ stored) _

end invoicing
end Premises
end Dormitory
