import Dormitory.Shelves
import Dormitory.TenancyParts

/-!
# What a call can change

The shelves of its company that each call of the services can change; all others stay
as they are, and so does every other company.
-/

namespace Dormitory

namespace Premises
open Txn

/-! ## Properties, rooms, tenants and slips -/

section calls
variable {S : Server} {P : Pgcrypto} {ctx : Ctx} {X : Shelf → Prop} {s : Dorm} {α : Type}
  {I : Dorm → Prop}

theorem prisma_within {q : Query} (of : q.Of ctx.companyId) (inside : ∀ x, q.Shelved x → X x) :
    Within (engine S P) I ctx.companyId X (fun _ => True) (prisma ctx q) :=
  Prog.Asks.query' (σ := premises) (s := (⟨ctx.companyId, q⟩ : Statement)) ⟨⟨rfl, of⟩, inside⟩

/-- **What a program leaves.** -/
theorem serve_kept {α : Type} {c : Id} {R : α → Prop} {p : Prog premises α}
    (within : Within (engine S P) (Kept c X s) c X R p) :
    Kept c X s ((p.serve (engine S P) (fun _ => true) s).commit (engine S P) s) :=
  within.serve_kept sound _

theorem orThrow_within (c : Id) (err : Failure) (row : Option α) :
    Within (engine S P) I c X (fun r => row = some r) (orThrow err row) := by
  cases row with
  | none => trivial
  | some row => rfl

theorem catchUnique_within {taken : Failure → Bool} {error message : String} {c : Id}
    {p : Prog premises α} (within : Within (engine S P) I c X (fun _ => True) p) :
    Within (engine S P) I c X (fun _ => True) (catchUnique taken error message p) :=
  guarded_within within

theorem PropertyService.getById_within (id : Id) :
    Within (engine S P) I ctx.companyId X (fun _ => True) (PropertyService.getById ctx id) :=
  read_within (prisma_within trivial fun _ => False.elim) fun _ =>
    (orThrow_within _ _ _).imp fun _ _ => trivial

namespace UnitService

theorem assertPropertyVisible_within (propertyId : Id) :
    Within (engine S P) I ctx.companyId X (fun _ => True)
      (assertPropertyVisible ctx propertyId) := by
  refine read_within (prisma_within trivial fun _ => False.elim) fun found => ?_
  cases found with
  | none => trivial
  | some p => trivial

theorem update_within (id : Id) (input : UnitPatch) :
    Within (engine S P) I ctx.companyId (· = .units) (fun _ => True) (update ctx id input) := by
  have found : Within (engine S P) I ctx.companyId (· = .units) (fun _ => True) (getById ctx id) :=
    read_within (prisma_within trivial fun _ => False.elim) fun _ =>
    (orThrow_within _ _ _).imp fun _ _ => trivial
  have update : Within (engine S P) I ctx.companyId (· = .units) (fun _ => True)
      (catchNumberTaken (input.unitNumber.getD "undefined")
        (prisma ctx (.unitUpdate id input))) :=
    catchUnique_within (prisma_within trivial fun _ same => same)
  apply found.bind
  intro _ _
  dsimp only
  cases input.propertyId with
  | none => exact update
  | some propertyId => exact (assertPropertyVisible_within propertyId).bind fun _ _ => update

end UnitService

namespace PiiCryptoService

theorem encrypt_within (plaintext : Option String) :
    Within (engine S P) I ctx.companyId X (fun _ => True) (encrypt ctx plaintext) := by
  cases plaintext with
  | none => trivial
  | some plaintext =>
    refine read_within (prisma_within trivial fun _ => False.elim) fun ciphertext => ?_
    split
    · trivial
    · trivial

theorem decrypt_within (ciphertext : Option String) :
    Within (engine S P) I ctx.companyId X (fun _ => True) (decrypt ctx ciphertext) := by
  cases ciphertext with
  | none => trivial
  | some ciphertext =>
    exact read_within (prisma_within trivial fun _ => False.elim) fun _ => trivial

end PiiCryptoService

namespace TenantService
open PiiCryptoService

theorem decryptRow_within (row : TenantRow) :
    Within (engine S P) I ctx.companyId X (fun _ => True) (decryptRow ctx row) :=
  (decrypt_within _).bind fun _ _ => (decrypt_within _).bind fun _ _ => trivial

theorem create_within (newId : Id) (input : CreateTenantInput) :
    Within (engine S P) I ctx.companyId (· = .tenant newId) (fun _ => True)
      (create ctx newId input) := by
  refine (encrypt_within _).bind fun _ _ => (encrypt_within _).bind fun _ _ => ?_
  exact catchUnique_within (read_within (prisma_within rfl fun _ same => same) decryptRow_within)

theorem update_within (id : Id) (input : TenantPatch) :
    Within (engine S P) I ctx.companyId (· = .tenant id) (fun _ => True) (update ctx id input) := by
  have found : Within (engine S P) I ctx.companyId (· = .tenant id) (fun _ => True)
      (getById ctx id) :=
    read_within (prisma_within trivial fun _ => False.elim) fun _ =>
      (orThrow_within _ _ _).bind fun row _ => decryptRow_within row
  refine found.bind fun _ _ => (encrypt_within _).bind fun _ _ =>
    (encrypt_within _).bind fun _ _ => ?_
  exact catchUnique_within
    (read_within (prisma_within trivial fun _ same => same) decryptRow_within)

end TenantService

theorem SlipService.register_within (head : Except Failure (Option HeadObject))
    (newId paymentId : Id) (input : UploadSlipInput) :
    Within (engine S P) I ctx.companyId (· = .slip paymentId) (fun _ => True)
      (register ctx head newId paymentId input) := by
  have seen : Within (engine S P) I ctx.companyId (· = .slip paymentId)
      (fun found : Option (Payment × Option Slip) => ∀ p ∈ found,
        p.1.companyId = ctx.companyId ∧ p.1.id = paymentId)
      (prisma ctx (.paymentFindUnique paymentId)) := by
    refine Prog.Asks.query (σ := premises)
      (s := (⟨ctx.companyId, .paymentFindUnique paymentId⟩ : Statement))
      ⟨⟨rfl, trivial⟩, fun _ => False.elim⟩ ?_
    intro s ws a _ ran p found
    cases ran
    obtain ⟨payment, stored, rfl⟩ := Option.map_eq_some_iff.mp found
    obtain ⟨stored, company⟩ := Option.filter_eq_some_iff.mp stored
    exact ⟨of_decide_eq_true company, Table.find?_key stored⟩
  refine seen.bind fun found known => (orThrow_within _ _ _).bind fun pair same => ?_
  obtain ⟨mine, rfl⟩ := known pair same
  obtain ⟨payment, slip⟩ := pair
  dsimp only
  split
  · trivial
  split
  · trivial
  split
  · trivial
  split
  · trivial
  · trivial
  split
  · trivial
  · exact catchUnique_within (prisma_within mine fun _ same => same)

theorem InvoiceService.update_within (id : Id) (input : UpdateInvoiceInput) :
    Within (engine S P) I ctx.companyId (· = .invoices) (fun _ => True) (update ctx id input) := by
  have found : Within (engine S P) I ctx.companyId (· = .invoices) (fun _ => True)
      (getById ctx id) :=
    read_within (prisma_within trivial fun _ => False.elim) fun _ =>
    (orThrow_within _ _ _).imp fun _ _ => trivial
  apply found.bind
  intro _ _
  split
  · trivial
  · exact prisma_within trivial fun _ same => same

def PremisesCall.shelf : PremisesCall → Shelf
  | createProperty _ _ | updateProperty _ _ => .properties
  | createUnit _ _ | updateUnit _ _ => .units
  | createTenant newId _ => .tenant newId
  | updateTenant id _ => .tenant id
  | registerSlip _ _ paymentId _ => .slip paymentId
  | updateInvoice _ _ => .invoices

theorem PremisesCall.commit_kept (ctx : Ctx) (call : PremisesCall) :
    Kept ctx.companyId (· = call.shelf) s (call.commit S P ctx s) := by
  cases call with
  | createProperty newId input =>
    exact serve_kept (catchUnique_within (prisma_within rfl fun _ same => same))
  | updateProperty id input =>
    exact serve_kept ((PropertyService.getById_within id).bind fun _ _ =>
      catchUnique_within (prisma_within trivial fun _ same => same))
  | createUnit newId input =>
    exact serve_kept ((UnitService.assertPropertyVisible_within _).bind fun _ _ =>
      catchUnique_within (prisma_within rfl fun _ same => same))
  | updateUnit id input => exact serve_kept (UnitService.update_within id input)
  | createTenant newId input => exact serve_kept (TenantService.create_within newId input)
  | updateTenant id input => exact serve_kept (TenantService.update_within id input)
  | registerSlip head newId paymentId input =>
    exact serve_kept (SlipService.register_within head newId paymentId input)
  | updateInvoice id input => exact serve_kept (InvoiceService.update_within id input)

end calls
end Premises

/-! ## Leases -/

namespace Leasing
open Txn Premises

section calls
variable {S : Server} {ctx : Ctx} {X : Shelf → Prop} {s : Dorm} {I : Estate → Prop}

theorem prisma_within {q : Query} (of : q.Of ctx.companyId) (inside : ∀ x, q.Shelved x → X x) :
    Within (engine S) I ctx.companyId X (fun _ => True) (prisma ctx q) :=
  Prog.Asks.query' (σ := leasing) (s := (⟨ctx.companyId, q⟩ : Statement)) ⟨⟨rfl, of⟩, inside⟩

/-- **What a program leaves.** -/
theorem serve_kept {α : Type} {c : Id} {R : α → Prop} {p : Prog leasing α} {e : Estate}
    (within : Within (engine S) (fun e' => Kept c X (s.withEstate e) (s.withEstate e')) c X R p) :
    Kept c X (s.withEstate e)
      (s.withEstate ((p.serve (engine S) (fun _ => true) e).commit (engine S) e)) :=
  within.serve_kept sound _

theorem assertUnitVisible_within (unitId : Id) :
    Within (engine S) I ctx.companyId X (fun _ => True) (assertUnitVisible ctx unitId) := by
  refine read_within (prisma_within trivial fun _ => False.elim) fun found => ?_
  cases found with
  | none => trivial
  | some u => trivial

namespace ContractService

theorem assertTenantVisible_within (tenantId : Id) :
    Within (engine S) I ctx.companyId X (fun _ => True) (assertTenantVisible ctx tenantId) := by
  refine read_within (prisma_within trivial fun _ => False.elim) fun found => ?_
  cases found with
  | none => trivial
  | some t => trivial

theorem assertNoOverlap_within (args : Overlap) :
    Within (engine S) I ctx.companyId X (fun _ => True) (assertNoOverlap ctx args) := by
  refine read_within (prisma_within trivial fun _ => False.elim) fun overlap => ?_
  cases overlap with
  | none => trivial
  | some k => trivial

theorem getById_within (id : Id) :
    Within (engine S) I ctx.companyId X (fun _ => True) (getById ctx id) := by
  refine read_within (prisma_within trivial fun _ => False.elim) fun row => ?_
  cases row with
  | none => trivial
  | some row => trivial

theorem create_within (newId : Id) (input : CreateContractInput) :
    Within (engine S) I ctx.companyId (· = .contracts) (fun _ => True) (create ctx newId input) :=
  (assertUnitVisible_within _).bind fun _ _ => (assertTenantVisible_within _).bind fun _ _ =>
    (assertNoOverlap_within _).bind fun _ _ => prisma_within rfl fun _ same => same

theorem update_within (id : Id) (input : UpdateContractInput) :
    Within (engine S) I ctx.companyId (· = .contracts) (fun _ => True) (update ctx id input) := by
  apply (getById_within id).bind
  intro existing _
  dsimp only
  split
  · exact (assertNoOverlap_within _).bind fun _ _ => prisma_within trivial fun _ same => same
  · exact prisma_within trivial fun _ same => same

end ContractService

theorem MeterService.getById_within (id : Id) :
    Within (engine S) I ctx.companyId X (fun _ => True) (MeterService.getById ctx id) := by
  refine read_within (prisma_within trivial fun _ => False.elim) fun row => ?_
  cases row with
  | none => trivial
  | some row => trivial

namespace ReadingService

theorem assertMeterVisible_within (meterId : Id) :
    Within (engine S) I ctx.companyId X (fun _ => True) (assertMeterVisible ctx meterId) := by
  refine read_within (prisma_within trivial fun _ => False.elim) fun found => ?_
  cases found with
  | none => trivial
  | some m => trivial

theorem getById_within (id : Id) :
    Within (engine S) I ctx.companyId X (fun _ => True) (getById ctx id) := by
  refine read_within (prisma_within trivial fun _ => False.elim) fun row => ?_
  cases row with
  | none => trivial
  | some row => trivial

theorem resolveValuePrevious_within (meterId : Id) (period : Period) :
    Within (engine S) I ctx.companyId X (fun _ => True)
      (resolveValuePrevious ctx meterId period) := by
  refine read_within (prisma_within trivial fun _ => False.elim) fun prior => ?_
  cases prior with
  | none => trivial
  | some prior => trivial

theorem create_within (newId : Id) (now : Instant) (input : CreateReadingInput) :
    Within (engine S) I ctx.companyId (· = .readings) (fun _ => True)
      (create ctx newId now input) := by
  refine (assertMeterVisible_within _).bind fun _ _ =>
    (resolveValuePrevious_within _ _).bind fun valuePrevious _ => ?_
  dsimp only
  split
  · trivial
  · exact guarded_within (prisma_within rfl fun _ same => same)

theorem update_within (id : Id) (input : UpdateReadingInput) :
    Within (engine S) I ctx.companyId (· = .readings) (fun _ => True) (update ctx id input) := by
  apply (getById_within id).bind
  intro existing _
  cases input.valueCurrent with
  | none => exact prisma_within trivial fun _ same => same
  | some valueCurrent =>
    dsimp only
    split
    · trivial
    · exact prisma_within trivial fun _ same => same

end ReadingService

def LeasingCall.shelf : LeasingCall → Shelf
  | createContract _ _ | updateContract _ _ => .contracts
  | createMeter _ _ | updateMeter _ _ => .meters
  | createReading _ _ _ | updateReading _ _ => .readings

theorem LeasingCall.commit_kept (ctx : Ctx) (call : LeasingCall) :
    Kept ctx.companyId (· = call.shelf) s (s.withEstate (call.commit S ctx s.leased)) := by
  have leased : Kept ctx.companyId (· = call.shelf) s (s.withEstate s.leased) :=
    fun d x _ => by cases x <;> exact Table.Agree.refl _
  apply leased.trans
  cases call with
  | createContract newId input => exact serve_kept (ContractService.create_within newId input)
  | updateContract id input => exact serve_kept (ContractService.update_within id input)
  | createMeter newId input =>
    exact serve_kept (read_within (assertUnitVisible_within _) fun _ =>
      guarded_within (prisma_within rfl fun _ same => same))
  | updateMeter id input =>
    exact serve_kept (read_within (MeterService.getById_within id) fun _ =>
      prisma_within trivial fun _ same => same)
  | createReading newId now input =>
    exact serve_kept (ReadingService.create_within newId now input)
  | updateReading id input => exact serve_kept (ReadingService.update_within id input)

end calls
end Leasing

/-! ## Books -/

section books
open Txn Premises
variable {S : Server} {ctx : Ctx} {X : Shelf → Prop} {s : Dorm} {c : Id} {db : Db} {I : Db → Prop}

theorem prisma_within {q : Query} (of : q.Of ctx.companyId) (inside : ∀ x, q.Shelved x → X x) :
    Within (engine S) I ctx.companyId X (fun _ => True) (prisma ctx q) :=
  Prog.Asks.query' (σ := billing) (s := (⟨ctx.companyId, q⟩ : Statement)) ⟨⟨rfl, of⟩, inside⟩

/-- **What a call leaves.** -/
theorem Call.serve_kept {α : Type} {R : α → Prop} {p : Call α}
    (within : Within (engine S) (fun db' => Kept c X (s.withBooks db) (s.withBooks db')) c X R p)
    (queueUp : Nat → Bool) :
    Kept c X (s.withBooks db)
      (s.withBooks ((p.serve (engine S) queueUp db).commit (engine S) db)) :=
  within.serve_kept Server.sound queueUp

namespace InvoiceService

theorem create_within (newId : Id) (now : Instant) (input : CreateInvoiceInput) :
    Within (engine S) I ctx.companyId (· = .invoices) (fun _ => True)
      (create ctx newId now input) := by
  refine read_within (prisma_within trivial fun _ => False.elim) fun contract => ?_
  cases contract with
  | none => trivial
  | some contract =>
    exact guarded_within (prisma_within rfl fun _ same => same)

theorem insertDraft_within {data : InvoiceData} (of : data.companyId = ctx.companyId) :
    Within (engine S) I ctx.companyId (· = .invoices) (fun _ => True) (insertDraft ctx data) := by
  refine Prog.Asks.attempt ?_ fun err => ?_
  · exact (prisma_within (q := .invoiceCreate data) of fun _ same => same).bind fun _ _ => trivial
  split
  · trivial
  · trivial

theorem applyBatch_within (newId : Id → Id) (now : Instant) (input : BatchGenerateInvoicesInput)
    (decide : Contract → DormUnit → Plan) (contracts : List (Contract × DormUnit))
    (acc : BatchGenerateInvoicesResult) :
    Within (engine S) I ctx.companyId (· = .invoices) (fun _ => True)
      (applyBatch ctx newId now input decide contracts acc) := by
  induction contracts generalizing acc with
  | nil => trivial
  | cons k rest ih =>
    obtain ⟨contract, unit⟩ := k
    simp only [applyBatch]
    cases decide contract unit with
    | skip reason => exact ih _
    | generate items =>
      apply (insertDraft_within rfl).bind
      intro created _
      cases created with
      | none => exact ih _
      | some id => exact ih _

theorem createBatch_within (newId : Id → Id) (now : Instant) (input : BatchGenerateInvoicesInput) :
    Within (engine S) I ctx.companyId (· = .invoices) (fun _ => True)
      (createBatch ctx newId now input) := by
  refine read_within (prisma_within trivial fun _ => False.elim) fun contracts => ?_
  split
  · trivial
  · exact read_within (prisma_within trivial fun _ => False.elim) fun existing =>
      read_within (prisma_within trivial fun _ => False.elim) fun meters =>
        read_within (prisma_within trivial fun _ => False.elim) fun readings =>
          applyBatch_within _ _ _ _ _ _

end InvoiceService

theorem NotificationService.enqueueAnnouncementBroadcast_within
    (announcementId companyId : Id) (companySlug title body : String) (tenantIds : List Id) :
    Within (engine S) I c X (fun _ => True)
      (enqueueAnnouncementBroadcast announcementId companyId companySlug title body tenantIds) := by
  unfold enqueueAnnouncementBroadcast
  generalize tenantIds.length = n
  induction tenantIds with
  | nil => trivial
  | cons tenantId rest ih =>
    refine Prog.Asks.bind (R := fun _ => True) ?_ fun _ _ => ih
    rw [enqueue_eq]
    exact fun _ => trivial

theorem AnnouncementService.createBroadcast_within (newId : Id) (input : CreateAnnouncementInput)
    (idempotencyKey : String) (actorUserId : Id) :
    Within (engine S) I ctx.companyId (· = .announcements) (fun _ => True)
      (createBroadcast ctx newId input idempotencyKey actorUserId) := by
  refine read_within (prisma_within trivial fun _ => False.elim) fun existing => ?_
  cases existing with
  | some existing => trivial
  | none =>
    dsimp only
    split
    · trivial
    split
    · trivial
    refine read_within (prisma_within trivial fun _ => False.elim) fun channel => ?_
    split
    · trivial
    refine read_within (prisma_within trivial fun _ => False.elim) fun recipients => ?_
    split
    · trivial
    refine read_within (prisma_within trivial fun _ => False.elim) fun company => ?_
    cases company with
    | none => trivial
    | some company =>
      have insert : Within (engine S) I ctx.companyId (· = .announcements) (fun _ => True)
          (insertOrFind ctx (sendingRow ctx newId input idempotencyKey actorUserId)) := by
        refine Prog.Asks.attempt (read_within (prisma_within rfl fun _ same => same)
          fun _ => trivial) fun err => ?_
        split
        · refine read_within (prisma_within trivial fun _ => False.elim) fun found => ?_
          cases found with
          | some found => trivial
          | none => trivial
        · trivial
      apply insert.bind
      intro created _
      obtain ⟨created, fresh⟩ := created
      dsimp only
      split
      · exact (NotificationService.enqueueAnnouncementBroadcast_within _ _ _ _ _ _).bind
          fun _ _ => trivial
      · trivial

/-- The shelves that the call can change. -/
def BillingCall.Shelved : BillingCall → Shelf → Prop
  | create _ _ _, x => ∃ tenantId, x = .payments tenantId
  | createForTenant _ _ _ tenantId, x => x = .payments tenantId
  | confirm _ _ _, x => x = .invoices ∨ x = .decisions ∨ ∃ tenantId, x = .payments tenantId
  | reject _ _, x => x = .decisions ∨ ∃ tenantId, x = .payments tenantId
  | issue _ _, x | void _, x => x = .invoices

theorem kept_move {i : Invoice} {patch : InvoicePatch} {id : Id}
    (found : db.invoice? c id = some i) :
    Kept c (· = .invoices) (s.withBooks db)
      (s.withBooks ((Row.invoice (patch.apply i)).apply db)) := by
  obtain ⟨mine, takes⟩ := Table.takes_seen found
  exact kept_invoice (r := patch.apply i) mine takes

theorem kept_rollup (invoiceId : Id) :
    Kept c (· = .invoices) (s.withBooks db)
      (s.withBooks ((PaymentService.rollupRows c db invoiceId).foldl Row.apply db)) := by
  rcases PaymentService.rollupRows_cases c db invoiceId with rows | ⟨i, next, found, -, -, rows⟩
  · rw [rows]
    exact .refl _
  · rw [rows]
    exact kept_move found

theorem kept_decided {id : Id} {patch : PaymentPatch} {p : Payment}
    (decided : PaymentService.decidedRow c db id patch = some p) :
    Kept c (fun x => x = .decisions ∨ ∃ tenantId, x = .payments tenantId) (s.withBooks db)
      (s.withBooks ((Row.payment p).apply db)) := by
  obtain ⟨old, found, -, -, rfl⟩ := PaymentService.decidedRow_some decided
  obtain ⟨mine, takes⟩ := Table.takes_seen found
  exact kept_paymentUpdate (r := patch.apply old) mine takes

/-- A new payment is pending, and its tenant is the invoice's. -/
theorem kept_created {newId : Id} {input : CreatePaymentInput} {key : String} :
    Kept c (fun x => ∃ i, db.invoice? c input.invoiceId = some i ∧ x = .payments i.tenantId)
      (s.withBooks db)
      (s.withBooks ((PaymentService.createdRows c db newId input key).foldl Row.apply db)) := by
  unfold PaymentService.createdRows
  cases found : db.invoice? c input.invoiceId with
  | none => exact .refl _
  | some i =>
    dsimp only
    split
    · rename_i allowed
      refine (kept_paymentInsert (r := PaymentService.pendingRow ⟨c⟩ newId i input key) rfl
        allowed.2.2).mono fun x shelved => ⟨i, rfl, ?_⟩
      exact shelved.resolve_right fun decided => decided.2 rfl
    · exact .refl _

theorem BillingCall.commit_kept (queueUp : Nat → Bool) (call : BillingCall) :
    Kept ctx.companyId call.Shelved (s.withBooks db)
      (s.withBooks (call.commit S queueUp ctx db)) := by
  rw [BillingCall.commit_eq]
  cases call with
  | create newId input key =>
    exact kept_created.mono fun x ⟨i, _, same⟩ => ⟨i.tenantId, same⟩
  | createForTenant newId input key tenantId =>
    simp only [rows, PaymentService.tenantCreatedRows]
    split
    · rename_i i found
      obtain ⟨seen, own⟩ := Option.filter_eq_some_iff.mp found
      apply kept_created.mono
      rintro x ⟨j, seen', same⟩
      obtain rfl : i = j := Option.some.inj (seen.symm.trans seen')
      rw [same, of_decide_eq_true own]
      rfl
    · exact .refl _
  | confirm now id user =>
    simp only [rows, PaymentService.confirmRows]
    split
    · rename_i p decided
      exact ((kept_decided decided).mono fun x moved => .inr moved).trans
        ((kept_rollup p.invoiceId).mono fun x moved => .inl moved)
    · exact .refl _
  | reject id reason =>
    simp only [rows, PaymentService.rejectRows]
    split
    · rename_i p decided
      exact kept_decided decided
    · exact .refl _
  | issue now id =>
    simp only [rows, InvoiceService.issueRows]
    cases found : db.invoice? ctx.companyId id with
    | none => exact .refl _
    | some i =>
      dsimp only
      split
      · split
        · exact kept_move found
        · exact .refl _
      · exact .refl _
  | void id =>
    simp only [rows, InvoiceService.voidRows]
    cases found : db.invoice? ctx.companyId id with
    | none => exact .refl _
    | some i =>
      dsimp only
      split
      · exact .refl _
      · exact kept_move found

/-- What billing leaves, in the database. -/
theorem withBooks_kept {db' : Db} (kept : Kept c X (s.withBooks s.db) (s.withBooks db')) :
    Kept c X s (s.withBooks db') := by
  have books : Kept c X s (s.withBooks s.db) :=
    fun d x _ => by cases x <;> exact Table.Agree.refl _
  exact books.trans kept

theorem Request.commit_kept (r : Request) :
    Kept r.ctx.companyId r.call.Shelved s (s.withBooks (r.commit S s.db)) :=
  withBooks_kept (r.call.commit_kept r.queueUp)

theorem InvoicingRequest.commit_kept (r : InvoicingRequest) :
    Kept r.ctx.companyId (· = .invoices) s (s.withBooks (r.commit S s.db)) := by
  obtain ⟨ctx, queueUp, call⟩ := r
  apply withBooks_kept
  cases call with
  | create newId now input =>
    exact Call.serve_kept (InvoiceService.create_within newId now input) queueUp
  | createBatch newId now input =>
    exact Call.serve_kept (InvoiceService.createBatch_within newId now input) queueUp
  | issue now id => exact BillingCall.commit_kept queueUp (.issue now id)
  | void id => exact BillingCall.commit_kept queueUp (.void id)

end books

/-! ## Tenants and invites -/

namespace Tenancy
open Txn Premises

section calls
variable {S : Server} {c : Id} {X : Shelf → Prop} {s : Dorm} {I : Db → Prop}

/-- All statements of the script's first `n` transactions stay within the shelves. -/
abbrev ScriptWithin (S : Server) (s : Dorm) (c : Id) (X : Shelf → Prop) (n : Nat)
    (script : Script tenancy Answer) : Prop :=
  script.Asks (engine S) (Near c X s) (Stays c X) n

theorem exec_near {q : Statement} {db : Db} {ws : List Row} {a : q.query.Ans}
    (stays : Stays (σ := tenancy) c X q) (near : Near c X s db)
    (ran : run S q.scope' db q.query = .ok (ws, a)) : Near c X s (ws.foldl Row.apply db) := by
  obtain ⟨scope', q⟩ := q
  obtain ⟨off | ⟨rfl, of⟩, inside⟩ := stays
  · exact run_off near off ran
  · exact run_near near of inside ran

/-- **What a script leaves.** -/
theorem serve_kept {script : Script tenancy Answer} {n : Nat} {queueUp : Nat → Bool}
    {r : Except ApiError Answer} {db : Db}
    (within : ScriptWithin S s c X n script)
    (served : script.serve (engine S) queueUp n s.tenancy = some (r, db)) :
    Kept c X s (s.settle db) := by
  refine Near.settle (within.serve_keeps queueUp ?_ .start served)
  exact fun q st ws a stays near ran => exec_near stays near ran

/-- A lookup or an audit row. -/
theorem off_within {q : Query} {scope' : Option Id} (off : ∀ x, ¬q.Shelved x) :
    Within (engine S) I c X (fun _ => True) (prisma scope' q) :=
  Prog.Asks.query' (σ := tenancy) (s := (⟨scope', q⟩ : Statement))
    ⟨.inl off, fun x shelved => absurd shelved (off x)⟩

theorem prisma_within {q : Query} (of : q.Of c) (inside : ∀ x, q.Shelved x → X x) :
    Within (engine S) I c X (fun _ => True) (prisma (some c) q) :=
  Prog.Asks.query' (σ := tenancy) (s := (⟨some c, q⟩ : Statement)) ⟨.inr ⟨rfl, of⟩, inside⟩

theorem request_within {row : AuditLog} {handle : Prog tenancy Answer} {n : Nat}
    (handler : Within (engine S) (Near c X s) c X (fun _ => True) handle) :
    ScriptWithin S s c X (n + 1) (request row handle) := by
  apply handler.bind
  intro value _
  refine Prog.Asks.bind (R := fun _ => True) ?_ fun _ _ => Script.Asks.done _
  exact Prog.Asks.attempt (off_within fun _ => not_false) fun _ => trivial

namespace TenantInviteService

theorem writeAudit_within {newId resourceId : Id} {action : String} {actorUserId : Option Id}
    {metadata : List (String × String)} :
    Within (engine S) I c X (fun _ => True)
      (writeAudit c newId action resourceId actorUserId metadata) :=
  Prog.Asks.attempt (off_within fun _ => not_false) fun _ => trivial

theorem generate_within {sha256Hex : String → String} {ctx : Ctx} {newId auditId : Id}
    {now : Instant} {plaintext : String} {tenantId actorUserId : Id} :
    Within (engine S) I ctx.companyId (· = .invite newId) (fun _ => True)
      (generate sha256Hex ctx newId auditId now plaintext tenantId actorUserId) := by
  refine read_within (off_within fun _ => not_false) fun tenant => ?_
  cases tenant with
  | none => trivial
  | some tenant =>
    dsimp only
    split
    · trivial
    · exact read_within (prisma_within rfl fun _ same => same) fun _ =>
        read_within writeAudit_within fun _ => trivial

theorem revoke_within {ctx : Ctx} {auditId inviteId : Id} {reason : Option String}
    {actorUserId : Id} :
    Within (engine S) I ctx.companyId (· = .invite inviteId) (fun _ => True)
      (revoke ctx auditId inviteId reason actorUserId) := by
  refine read_within (off_within fun _ => not_false) fun existing => ?_
  cases existing with
  | none => trivial
  | some existing =>
    dsimp only
    split
    · trivial
    refine read_within (prisma_within trivial fun _ same => same) fun count => ?_
    split
    · trivial
    refine read_within (off_within fun _ => not_false) fun updated => ?_
    cases updated with
    | none => trivial
    | some updated => exact writeAudit_within.bind fun _ _ => trivial

/-- What a code gives access to. -/
def Opens (i : TenantInvite) (x : Shelf) : Prop := x = .invite i.id ∨ x = .tenant i.tenantId

section code
variable {candidate : TenantInvite} {n : Nat}

theorem sweep_within :
    ScriptWithin S s candidate.companyId (Opens candidate) (n + 1) (sweep candidate) :=
  read_within (prisma_within trivial fun _ => .inl) fun _ => Script.Asks.done _

theorem bindTenant_within {auditId : Id} {lineUserId : String} :
    Within (engine S) I candidate.companyId (Opens candidate) (fun _ => True)
      (bindTenant candidate auditId lineUserId) := by
  refine Prog.Asks.attempt (read_within (prisma_within trivial fun _ => .inr) fun _ => trivial)
    fun err => ?_
  split
  · exact read_within (prisma_within trivial fun _ => .inl) fun _ =>
      read_within writeAudit_within fun _ => trivial
  · trivial

theorem redeemPending_within {slug : String} {auditId : Id} {now : Instant}
    {lineUserId : String} :
    ScriptWithin S s candidate.companyId (Opens candidate) (n + 1)
      (redeemPending candidate slug auditId now lineUserId) := by
  refine read_within (prisma_within trivial fun _ => .inl) fun count => ?_
  split
  · trivial
  · exact bindTenant_within.bind fun _ _ => writeAudit_within.bind fun _ _ => Script.Asks.done _

theorem redeemFound_within {slug : String} {auditId : Id} {now now' : Instant}
    {lineUserId : String} :
    ScriptWithin S s candidate.companyId (Opens candidate) (n + 1)
      (redeemFound candidate slug auditId now now' lineUserId) := by
  have rest : ScriptWithin S s candidate.companyId (Opens candidate) (n + 1)
      (redeemFound.rest candidate slug auditId now now' lineUserId) := by
    unfold redeemFound.rest
    split
    · exact Script.Asks.done _
    split
    · exact sweep_within
    · exact redeemPending_within
  unfold redeemFound
  split
  · split
    · exact Script.Asks.done _
    · exact rest
  · exact rest

theorem peekFound_within (now : Instant) {tenant : TenantProfile}
    {room : Option (DormUnit × Property)} :
    ScriptWithin S s candidate.companyId (Opens candidate) (n + 1)
      (peekFound now (some (candidate, tenant, room))) := by
  simp only [peekFound]
  split
  · exact Script.Asks.done _
  split
  · exact sweep_within
  · exact Script.Asks.done _

end code
end TenantInviteService

theorem TenantService.update_within {ctx : Ctx} {id : Id} {input : UpdateTenantInput} :
    Within (engine S) I ctx.companyId (· = .tenant id) (fun _ => True) (update ctx id input) := by
  have found : Within (engine S) I ctx.companyId (· = .tenant id) (fun _ => True)
      (getById ctx id) := by
    refine read_within (off_within fun _ => not_false) fun row => ?_
    cases row with
    | none => trivial
    | some row => trivial
  refine found.bind fun _ _ => Prog.Asks.attempt ?_ fun err => ?_
  · exact read_within (prisma_within trivial fun _ same => same) fun _ => trivial
  · split
    · trivial
    · trivial

open TenantInviteService

/-- In the state `db`, the call can change the shelf of the company. -/
def InviteCall.Shelved (sha256Hex : String → String) (db : Db) (c : Id) :
    InviteCall → Shelf → Prop
  | generate _ ctx newId _ _ _ _ _, x => c = ctx.companyId ∧ x = .invite newId
  | revoke _ ctx _ inviteId _ _, x => c = ctx.companyId ∧ x = .invite inviteId
  | updateTenant _ ctx id _, x => c = ctx.companyId ∧ x = .tenant id
  | peek _ code, x | redeem _ _ _ code _, x =>
    ∃ i, db.inviteByCode? none (codePrefixOf code) (sha256Hex code) = some i ∧
      c = i.companyId ∧ Opens i x

/-- The database after the call, served alone. -/
def InviteCall.commit (S : Server) (sha256Hex : String → String) (s : Dorm) (call : InviteCall) :
    Dorm :=
  ((call.script sha256Hex).serve (engine S) (fun _ => true) 2 s.tenancy).elim s fun end' =>
    s.settle end'.2

variable {sha256Hex : String → String} {d : Id} {x : Shelf}

/-- What a script leaves, of which the rest after a lookup stays within the shelves. -/
theorem kept_served {ended : Option (Except ApiError Answer × Db)}
    {script : Script tenancy Answer} {n : Nat}
    (same : ended = script.serve (engine S) (fun _ => true) n s.tenancy)
    (within : ScriptWithin S s c X n script) (other : d ≠ c ∨ ¬X x) :
    x.Same d s (ended.elim s fun end' => s.settle end'.2) := by
  cases ended with
  | none => exact Shelf.Same.refl x d s
  | some end' => exact serve_kept within same.symm d x other

theorem kept_done {ended : Option (Except ApiError Answer × Db)} {r : Except ApiError Answer}
    {n : Nat} (same : ended = (Script.done r).serve (engine S) (fun _ => true) n s.tenancy) :
    x.Same d s (ended.elim s fun end' => s.settle end'.2) :=
  kept_served (c := d) (X := fun _ => False) same (Script.Asks.done (σ := tenancy) r)
    (.inr not_false)

theorem InviteCall.commit_kept (call : InviteCall)
    (other : ¬call.Shelved sha256Hex s.tenancy d x) : x.Same d s (call.commit S sha256Hex s) := by
  cases call with
  | generate row ctx newId auditId now plaintext tenantId actorUserId =>
    exact kept_served rfl (request_within generate_within) (not_and_or.mp other)
  | revoke row ctx auditId inviteId reason actorUserId =>
    exact kept_served rfl (request_within revoke_within) (not_and_or.mp other)
  | updateTenant row ctx id input =>
    exact kept_served rfl (request_within TenantService.update_within) (not_and_or.mp other)
  | peek now code =>
    have ran : ∀ a, run S none s.tenancy (.invitePreview (codePrefixOf code) (sha256Hex code)) =
        .ok ([], a) → ((InviteCall.peek now code).script sha256Hex).serve (engine S) (fun _ => true)
          2 s.tenancy = (peekFound now a).serve (engine S) (fun _ => true) 1 s.tenancy := by
      intro a found
      rw [script, peek_eq]
      exact Script.serve_lookup (σ := tenancy) (q := ⟨none, _⟩) _ found
    cases found : s.tenancy.inviteByCode? none (codePrefixOf code) (sha256Hex code) with
    | none => exact kept_done (ran none (by rw [run, found]; rfl))
    | some i =>
      have outside : d ≠ i.companyId ∨ ¬Opens i x :=
        not_and_or.mp fun opens => other ⟨i, found, opens⟩
      cases stored : s.tenancy.tenants.find? i.tenantId with
      | none =>
        exact kept_done (ran none (by rw [run, found, Option.bind_some, stored]; rfl))
      | some tenant =>
        exact kept_served (ran (some (i, tenant, s.tenancy.latestRoom tenant.id))
          (by rw [run, found, Option.bind_some, stored]; rfl)) (peekFound_within now) outside
  | redeem auditId now now' code lineUserId =>
    have ran : ∀ a, run S none s.tenancy (.inviteFindFirst (codePrefixOf code) (sha256Hex code)) =
        .ok ([], a) → ((InviteCall.redeem auditId now now' code lineUserId).script
          sha256Hex).serve (engine S) (fun _ => true) 2 s.tenancy =
            (redeemLookup auditId now now' lineUserId a).serve (engine S) (fun _ => true) 1
              s.tenancy := by
      intro a found
      rw [script, redeem_eq]
      exact Script.serve_lookup (σ := tenancy) (q := ⟨none, _⟩) _ found
    cases found : s.tenancy.inviteByCode? none (codePrefixOf code) (sha256Hex code) with
    | none => exact kept_done (ran none (by rw [run, found]; rfl))
    | some i =>
      have outside : d ≠ i.companyId ∨ ¬Opens i x :=
        not_and_or.mp fun opens => other ⟨i, found, opens⟩
      cases stored : s.tenancy.companies.find? i.companyId with
      | none =>
        exact kept_done (ran none (by rw [run, found, Option.bind_some, stored]; rfl))
      | some company =>
        exact kept_served (ran (some (i, company))
          (by rw [run, found, Option.bind_some, stored]; rfl)) redeemFound_within outside

end calls
end Tenancy
end Dormitory
