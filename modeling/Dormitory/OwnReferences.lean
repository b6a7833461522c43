import Dormitory.Owners
import Dormitory.PropertyService
import Dormitory.Txn.Serial

/-!
# References inside one company

Which rows refer to rows of their own company. The database checks only that a
referenced row exists, in any company, so it is the services that must have seen
it. Here is what keeps all references inside, and that the services of
properties, rooms, tenants and slips do.
-/

namespace Dormitory.Premises
open Txn Leasing

namespace Dorm
variable (s : Dorm)

def OwnUnit (u : UnitRow) : Prop :=
  s.properties.Owns (fun p => p.companyId) u.companyId u.propertyId

def OwnContract (k : ContractRow) : Prop :=
  s.units.Owns (fun u => u.companyId) k.companyId k.unitId ∧
    s.tenants.Owns (fun t => t.companyId) k.companyId k.tenantId

def OwnMeter (m : MeterRow) : Prop :=
  s.units.Owns (fun u => u.companyId) m.companyId m.unitId

def OwnReading (r : ReadingRow) : Prop :=
  s.estate.meters.Owns (fun m => m.companyId) r.companyId r.meterId

/-- An invoice and its items. -/
structure OwnInvoice (i : Invoice) : Prop where
  contract : s.estate.contracts.Owns (fun k => k.companyId) i.companyId i.contractId
  unit : s.units.Owns (fun u => u.companyId) i.companyId i.unitId
  tenant : s.tenants.Owns (fun t => t.companyId) i.companyId i.tenantId
  items : ∀ it ∈ i.items, ∀ readingId ∈ it.readingId,
    s.estate.readings.Owns (fun r => r.companyId) it.companyId readingId

def OwnPayment (p : Payment) : Prop :=
  s.estate.books.invoices.Owns Invoice.companyId p.companyId p.invoiceId

def OwnSlip (l : Slip) : Prop :=
  s.estate.books.payments.Owns Payment.companyId l.companyId l.paymentId

/-- **Every foreign key stays inside one company.** -/
structure OwnReferences : Prop where
  units : ∀ u ∈ s.units.rows, s.OwnUnit u
  contracts : ∀ k ∈ s.estate.contracts.rows, s.OwnContract k
  meters : ∀ m ∈ s.estate.meters.rows, s.OwnMeter m
  readings : ∀ r ∈ s.estate.readings.rows, s.OwnReading r
  invoices : ∀ i ∈ s.estate.books.invoices.rows, s.OwnInvoice i
  payments : ∀ p ∈ s.estate.books.payments.rows, s.OwnPayment p
  slips : ∀ l ∈ s.slips.rows, s.OwnSlip l

variable {s} {s' : Dorm}

/-- Every row stays with its company, and new rows refer to rows that the company
already had. -/
structure Grown (s s' : Dorm) : Prop where
  properties : Table.Grows (fun p => p.companyId) (fun _ => True) s.properties s'.properties
  units : Table.Grows (fun u => u.companyId) s.OwnUnit s.units s'.units
  tenants : Table.Grows (fun t => t.companyId) (fun _ => True) s.tenants s'.tenants
  contracts :
    Table.Grows (fun k => k.companyId) s.OwnContract s.estate.contracts s'.estate.contracts
  meters : Table.Grows (fun m => m.companyId) s.OwnMeter s.estate.meters s'.estate.meters
  readings : Table.Grows (fun r => r.companyId) s.OwnReading s.estate.readings s'.estate.readings
  invoices :
    Table.Grows Invoice.companyId s.OwnInvoice s.estate.books.invoices s'.estate.books.invoices
  payments :
    Table.Grows Payment.companyId s.OwnPayment s.estate.books.payments s'.estate.books.payments
  slips : Table.Grows Slip.companyId s.OwnSlip s.slips s'.slips

theorem Grown.refl (s : Dorm) : Grown s s :=
  ⟨.refl _ _ _, .refl _ _ _, .refl _ _ _, .refl _ _ _, .refl _ _ _, .refl _ _ _, .refl _ _ _,
    .refl _ _ _, .refl _ _ _⟩

/-- **Growth keeps all references inside.** -/
theorem OwnReferences.grow (own : s.OwnReferences) (grown : Grown s s') : s'.OwnReferences where
  units u hu := grown.properties.owns (grown.units.all own.units u hu)
  contracts k hk :=
    let ⟨unit, tenant⟩ := grown.contracts.all own.contracts k hk
    ⟨grown.units.owns unit, grown.tenants.owns tenant⟩
  meters m hm := grown.units.owns (grown.meters.all own.meters m hm)
  readings r hr := grown.meters.owns (grown.readings.all own.readings r hr)
  invoices i hi :=
    let inside := grown.invoices.all own.invoices i hi
    ⟨grown.contracts.owns inside.contract, grown.units.owns inside.unit,
      grown.tenants.owns inside.tenant,
      fun it hit r hr => grown.readings.owns (inside.items it hit r hr)⟩
  payments p hp := grown.invoices.owns (grown.payments.all own.payments p hp)
  slips l hl := grown.payments.owns (grown.slips.all own.slips l hl)

end Dorm

/-! ## Statements of these services -/

section statements
variable {S : Server} {c : Id} {s : Dorm} {ws : List Row}

theorem storeProperty_row {r a : PropertyRow} (ran : storeProperty S s r = .ok (ws, a)) :
    ws = [.property r] := by
  unfold storeProperty at ran
  split at ran
  · cases ran
  split at ran
  · cases ran
  · cases ran
    rfl

theorem storeUnit_row {r a : UnitRow} (ran : storeUnit S s r = .ok (ws, a)) : ws = [.unit r] := by
  unfold storeUnit at ran
  split at ran
  · cases ran
  split at ran
  · cases ran
  · cases ran
    rfl

theorem storeTenant_row {r a : TenantRow} (ran : storeTenant S s r = .ok (ws, a)) :
    ws = [.tenant r] := by
  unfold storeTenant at ran
  split at ran
  · cases ran
  split at ran
  · cases ran
  · cases ran
    rfl

theorem createProperty_own (own : s.OwnReferences) {d : PropertyData} {a : PropertyRow}
    (ran : createProperty S s d = .ok (ws, a)) : (ws.foldl Row.apply s).OwnReferences := by
  unfold createProperty at ran
  split at ran
  · cases ran
  · rename_i taken
    have fresh : s.properties.find? d.id = none := by simpa using taken
    rw [storeProperty_row ran]
    exact own.grow { Dorm.Grown.refl s with properties := .add fresh trivial }

theorem updateProperty_own (own : s.OwnReferences) {id : Id} {d : PropertyPatch} {a : PropertyRow}
    (ran : updateProperty S c s id d = .ok (ws, a)) : (ws.foldl Row.apply s).OwnReferences := by
  unfold updateProperty at ran
  split at ran
  · cases ran
  · rename_i p found
    have stored : p ∈ s.properties.rows := Table.find?_mem (Option.filter_eq_some_iff.mp found).1
    rw [storeProperty_row ran]
    exact own.grow { Dorm.Grown.refl s with properties := .change stored rfl rfl trivial }

/-- A room is made in a property of its company. -/
theorem createUnit_own (own : s.OwnReferences) {d : UnitData} {a : UnitRow}
    (seen : s.properties.Owns (fun p => p.companyId) d.companyId d.propertyId)
    (ran : createUnit S s d = .ok (ws, a)) : (ws.foldl Row.apply s).OwnReferences := by
  unfold createUnit at ran
  split at ran
  · split at ran
    · cases ran
    · rename_i taken
      have fresh : s.units.find? d.id = none := by simpa using taken
      rw [storeUnit_row ran]
      exact own.grow { Dorm.Grown.refl s with units := .add fresh seen }
  · cases ran

/-- A room stays in its property, or moves to another one of its company. -/
theorem updateUnit_own (own : s.OwnReferences) {id : Id} {d : UnitPatch} {a : UnitRow}
    (seen : ∀ propertyId ∈ d.propertyId, s.properties.Owns (fun p => p.companyId) c propertyId)
    (ran : updateUnit S c s id d = .ok (ws, a)) : (ws.foldl Row.apply s).OwnReferences := by
  unfold updateUnit at ran
  split at ran
  · cases ran
  · rename_i u found
    obtain ⟨found, company⟩ := Option.filter_eq_some_iff.mp found
    have stored : u ∈ s.units.rows := Table.find?_mem found
    split at ran
    · rw [storeUnit_row ran]
      refine own.grow { Dorm.Grown.refl s with units := .change stored rfl rfl ?_ }
      change s.properties.Owns _ u.companyId (d.propertyId.getD u.propertyId)
      cases moved : d.propertyId with
      | none => exact own.units u stored
      | some propertyId =>
        rw [of_decide_eq_true company]
        exact seen propertyId moved
    · cases ran

theorem createTenant_own (own : s.OwnReferences) {d : TenantData} {a : TenantRow}
    (ran : createTenant S s d = .ok (ws, a)) : (ws.foldl Row.apply s).OwnReferences := by
  unfold createTenant at ran
  split at ran
  · cases ran
  · rename_i taken
    have fresh : s.tenants.find? d.id = none := by simpa using taken
    rw [storeTenant_row ran]
    exact own.grow { Dorm.Grown.refl s with tenants := .add fresh trivial }

theorem updateTenant_own (own : s.OwnReferences) {id : Id} {d : TenantPatch} {a : TenantRow}
    (ran : updateTenant S c s id d = .ok (ws, a)) : (ws.foldl Row.apply s).OwnReferences := by
  unfold updateTenant at ran
  split at ran
  · cases ran
  · rename_i t found
    have stored : t ∈ s.tenants.rows := Table.find?_mem (Option.filter_eq_some_iff.mp found).1
    rw [storeTenant_row ran]
    exact own.grow { Dorm.Grown.refl s with tenants := .change stored rfl rfl trivial }

/-- A slip is made for a payment of its company. -/
theorem createSlip_own (own : s.OwnReferences) {r a : Slip} (seen : s.OwnSlip r)
    (ran : createSlip S s r = .ok (ws, a)) : (ws.foldl Row.apply s).OwnReferences := by
  unfold createSlip at ran
  split at ran
  · cases ran
  split at ran
  · cases ran
  split at ran
  · cases ran
  · rename_i taken _
    have fresh : s.slips.find? r.id = none := by simpa using taken
    cases ran
    exact own.grow { Dorm.Grown.refl s with slips := .add fresh seen }

theorem updateInvoice_own {P : Pgcrypto} (own : s.OwnReferences) {id : Id}
    {dueDate : Option Instant} {a : Invoice}
    (ran : run S P c s (.invoiceUpdate id dueDate) = .ok (ws, a)) :
    (ws.foldl Row.apply s).OwnReferences := by
  rw [run] at ran
  split at ran
  · rename_i i seen
    have found : s.estate.books.invoices.find? id = some i :=
      (Option.filter_eq_some_iff.mp seen).1
    have stored := Table.find?_mem found
    obtain ⟨contract, unit, tenant, items⟩ := own.invoices i stored
    cases ran
    exact own.grow { Dorm.Grown.refl s with
      invoices := .change stored rfl rfl ⟨contract, unit, tenant, items⟩ }
  · cases ran

end statements

/-! ## Calls of these services -/

section calls
variable {S : Server} {P : Pgcrypto} {ctx : Ctx} {s : Dorm}

theorem prisma_reads {q : Query} {ws : List Row} {R : q.Ans → Prop}
    (reads : ∀ ws' a, run S P ctx.companyId (ws.foldl Row.apply s) q = .ok (ws', a) →
      ws' = [] ∧ R a) : (prisma ctx q).Reads (engine S P) s ws R :=
  Prog.Reads.query (σ := premises) (s := (⟨ctx.companyId, q⟩ : Statement)) reads

/-- A statement that only reads, and the rest of the part. -/
theorem silent_reads {q : Query} {α : Type} {g : q.Ans → Prog premises α} {ws : List Row}
    {R : α → Prop}
    (silent : ∀ ws' a, run S P ctx.companyId (ws.foldl Row.apply s) q = .ok (ws', a) → ws' = [])
    (rest : ∀ a, (g a).Reads (engine S P) s ws R) :
    (prisma ctx q >>= g).Reads (engine S P) s ws R :=
  .bind (P := fun _ => True) (prisma_reads fun ws' a ran => ⟨silent ws' a ran, trivial⟩)
    fun a _ => rest a

theorem orThrow_reads {α : Type} {ws : List Row} {R : α → Prop} (err : Failure) (found : Option α)
    (holds : ∀ a ∈ found, R a) : (orThrow err found).Reads (engine S P) s ws R := by
  cases found with
  | none => exact Prog.Reads.fail (σ := premises) err
  | some a => exact .ret (holds a rfl)

theorem encrypt_reads {ws : List Row} (text : Option String) :
    (PiiCryptoService.encrypt ctx text).Reads (engine S P) s ws fun _ => True := by
  cases text with
  | none => exact .ret trivial
  | some plaintext =>
    refine silent_reads (fun _ _ ran => by cases ran; rfl) fun ciphertext => ?_
    split
    · exact .fail _
    · exact .ret trivial

theorem decrypt_reads {ws : List Row} (text : Option String) :
    (PiiCryptoService.decrypt ctx text).Reads (engine S P) s ws fun _ => True := by
  cases text with
  | none => exact .ret trivial
  | some ciphertext =>
    refine silent_reads (fun _ _ ran => ?_) fun _ => .ret trivial
    rw [run] at ran
    split at ran
    · cases ran
      rfl
    · cases ran

theorem decryptRow_reads {ws : List Row} (row : TenantRow) :
    (TenantService.decryptRow ctx row).Reads (engine S P) s ws fun _ => True :=
  .bind (decrypt_reads row.nationalId) fun _ _ =>
    .bind (decrypt_reads row.phone) fun _ _ => .ret trivial

theorem PropertyService.getById_reads {ws : List Row} (id : Id) :
    (PropertyService.getById ctx id).Reads (engine S P) s ws fun _ => True :=
  silent_reads (fun _ _ ran => by cases ran; rfl) fun found =>
    orThrow_reads _ found fun _ _ => trivial

theorem UnitService.getById_reads {ws : List Row} (id : Id) :
    (UnitService.getById ctx id).Reads (engine S P) s ws fun _ => True :=
  silent_reads (fun _ _ ran => by cases ran; rfl) fun found =>
    orThrow_reads _ found fun _ _ => trivial

theorem TenantService.getById_reads {ws : List Row} (id : Id) :
    (TenantService.getById ctx id).Reads (engine S P) s ws fun _ => True :=
  silent_reads (fun _ _ ran => by cases ran; rfl) fun found =>
    .bind (orThrow_reads _ found fun _ _ => trivial) fun row _ => decryptRow_reads row

theorem InvoiceService.getById_reads {ws : List Row} (id : Id) :
    (InvoiceService.getById ctx id).Reads (engine S P) s ws fun _ => True :=
  silent_reads (fun _ _ ran => by cases ran; rfl) fun found =>
    orThrow_reads _ found fun _ _ => trivial

/-- A property that the call sees is its company's. -/
theorem assertPropertyVisible_reads (propertyId : Id) :
    (UnitService.assertPropertyVisible ctx propertyId).Reads (engine S P) s [] fun _ =>
      s.properties.Owns (fun p => p.companyId) ctx.companyId propertyId := by
  refine .bind (P := fun found => found = property? ctx.companyId s propertyId)
    (prisma_reads fun ws' a ran => ?_) fun found same => ?_
  · cases ran
    exact ⟨rfl, rfl⟩
  · subst same
    split
    · exact .fail _
    · rename_i p seen
      obtain ⟨found, company⟩ := Option.filter_eq_some_iff.mp seen
      exact .ret (Table.owns_of_find? found (of_decide_eq_true company))

/-- The rule for the statement that writes, at the end of a call. -/
theorem leaves_write {q : Query} {Q : Dorm → Prop} (undone : Q s)
    (stores : ∀ ws a, run S P ctx.companyId s q = .ok (ws, a) → Q (ws.foldl Row.apply s)) :
    (prisma ctx q).Leaves (engine S P) s [] Q :=
  Prog.Leaves.last (σ := premises) (s := (⟨ctx.companyId, q⟩ : Statement)) undone stores

theorem leaves_catch {α : Type} {p : Prog premises α} {taken : Failure → Bool}
    {error message : String} {Q : Dorm → Prop} (undone : Q s)
    (body : p.Leaves (engine S P) s [] Q) :
    (catchUnique taken error message p).Leaves (engine S P) s [] Q := by
  refine .attempt undone body fun err => ?_
  split
  · exact ⟨_, rfl⟩
  · exact ⟨_, rfl⟩

/-- A write that is then shown decrypted. -/
theorem leaves_shown {q : Query} {g : q.Ans → Prog premises TenantRow} {Q : Dorm → Prop}
    (undone : Q s) (shows : ∀ ws a, (g a).Reads (engine S P) s ws fun _ => True)
    (stores : ∀ ws a, run S P ctx.companyId s q = .ok (ws, a) → Q (ws.foldl Row.apply s)) :
    (prisma ctx q >>= g).Leaves (engine S P) s [] Q := by
  refine Prog.Leaves.query (σ := premises) (s := (⟨ctx.companyId, q⟩ : Statement)) undone
    fun ws a ran => ?_
  rw [← Prog.bind_pure (g a)]
  exact (shows _ a).before undone fun row _ => .ret row (stores ws a ran)

/-- A payment that the call sees is its company's. -/
theorem payment_reads (paymentId : Id) :
    (prisma ctx (.paymentFindUnique paymentId)).Reads (engine S P) s [] fun found =>
      ∀ a ∈ found, s.estate.books.payments.Owns Payment.companyId a.1.companyId a.1.id := by
  refine prisma_reads fun ws' found ran => ?_
  cases ran
  refine ⟨rfl, fun a answered => ?_⟩
  obtain ⟨p, seen, rfl⟩ := Option.map_eq_some_iff.mp answered
  have found : s.estate.books.payments.find? paymentId = some p :=
    (Option.filter_eq_some_iff.mp seen).1
  exact ⟨p, Table.find?_mem found, rfl, rfl⟩

theorem served_own {α : Type} {p : Prog premises α}
    (leaves : p.Leaves (engine S P) s [] Dorm.OwnReferences) :
    (PremisesCall.commit.serve S P s p).OwnReferences :=
  Prog.Leaves.serve (σ := premises) leaves _

/-- **The services of properties, rooms, tenants and slips** keep all references
inside. -/
theorem PremisesCall.commit_own (own : s.OwnReferences) (call : PremisesCall) :
    (call.commit S P ctx s).OwnReferences := by
  cases call with
  | createProperty newId input =>
    refine served_own ?_
    exact leaves_catch own (leaves_write own fun _ _ ran => createProperty_own own ran)
  | updateProperty id input =>
    refine served_own ?_
    refine (PropertyService.getById_reads id).before own fun _ _ => ?_
    exact leaves_catch own (leaves_write own fun _ _ ran => updateProperty_own own ran)
  | createUnit newId input =>
    refine served_own ?_
    refine (assertPropertyVisible_reads input.propertyId).before own fun _ seen => ?_
    exact leaves_catch own (leaves_write own fun _ _ ran => createUnit_own own seen ran)
  | updateUnit id input =>
    refine served_own ?_
    refine (UnitService.getById_reads id).before own fun _ _ => ?_
    have stores (seen : ∀ propertyId ∈ input.propertyId,
        s.properties.Owns (fun p => p.companyId) ctx.companyId propertyId) :
        (UnitService.catchNumberTaken (input.unitNumber.getD "undefined")
          (prisma ctx (.unitUpdate id input))).Leaves (engine S P) s [] Dorm.OwnReferences :=
      leaves_catch own (leaves_write own fun _ _ ran => updateUnit_own own seen ran)
    dsimp only
    split
    · rename_i stays
      exact stores (by simp [stays])
    · rename_i propertyId moves
      refine (assertPropertyVisible_reads propertyId).before own fun _ seen => stores ?_
      simpa [moves] using seen
  | createTenant newId input =>
    refine served_own ?_
    refine (encrypt_reads input.nationalId).before own fun nationalId _ => ?_
    refine (encrypt_reads input.phone).before own fun phone _ => ?_
    refine leaves_catch own (leaves_shown own (fun _ row => decryptRow_reads row) ?_)
    exact fun _ _ ran => createTenant_own own ran
  | updateTenant id input =>
    refine served_own ?_
    refine (TenantService.getById_reads id).before own fun _ _ => ?_
    refine (encrypt_reads input.nationalId).before own fun nationalId _ => ?_
    refine (encrypt_reads input.phone).before own fun phone _ => ?_
    refine leaves_catch own (leaves_shown own (fun _ row => decryptRow_reads row) ?_)
    exact fun _ _ ran => updateTenant_own own ran
  | registerSlip head newId paymentId input =>
    refine served_own ?_
    refine (payment_reads paymentId).before own fun found holds => ?_
    refine (orThrow_reads _ found holds).before own fun (payment, slip) seen => ?_
    dsimp only
    split
    · exact .fail _ own
    split
    · exact .fail _ own
    split
    · exact .fail _ own
    split
    · exact .fail _ own
    · exact .fail _ own
    split
    · exact .fail _ own
    · refine leaves_catch own (leaves_write own fun _ _ ran => ?_)
      exact createSlip_own (r := ⟨newId, payment.companyId, payment.id, _, _, _, _⟩) own seen ran
  | updateInvoice id input =>
    refine served_own ?_
    refine (InvoiceService.getById_reads id).before own fun _ _ => ?_
    split
    · exact .fail _ own
    · exact leaves_write own fun _ _ ran => updateInvoice_own own ran

end calls
end Dormitory.Premises
