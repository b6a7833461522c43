import Dormitory.LeasingParts

/-!
# The premises of one company

The rows of one company in all tables, and that the statements and the calls of the
services of properties, rooms, tenants and slips stay among them.
-/

namespace Dormitory.Premises
open Txn Leasing

section references
variable (home : Id → Id)

def Slip.Refers (l : Slip) : Prop := home l.paymentId = l.companyId

def TenantInvite.Refers (i : TenantInvite) : Prop :=
  home i.tenantId = i.companyId ∧ home i.createdByUserId = i.companyId

structure Dorm.Housed (s : Dorm) : Prop where
  properties : s.properties.Housed home (fun p => p.companyId) fun _ => True
  units : s.units.Housed home (fun u => u.companyId) fun u => u.toDormUnit.Refers home
  tenants : s.tenants.Housed home (fun t => t.companyId) fun _ => True
  slips : s.slips.Housed home Slip.companyId (Slip.Refers home)
  invites : s.invites.Housed home TenantInvite.companyId (TenantInvite.Refers home)
  estate : s.estate.Housed home

def Row.Own (c : Id) : Row → Prop
  | property r => r.companyId = c ∧ home r.id = c
  | unit r => r.companyId = c ∧ home r.id = c ∧ r.toDormUnit.Refers home
  | tenant r => r.companyId = c ∧ home r.id = c
  | slip r => r.companyId = c ∧ home r.id = c ∧ Slip.Refers home r
  | invoice r => (Dormitory.Row.invoice r).Own home c

/-- The data of an insert are of the company, and so is the property that a room
moves to. -/
def Query.Own (c : Id) : Query → Prop
  | propertyCreate d => d.companyId = c ∧ home d.id = c
  | unitCreate d => d.companyId = c ∧ home d.id = c ∧ home d.propertyId = c
  | unitUpdate _ d => ∀ p ∈ d.propertyId, home p = c
  | tenantCreate d => d.companyId = c ∧ home d.id = c
  | slipCreate r => (Row.slip r).Own home c
  | _ => True

def Statement.Own (c : Id) (s : Statement) : Prop := s.company = c ∧ s.query.Own home c

end references

/-- The rows of the company; rooms and tenants are here, and not in `books`. -/
def Dorm.part (c : Id) (s : Dorm) : Dorm where
  properties := s.properties.shard (fun p => p.companyId) c
  units := s.units.shard (fun u => u.companyId) c
  tenants := s.tenants.shard (fun t => t.companyId) c
  slips := s.slips.shard Slip.companyId c
  invites := s.invites.shard TenantInvite.companyId c
  estate :=
    let e := s.estate.part c
    { e with books := { e.books with units := default, tenants := default } }

section statements
variable {home : Id → Id} {S : Server} {P : Pgcrypto} {c : Id} {s : Dorm}

namespace Dorm
open Table

theorem leased_part : (s.part c).leased = s.leased.part c := by
  simp only [leased, Dorm.part, Estate.part, Db.part]
  congr 2
  · exact (shard_map (fun t : TenantRow => t.toTenant) (fun _ => rfl) fun _ => rfl).symm
  · exact (shard_map UnitRow.toDormUnit UnitRow.toDormUnit_key fun _ => rfl).symm

theorem estate_db_part {e : Estate} : (e.part c).db = e.db.part c := by
  simp only [Estate.db, Estate.part, Db.part]
  congr 1
  · exact (shard_map ContractRow.toContract (fun _ => rfl) fun _ => rfl).symm
  · exact (shard_map MeterRow.toMeter (fun _ => rfl) fun _ => rfl).symm
  · exact (shard_map ReadingRow.toReading (fun _ => rfl) fun _ => rfl).symm

@[simp] theorem db_part : (s.part c).db = s.db.part c := by
  rw [Dorm.db, leased_part, estate_db_part, Dorm.db]

@[simp] theorem property?_part (id : Id) : property? c (s.part c) id = property? c s id :=
  filter_find?_shard

@[simp] theorem unit?_part (id : Id) : unit? c (s.part c) id = unit? c s id :=
  filter_find?_shard

@[simp] theorem tenant?_part (id : Id) : tenant? c (s.part c) id = tenant? c s id :=
  filter_find?_shard

variable (housed : s.Housed home)
include housed

theorem Housed.leased : s.leased.Housed home :=
  { housed.estate with
    books := { housed.estate.books with
      units := housed.units.map UnitRow.toDormUnit UnitRow.toDormUnit_key (fun _ => rfl)
        fun _ refers => refers
      tenants := housed.tenants.map (fun t => t.toTenant) (fun _ => rfl) (fun _ => rfl)
        fun _ _ => trivial } }

theorem Housed.db : s.db.Housed home :=
  { housed.leased.books with
    contracts := housed.estate.contracts.map ContractRow.toContract (fun _ => rfl) (fun _ => rfl)
      fun _ refers => refers
    meters := housed.estate.meters.map MeterRow.toMeter (fun _ => rfl) (fun _ => rfl)
      fun _ refers => refers
    readings := housed.estate.readings.map ReadingRow.toReading (fun _ => rfl) (fun _ => rfl)
      fun _ refers => refers }

theorem Housed.apply {w : Row} (own : w.Own home c) : (w.apply s).Housed home := by
  cases w with
  | property r =>
    obtain ⟨mine, here⟩ := own
    exact { housed with properties := housed.properties.put (here.trans mine.symm) trivial }
  | unit r =>
    obtain ⟨mine, here, refers⟩ := own
    exact { housed with units := housed.units.put (here.trans mine.symm) refers }
  | tenant r =>
    obtain ⟨mine, here⟩ := own
    exact { housed with tenants := housed.tenants.put (here.trans mine.symm) trivial }
  | slip r =>
    obtain ⟨mine, here, refers⟩ := own
    exact { housed with slips := housed.slips.put (here.trans mine.symm) refers }
  | invoice r =>
    have own : (Dormitory.Row.invoice r).Own home c := own
    exact { housed with estate := { housed.estate with books := housed.estate.books.apply own } }

theorem Housed.apply_part {w : Row} (own : w.Own home c) :
    (w.apply s).part c = w.apply (s.part c) := by
  cases w with
  | property r =>
    obtain ⟨mine, here⟩ := own
    simp only [Row.apply, Dorm.part, housed.properties.shard_put (here.trans mine.symm) mine]
  | unit r =>
    obtain ⟨mine, here, -⟩ := own
    simp only [Row.apply, Dorm.part, housed.units.shard_put (here.trans mine.symm) mine]
  | tenant r =>
    obtain ⟨mine, here⟩ := own
    simp only [Row.apply, Dorm.part, housed.tenants.shard_put (here.trans mine.symm) mine]
  | slip r =>
    obtain ⟨mine, here, -⟩ := own
    simp only [Row.apply, Dorm.part, housed.slips.shard_put (here.trans mine.symm) mine]
  | invoice r =>
    have own : (Dormitory.Row.invoice r).Own home c := own
    simp only [Row.apply, Dorm.part, Estate.part, housed.estate.books.apply_part own]
    rfl

theorem Housed.apply_other {w : Row} {d : Id} (own : w.Own home c) (apart : c ≠ d) :
    (w.apply s).part d = s.part d := by
  cases w with
  | property r =>
    obtain ⟨rfl, here⟩ := own
    simp only [Row.apply, Dorm.part, housed.properties.shard_put_ne here apart]
  | unit r =>
    obtain ⟨rfl, here, -⟩ := own
    simp only [Row.apply, Dorm.part, housed.units.shard_put_ne here apart]
  | tenant r =>
    obtain ⟨rfl, here⟩ := own
    simp only [Row.apply, Dorm.part, housed.tenants.shard_put_ne here apart]
  | slip r =>
    obtain ⟨rfl, here, -⟩ := own
    simp only [Row.apply, Dorm.part, housed.slips.shard_put_ne here apart]
  | invoice r =>
    have own : (Dormitory.Row.invoice r).Own home c := own
    simp only [Row.apply, Dorm.part, Estate.part, housed.estate.books.apply_other own apart]

end Dorm

open Table

theorem storeProperty_part {r : PropertyRow} (mine : r.companyId = c) :
    storeProperty S (s.part c) r = storeProperty S s r := by
  have taken : SlugTaken (s.part c) r ↔ SlugTaken s r :=
    exists_shard fun _ _ holds => holds.1.trans mine
  simp only [storeProperty, taken]

theorem storeTenant_part {r : TenantRow} (mine : r.companyId = c) :
    storeTenant S (s.part c) r = storeTenant S s r := by
  have taken : LineTaken (s.part c) r ↔ LineTaken s r :=
    exists_congr fun l => and_congr_right fun _ => exists_shard fun _ _ holds =>
      holds.1.trans mine
  simp only [storeTenant, taken]

section
variable (housed : s.Housed home)
include housed

theorem storeUnit_part {r : UnitRow} (own : home r.propertyId = c) :
    storeUnit S (s.part c) r = storeUnit S s r := by
  have taken : NumberTaken (s.part c) r ↔ NumberTaken s r := by
    refine exists_shard fun u hu holds => ?_
    have refers : home u.propertyId = u.companyId := housed.units.rows u hu
    rw [← refers, holds.1, own]
  simp only [storeUnit, taken]

theorem unit_own {id : Id} {u : UnitRow} (found : unit? c s id = some u) :
    (Row.unit u).Own home c := by
  obtain ⟨stored, company⟩ := Option.filter_eq_some_iff.mp found
  simp only [decide_eq_true_eq] at company
  have mem := find?_mem stored
  exact ⟨company, (housed.units.keys u mem).trans company, housed.units.rows u mem⟩

omit housed in
/-- Where a patched room is. -/
theorem moved_own {d : UnitPatch} {u : UnitRow} (own : (Query.unitUpdate u.id d).Own home c)
    (refers : u.toDormUnit.Refers home) (mine : u.companyId = c) :
    home (d.propertyId.getD u.propertyId) = c := by
  cases named : d.propertyId with
  | none => exact refers.trans mine
  | some p => exact own p named

theorem createSlip_part {r : Slip} (own : (Row.slip r).Own home c) :
    createSlip S (s.part c) r = createSlip S s r := by
  obtain ⟨mine, here, refers⟩ := own
  have free : (s.part c).slips.find? r.id = s.slips.find? r.id := housed.slips.find? here
  have taken : (∃ l ∈ (s.part c).slips.rows, l.paymentId = r.paymentId) ↔
      ∃ l ∈ s.slips.rows, l.paymentId = r.paymentId := by
    refine exists_shard fun l hl same => ?_
    have theirs : home l.paymentId = l.companyId := housed.slips.rows l hl
    rw [← theirs, same, refers, mine]
  simp only [createSlip, free, taken]

/-- **A statement of a company's request answers from the company's rows.** -/
theorem run_part {q : Query} (own : q.Own home c) : run S P c (s.part c) q = run S P c s q := by
  cases q with
  | propertyCreate data =>
    have free : (s.part c).properties.find? data.id = s.properties.find? data.id :=
      housed.properties.find? own.2
    simp only [run, createProperty, free, storeProperty_part (r :=
      ⟨⟨data.id, data.companyId, data.name⟩, data.slug, data.address⟩) own.1]
  | propertyUpdate id data =>
    simp only [run, updateProperty, Dorm.property?_part]
    cases found : property? c s id with
    | none => rfl
    | some p =>
      have company := (Option.filter_eq_some_iff.mp found).2
      simp only [decide_eq_true_eq] at company
      exact storeProperty_part company
  | unitCreate data =>
    have free : (s.part c).units.find? data.id = s.units.find? data.id :=
      housed.units.find? own.2.1
    simp only [run, createUnit, free]
    cases Numeric.store 10 2 data.baseRent with
    | none => rfl
    | some baseRent =>
      cases storeOption 6 2 data.sizeSqm with
      | none => rfl
      | some sizeSqm =>
        dsimp only
        split
        · rfl
        · exact storeUnit_part housed own.2.2
  | unitUpdate id data =>
    simp only [run, updateUnit, Dorm.unit?_part]
    cases found : unit? c s id with
    | none => rfl
    | some u =>
      obtain ⟨mine, -, refers⟩ := unit_own housed found
      dsimp only
      cases storeOver u.baseRent data.baseRent with
      | none => rfl
      | some baseRent =>
        cases storeOption 6 2 data.sizeSqm with
        | none => rfl
        | some sizeSqm => exact storeUnit_part housed (moved_own own refers mine)
  | tenantCreate data =>
    have free : (s.part c).tenants.find? data.id = s.tenants.find? data.id :=
      housed.tenants.find? own.2
    simp only [run, createTenant, free]
    split
    · rfl
    · exact storeTenant_part own.1
  | tenantUpdate id data =>
    simp only [run, updateTenant, Dorm.tenant?_part]
    cases found : tenant? c s id with
    | none => rfl
    | some t =>
      have company := (Option.filter_eq_some_iff.mp found).2
      simp only [decide_eq_true_eq] at company
      exact storeTenant_part company
  | slipCreate r => exact createSlip_part housed own
  | paymentFindUnique id =>
    simp only [run, Dorm.db_part, Db.payment?_part]
    refine congrArg (fun f => Except.ok ([], Option.map f (s.db.payment? c id))) ?_
    funext p
    exact congrArg (Prod.mk p) (search_shard fun _ _ holds => holds.1)
  | propertyFindUnique id => simp only [run, Dorm.property?_part]
  | unitFindUnique id => simp only [run, Dorm.unit?_part]
  | tenantFindUnique id => simp only [run, Dorm.tenant?_part]
  | invoiceFindUnique id | invoiceUpdate id dueDate =>
    simp only [run, Dorm.db_part, Db.invoice?_part]
  | encrypt plaintext | decrypt ciphertext => rfl

/-- **A statement of a company's request writes rows of the company.** -/
theorem run_own {q : Query} {ws : List Row} {a : q.Ans} (own : q.Own home c)
    (ran : run S P c s q = .ok (ws, a)) : ∀ w ∈ ws, w.Own home c := by
  cases q with
  | propertyCreate data =>
    simp only [run, createProperty] at ran
    split at ran
    · cases ran
    · rw [storeProperty_row ran]
      exact fun w hw => List.mem_singleton.mp hw ▸ own
  | propertyUpdate id data =>
    simp only [run, updateProperty] at ran
    split at ran
    · cases ran
    · rename_i p found
      rw [storeProperty_row ran]
      intro w hw
      obtain rfl := List.mem_singleton.mp hw
      obtain ⟨stored, company⟩ := Option.filter_eq_some_iff.mp found
      simp only [decide_eq_true_eq] at company
      exact ⟨company, (housed.properties.keys p (find?_mem stored)).trans company⟩
  | unitCreate data =>
    obtain ⟨mine, here, property⟩ := own
    simp only [run, createUnit] at ran
    split at ran
    · split at ran
      · cases ran
      · rw [storeUnit_row ran]
        intro w hw
        obtain rfl := List.mem_singleton.mp hw
        exact ⟨mine, here, property.trans mine.symm⟩
    · cases ran
  | unitUpdate id data =>
    simp only [run, updateUnit] at ran
    split at ran
    · cases ran
    rename_i u found
    split at ran
    · rw [storeUnit_row ran]
      intro w hw
      obtain rfl := List.mem_singleton.mp hw
      obtain ⟨mine, here, refers⟩ := unit_own housed found
      exact ⟨mine, here, (moved_own own refers mine).trans mine.symm⟩
    · cases ran
  | tenantCreate data =>
    simp only [run, createTenant] at ran
    split at ran
    · cases ran
    · rw [storeTenant_row ran]
      exact fun w hw => List.mem_singleton.mp hw ▸ own
  | tenantUpdate id data =>
    simp only [run, updateTenant] at ran
    split at ran
    · cases ran
    · rename_i t found
      rw [storeTenant_row ran]
      intro w hw
      obtain rfl := List.mem_singleton.mp hw
      obtain ⟨stored, company⟩ := Option.filter_eq_some_iff.mp found
      simp only [decide_eq_true_eq] at company
      exact ⟨company, (housed.tenants.keys t (find?_mem stored)).trans company⟩
  | slipCreate r =>
    simp only [run, createSlip] at ran
    repeat (split at ran; · cases ran)
    cases ran
    exact fun w hw => List.mem_singleton.mp hw ▸ own
  | invoiceUpdate id dueDate =>
    simp only [run] at ran
    split at ran
    · rename_i i found
      cases ran
      intro w hw
      obtain rfl := List.mem_singleton.mp hw
      obtain ⟨mine, here, refers⟩ := Server.invoice_own housed.db found
      exact ⟨mine, here, refers.contract, refers.unit, refers.tenant, refers.items⟩
    · cases ran
  | decrypt ciphertext =>
    simp only [run] at ran
    split at ran
    · cases ran
      exact List.forall_mem_nil _
    · cases ran
  | propertyFindUnique | unitFindUnique | tenantFindUnique | paymentFindUnique | invoiceFindUnique
  | encrypt =>
    cases ran
    exact List.forall_mem_nil _

end

theorem premises_confined (home : Id → Id) (S : Server) (P : Pgcrypto) (c : Id) :
    Confined (engine S P) (Dorm.Housed home) (Statement.Own home c) (Row.Own home c) := by
  constructor
  · rintro ⟨company, q⟩ s ws a ⟨rfl, own⟩ housed ran
    exact run_own housed own ran
  · intro s w housed own
    exact housed.apply own

theorem premises_inside (home : Id → Id) (S : Server) (P : Pgcrypto) (c : Id) :
    Inside (engine S P) (Dorm.Housed home) (Statement.Own home c) (Row.Own home c)
      (Dorm.part c) := by
  constructor
  · rintro ⟨company, q⟩ s ⟨rfl, own⟩ housed
    exact run_part housed own
  · intro s w housed own
    exact housed.apply_part own

theorem premises_outside (home : Id → Id) (S : Server) (P : Pgcrypto) {c d : Id} (apart : c ≠ d) :
    Outside (engine S P) (Dorm.Housed home) (Row.Own home c) (Dorm.part d) :=
  fun _ _ housed own => housed.apply_other own apart

end statements

/-! ## The calls -/

section calls
variable {home : Id → Id} {S : Server} {P : Pgcrypto} {ctx : Ctx} {α : Type}

/-- All statements of the program are of the company, and what it returns is as `R`
says. -/
abbrev Own (home : Id → Id) (S : Server) (P : Pgcrypto) (c : Id) (R : α → Prop)
    (p : Prog premises α) : Prop :=
  p.Asks (engine S P) (Dorm.Housed home) (Statement.Own home c) R

theorem prisma_own {q : Query} (own : q.Own home ctx.companyId) :
    Own home S P ctx.companyId (fun _ => True) (prisma ctx q) :=
  Prog.Asks.query' (σ := premises) (s := (⟨ctx.companyId, q⟩ : Statement)) ⟨rfl, own⟩

theorem read_own {q : Query} {f : q.Ans → Prog premises α} {R : α → Prop}
    (own : q.Own home ctx.companyId) (rest : ∀ a, Own home S P ctx.companyId R (f a)) :
    Own home S P ctx.companyId R (prisma ctx q >>= f) :=
  (prisma_own own).bind fun a _ => rest a

theorem prisma_told {q : Query} {R : q.Ans → Prop} (own : q.Own home ctx.companyId)
    (told : ∀ s ws a, Dorm.Housed home s → run S P ctx.companyId s q = .ok (ws, a) → R a) :
    Own home S P ctx.companyId R (prisma ctx q) :=
  Prog.Asks.query (σ := premises) (s := (⟨ctx.companyId, q⟩ : Statement)) ⟨rfl, own⟩ told

theorem orThrow_own {R : α → Prop} (c : Id) (err : Failure) {row : Option α}
    (own : ∀ r ∈ row, R r) : Own home S P c R (orThrow err row) := by
  cases row with
  | none => trivial
  | some row => exact own row rfl

theorem catchUnique_own {taken : Failure → Bool} {error message : String} {c : Id}
    {p : Prog premises α} (own : Own home S P c (fun _ => True) p) :
    Own home S P c (fun _ => True) (catchUnique taken error message p) := by
  refine Prog.Asks.attempt own fun err => ?_
  split
  · trivial
  · trivial

namespace PropertyService

theorem create_own {newId : Id} {input : CreatePropertyInput}
    (drawn : home newId = ctx.companyId) :
    Own home S P ctx.companyId (fun _ => True) (create ctx newId input) :=
  catchUnique_own (prisma_own ⟨rfl, drawn⟩)

theorem getById_own (id : Id) : Own home S P ctx.companyId (fun _ => True) (getById ctx id) :=
  read_own trivial fun _ => orThrow_own _ _ fun _ _ => trivial

theorem update_own (id : Id) (input : PropertyPatch) :
    Own home S P ctx.companyId (fun _ => True) (update ctx id input) :=
  (getById_own id).bind fun _ _ => catchUnique_own (prisma_own trivial)

end PropertyService

namespace UnitService

theorem assertPropertyVisible_own (propertyId : Id) :
    Own home S P ctx.companyId (fun _ => home propertyId = ctx.companyId)
      (assertPropertyVisible ctx propertyId) := by
  have seen : Own home S P ctx.companyId
      (fun found : Option PropertyRow => ∀ p ∈ found, home propertyId = ctx.companyId)
      (prisma ctx (.propertyFindUnique propertyId)) := by
    refine prisma_told trivial fun s ws a housed ran p found => ?_
    cases ran
    obtain ⟨stored, company⟩ := Option.filter_eq_some_iff.mp found
    simp only [decide_eq_true_eq] at company
    rw [← Table.find?_key stored, housed.properties.keys p (Table.find?_mem stored), company]
  refine seen.bind fun found own => ?_
  cases found with
  | none => trivial
  | some p => exact own p rfl

theorem getById_own (id : Id) : Own home S P ctx.companyId (fun _ => True) (getById ctx id) :=
  read_own trivial fun _ => orThrow_own _ _ fun _ _ => trivial

theorem create_own {newId : Id} {input : CreateUnitInput} (drawn : home newId = ctx.companyId) :
    Own home S P ctx.companyId (fun _ => True) (create ctx newId input) :=
  (assertPropertyVisible_own input.propertyId).bind fun _ property =>
    catchUnique_own (prisma_own ⟨rfl, drawn, property⟩)

theorem update_own (id : Id) (input : UnitPatch) :
    Own home S P ctx.companyId (fun _ => True) (update ctx id input) := by
  refine (getById_own id).bind fun _ _ => ?_
  have update : (∀ p ∈ input.propertyId, home p = ctx.companyId) →
      Own home S P ctx.companyId (fun _ => True)
        (catchNumberTaken (input.unitNumber.getD "undefined")
          (prisma ctx (.unitUpdate id input))) :=
    fun property => catchUnique_own (prisma_own property)
  dsimp only
  cases moved : input.propertyId with
  | none => exact update fun p named => by rw [moved] at named; cases named
  | some propertyId =>
    refine (assertPropertyVisible_own propertyId).bind fun _ here => update fun p named => ?_
    rw [moved] at named
    cases named
    exact here

end UnitService

namespace PiiCryptoService

theorem encrypt_own (plaintext : Option String) :
    Own home S P ctx.companyId (fun _ => True) (encrypt ctx plaintext) := by
  cases plaintext with
  | none => trivial
  | some plaintext =>
    refine read_own trivial fun ciphertext => ?_
    split
    · trivial
    · trivial

theorem decrypt_own (ciphertext : Option String) :
    Own home S P ctx.companyId (fun _ => True) (decrypt ctx ciphertext) := by
  cases ciphertext with
  | none => trivial
  | some ciphertext => exact read_own trivial fun _ => trivial

end PiiCryptoService

namespace TenantService
open PiiCryptoService

theorem decryptRow_own (row : TenantRow) :
    Own home S P ctx.companyId (fun _ => True) (decryptRow ctx row) :=
  (decrypt_own _).bind fun _ _ => (decrypt_own _).bind fun _ _ => trivial

theorem create_own {newId : Id} {input : CreateTenantInput} (drawn : home newId = ctx.companyId) :
    Own home S P ctx.companyId (fun _ => True) (create ctx newId input) :=
  (encrypt_own _).bind fun _ _ => (encrypt_own _).bind fun _ _ =>
    catchUnique_own (read_own ⟨rfl, drawn⟩ decryptRow_own)

theorem update_own (id : Id) (input : TenantPatch) :
    Own home S P ctx.companyId (fun _ => True) (update ctx id input) := by
  have found : Own home S P ctx.companyId (fun _ => True) (getById ctx id) :=
    read_own trivial fun _ => (orThrow_own (R := fun _ => True) _ _ fun _ _ => trivial).bind
      fun row _ => decryptRow_own row
  exact found.bind fun _ _ => (encrypt_own _).bind fun _ _ => (encrypt_own _).bind fun _ _ =>
    catchUnique_own (read_own trivial decryptRow_own)

end TenantService

theorem SlipService.register_own {head : Except Failure (Option HeadObject)} {newId paymentId : Id}
    {input : UploadSlipInput} (drawn : home newId = ctx.companyId) :
    Own home S P ctx.companyId (fun _ => True) (register ctx head newId paymentId input) := by
  have seen : Own home S P ctx.companyId
      (fun found : Option (Payment × Option Slip) => ∀ p ∈ found,
        p.1.companyId = ctx.companyId ∧ home p.1.id = ctx.companyId)
      (prisma ctx (.paymentFindUnique paymentId)) := by
    refine prisma_told trivial fun s ws a housed ran p found => ?_
    cases ran
    obtain ⟨payment, stored, rfl⟩ := Option.map_eq_some_iff.mp found
    obtain ⟨stored, company⟩ := Option.filter_eq_some_iff.mp stored
    simp only [decide_eq_true_eq] at company
    exact ⟨company, (housed.db.payments.keys payment (Table.find?_mem stored)).trans company⟩
  refine seen.bind fun found own => (orThrow_own _ _ own).bind fun p holds => ?_
  obtain ⟨payment, slip⟩ := p
  obtain ⟨mine, here⟩ := holds
  dsimp only
  split
  · trivial
  split
  · trivial
  split
  · trivial
  cases head with
  | error err => trivial
  | ok head =>
    cases head with
    | none => trivial
    | some head =>
      dsimp only
      split
      · trivial
      · exact catchUnique_own (prisma_own ⟨mine, drawn, here.trans mine.symm⟩)

theorem InvoiceService.getById_own (id : Id) :
    Own home S P ctx.companyId (fun _ => True) (getById ctx id) :=
  read_own trivial fun _ => orThrow_own _ _ fun _ _ => trivial

theorem InvoiceService.update_own (id : Id) (input : UpdateInvoiceInput) :
    Own home S P ctx.companyId (fun _ => True) (update ctx id input) := by
  refine (getById_own id).bind fun _ _ => ?_
  split
  · trivial
  · exact prisma_own trivial

end calls
end Dormitory.Premises
