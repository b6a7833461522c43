import Dormitory.BatchRuns
import Dormitory.MeterService
import Dormitory.Txn.Serial

/-!
# Readings on bills

Which invoices point at a meter reading. A reading belongs to a meter of a room
and a period, the slot that a batch fills to a contract and a period; what
follows relates the two over every sequence of contracts made and changed,
meters and readings entered, batches and voided invoices.
-/

namespace Dormitory
open Txn

/-- An item of the invoice charges the reading. -/
def Invoice.Bills (i : Invoice) (readingId : Id) : Prop :=
  ∃ it ∈ i.items, it.readingId = some readingId

instance (i : Invoice) (readingId : Id) : Decidable (i.Bills readingId) :=
  inferInstanceAs (Decidable (∃ it ∈ i.items, it.readingId = some readingId))

namespace Db
variable (db : Db)

/-- A reading for the period, of a meter in the room, both of company `c`. -/
def RoomReading (c : Id) (period : Period) (unitId readingId : Id) : Prop :=
  ∃ r ∈ db.readings.rows, (r.id = readingId ∧ r.companyId = c ∧ r.period = period) ∧
    ∃ m ∈ db.meters.rows, m.id = r.meterId ∧ m.companyId = c ∧ m.unitId = unitId

/-- A room has one meter of a kind, and a meter one reading for a period. -/
structure UniqueReadings : Prop where
  meters : ∀ m ∈ db.meters.rows, ∀ m' ∈ db.meters.rows,
    m.unitId = m'.unitId → m.kind = m'.kind → m = m'
  readings : ∀ r ∈ db.readings.rows, ∀ r' ∈ db.readings.rows,
    r.meterId = r'.meterId → r.period = r'.period → r = r'

/-- No reading is on two invoices that are not void. -/
def BilledOnce : Prop :=
  ∀ i ∈ db.invoices.rows, ∀ i' ∈ db.invoices.rows, i.status ≠ .void → i'.status ≠ .void →
    ∀ readingId, i.Bills readingId → i'.Bills readingId → i = i'

open InvoiceService in
/-- Two contracts share a room with a reading for the period: the batch bills
both of them, or bills one where another one's invoice has the reading. -/
def SharedRoom (ctx : Ctx) (input : BatchGenerateInvoicesInput) : Prop :=
  ∃ k ∈ billable ctx input db, ∃ r ∈ db.readings.rows,
    db.RoomReading ctx.companyId input.period k.1.unitId r.id ∧
      ((∃ k' ∈ billable ctx input db, k'.1.unitId = k.1.unitId ∧ k'.1.id ≠ k.1.id) ∨
        ∃ i ∈ db.invoices.rows, i.unitId = k.1.unitId ∧ i.period = input.period ∧
          i.contractId ≠ k.1.id ∧ i.status ≠ .void ∧ i.Bills r.id)

instance (c : Id) (period : Period) (unitId readingId : Id) :
    Decidable (db.RoomReading c period unitId readingId) :=
  inferInstanceAs (Decidable (∃ r ∈ db.readings.rows, _ ∧ ∃ m ∈ db.meters.rows, _))

instance (ctx : Ctx) (input : BatchGenerateInvoicesInput) : Decidable (db.SharedRoom ctx input) :=
  inferInstanceAs (Decidable (∃ k ∈ InvoiceService.billable ctx input db, ∃ r ∈ db.readings.rows,
    _ ∧ ((∃ k' ∈ InvoiceService.billable ctx input db, _) ∨ ∃ i ∈ db.invoices.rows, _)))

variable {db}

theorem RoomReading.stored {c : Id} {period : Period} {unitId readingId : Id}
    (h : db.RoomReading c period unitId readingId) : ∃ r ∈ db.readings.rows, r.id = readingId :=
  let ⟨r, hr, ⟨id, _⟩, _⟩ := h
  ⟨r, hr, id⟩

/-- The reading's meter says which room it is of. -/
theorem RoomReading.unique {c c' : Id} {period period' : Period} {unitId unitId' readingId : Id}
    (h : db.RoomReading c period unitId readingId)
    (h' : db.RoomReading c' period' unitId' readingId) :
    c = c' ∧ period = period' ∧ unitId = unitId' := by
  obtain ⟨r, hr, ⟨rfl, rfl, rfl⟩, m, hm, read, -, rfl⟩ := h
  obtain ⟨r', hr', ⟨id, rfl, rfl⟩, m', hm', read', -, rfl⟩ := h'
  obtain rfl : r' = r := db.readings.key_inj hr' hr id
  obtain rfl : m' = m := db.meters.key_inj hm' hm (read'.trans read.symm)
  exact ⟨rfl, rfl, rfl⟩

end Db

/-! ## What a batch charges -/

namespace InvoiceService
section charges
variable {ctx : Ctx} {input : BatchGenerateInvoicesInput} {queueUp : Nat → Bool} {db : Db}

theorem mem_unitMeters {k : Contract × DormUnit}
    (hk : k ∈ contracts ctx input ⟨fun _ => db, queueUp⟩) {m : Meter} :
    m ∈ (meters ctx input ⟨fun _ => db, queueUp⟩).filter (fun m => m.unitId = k.1.unitId) ↔
      m ∈ db.meters.rows ∧ m.companyId = ctx.companyId ∧ m.unitId = k.1.unitId := by
  simp only [meters, List.mem_filter, decide_eq_true_eq]
  constructor
  · rintro ⟨⟨stored, company, -⟩, room⟩
    exact ⟨stored, company, room⟩
  · rintro ⟨stored, company, room⟩
    exact ⟨⟨stored, company, room ▸ List.mem_map.mpr ⟨k, hk, rfl⟩⟩, room⟩

/-- The items of a bill charge the readings of its room. -/
theorem itemsFor_charges (unique : db.UniqueReadings)
    {k : Contract × DormUnit} (hk : k ∈ contracts ctx input ⟨fun _ => db, queueUp⟩)
    (readingId : Id) :
    (∃ it ∈ itemsFor ctx input queueUp db k, it.readingId = some readingId) ↔
      db.RoomReading ctx.companyId input.period k.1.unitId readingId := by
  rw [itemsFor, buildBatchItems_readings]
  constructor
  · rintro ⟨m, r, ⟨first, read⟩, rfl⟩
    obtain ⟨stored, company, room⟩ := (mem_unitMeters hk).mp (List.mem_of_find?_eq_some first)
    have known := readingOf_mem read
    simp only [readings, List.mem_filter, decide_eq_true_eq] at known
    obtain ⟨known, own, -, period⟩ := known
    exact ⟨r, known, ⟨rfl, own, period⟩, m, stored, (readingOf_meter read).symm, company, room⟩
  · rintro ⟨r, known, ⟨rfl, own, period⟩, m, stored, read, company, room⟩
    have mem := (mem_unitMeters hk).mpr ⟨stored, company, room⟩
    have listed : r ∈ readings ctx input ⟨fun _ => db, queueUp⟩ := by
      simp only [readings, List.mem_filter, decide_eq_true_eq]
      exact ⟨known, own, List.mem_map.mpr ⟨m, (List.mem_filter.mp mem).1, read⟩, period⟩
    refine ⟨m, r, ⟨?_, ?_⟩, rfl⟩
    · obtain ⟨m', first⟩ : ∃ m', List.find? (fun m' : Meter => m'.kind = m.kind) _ = some m' :=
        Option.isSome_iff_exists.mp (List.find?_isSome.mpr ⟨m, mem, by simp⟩)
      have kind : m'.kind = m.kind := by simpa using List.find?_some first
      obtain ⟨stored', -, room'⟩ := (mem_unitMeters hk).mp (List.mem_of_find?_eq_some first)
      rw [first, unique.meters m' stored' m stored (room'.trans room.symm) kind]
    · obtain ⟨r', last⟩ : ∃ r', readingOf (readings ctx input ⟨fun _ => db, queueUp⟩) m.id =
          some r' :=
        Option.isSome_iff_exists.mp
          (List.find?_isSome.mpr ⟨r, List.mem_reverse.mpr listed, by simp [read]⟩)
      have known' := readingOf_mem last
      simp only [readings, List.mem_filter, decide_eq_true_eq] at known'
      have meter : r'.meterId = r.meterId := (readingOf_meter last).trans read
      have same := unique.readings r' known'.1 r known meter (known'.2.2.2.trans period.symm)
      exact same ▸ last

/-- The invoice is the bill of the contract. -/
structure Charges (ctx : Ctx) (newId : Id → Id) (input : BatchGenerateInvoicesInput) (db : Db)
    (k : Contract × DormUnit) (i : Invoice) : Prop where
  id : i.id = newId k.1.id
  companyId : i.companyId = ctx.companyId
  contractId : i.contractId = k.1.id
  unitId : i.unitId = k.1.unitId
  period : i.period = input.period
  status : i.status = .draft
  bills : ∀ readingId, i.Bills readingId ↔
    db.RoomReading ctx.companyId input.period k.1.unitId readingId

/-- `db'` has the bills of all billable contracts besides the old invoices. -/
def Charged (ctx : Ctx) (newId : Id → Id) (input : BatchGenerateInvoicesInput) (db db' : Db) :
    Prop :=
  ∃ made, (∀ i, i ∈ db'.invoices.rows ↔ i ∈ db.invoices.rows ∨ i ∈ made) ∧
    List.Forall₂ (Charges ctx newId input db) (billable ctx input db) made

/-- **One run** adds the bills of all billable contracts, or changes nothing. -/
theorem createBatch_charges (S : Server) (ctx : Ctx) (queueUp : Nat → Bool) (newId : Id → Id)
    (now : Instant) (input : BatchGenerateInvoicesInput) (unique : db.UniqueReadings)
    (injective : Function.Injective newId)
    (unused : ∀ c, db.invoices.find? (newId c) = none) :
    let db' := (⟨ctx, queueUp, .createBatch newId now input⟩ : InvoicingRequest).commit S db
    if ∀ d ∈ planned ctx newId now input ⟨fun _ => db, queueUp⟩, d.Ready db then
      Charged ctx newId input db db'
    else db' = db := by
  intro db'
  split
  · rename_i ready
    obtain ⟨-, made, written, all⟩ := createBatch_ready (S := S) injective unused ready
    rw [planned_eq unique.meters, List.forall₂_map_left_iff] at all
    have each : ∀ k ∈ billable ctx input db, k ∈ scope ctx.companyId input.propertyId db :=
      fun k hk => (mem_billable.mp hk).1
    have charged := ((List.forall₂_and_left _ _).mpr ⟨each, all⟩).imp
      fun k i ⟨hk, makes⟩ => (⟨makes.id, makes.companyId, makes.contractId, makes.unitId,
        makes.period, makes.status, fun readingId => (stored_readings makes.items readingId).trans
          (itemsFor_charges unique hk readingId)⟩ : Charges ctx newId input db k i)
    refine ⟨made, fun i => ?_, charged⟩
    have committed : db' = (made.map Row.invoice).foldl Row.apply db :=
      congrArg (List.foldl Row.apply db) written
    rw [committed]
    exact mem_made (billable_sublist ctx input db) injective unused
      (charged.imp fun _ _ charges => charges.id) i
  · rename_i unready
    exact congrArg (List.foldl Row.apply db) (createBatch_unready injective unused unready)

variable {newId : Id → Id} {db' : Db}

/-- A new bill of a room has a reading that the bill of another contract has. -/
theorem Charges.shared {k : Contract × DormUnit} {i i' : Invoice}
    (charges : Charges ctx newId input db k i) (hk : k ∈ billable ctx input db)
    (old : i' ∈ db.invoices.rows)
    (items : ∀ readingId, i'.Bills readingId →
      db.RoomReading i'.companyId i'.period i'.unitId readingId)
    (open' : i'.status ≠ .void) {readingId : Id} (bills : i.Bills readingId)
    (bills' : i'.Bills readingId) : db.SharedRoom ctx input := by
  have room := (charges.bills readingId).mp bills
  obtain ⟨company, period, unit⟩ := (items readingId bills').unique room
  obtain ⟨r, hr, rfl⟩ := room.stored
  refine ⟨k, hk, r, hr, room, .inr ⟨i', old, unit, period, fun same => ?_, open', bills'⟩⟩
  have unbilled := (Db.skipReason_eq_none.mp (mem_billable.mp hk).2).unbilled
  exact unbilled ⟨i', old, company, same, period, open'⟩

/-- Two new bills with one reading are bills of one room. -/
theorem Charges.same_room {k k' : Contract × DormUnit} {i i' : Invoice}
    (charges : Charges ctx newId input db k i) (charges' : Charges ctx newId input db k' i')
    {readingId : Id} (bills : i.Bills readingId) (bills' : i'.Bills readingId) :
    k'.1.unitId = k.1.unitId :=
  (((charges'.bills readingId).mp bills').unique ((charges.bills readingId).mp bills)).2.2

/-- A shared room has its reading on two bills. -/
theorem Charged.twice (charged : Charged ctx newId input db db')
    (shared : db.SharedRoom ctx input) : ¬ db'.BilledOnce := by
  intro once
  obtain ⟨made, invoices, all⟩ := charged
  obtain ⟨k, hk, r, -, room, other⟩ := shared
  obtain ⟨i, hi, charges⟩ := exists_made all hk
  have mem := (invoices i).mpr (.inr hi)
  have live : i.status ≠ .void := by simp [charges.status]
  have bills := (charges.bills r.id).mpr room
  rcases other with ⟨k', hk', unit, apart⟩ | ⟨i', old, -, -, apart, live', bills'⟩
  · obtain ⟨i', hi', charges'⟩ := exists_made all hk'
    have live' : i'.status ≠ .void := by simp [charges'.status]
    have bills' := (charges'.bills r.id).mpr (unit ▸ room)
    have same := once i mem i' ((invoices i').mpr (.inr hi')) live live' r.id bills bills'
    exact apart (charges'.contractId.symm.trans (same ▸ charges.contractId))
  · have same := once i mem i' ((invoices i').mpr (.inl old)) live live' r.id bills bills'
    exact apart (same ▸ charges.contractId)

/-- Without one, every reading is still on one bill at most. -/
theorem Charged.once (charged : Charged ctx newId input db db') (once : db.BilledOnce)
    (items : ∀ i ∈ db.invoices.rows, ∀ readingId, i.Bills readingId →
      db.RoomReading i.companyId i.period i.unitId readingId)
    (alone : ¬ db.SharedRoom ctx input) : db'.BilledOnce := by
  obtain ⟨made, invoices, all⟩ := charged
  intro i hi i' hi' live live' readingId bills bills'
  rcases (invoices i).mp hi with old | new
  · rcases (invoices i').mp hi' with old' | new'
    · exact once i old i' old' live live' readingId bills bills'
    · obtain ⟨k, hk, charges⟩ := exists_source all new'
      exact absurd (charges.shared hk old (items i old) live bills' bills) alone
  · obtain ⟨k, hk, charges⟩ := exists_source all new
    rcases (invoices i').mp hi' with old' | new'
    · exact absurd (charges.shared hk old' (items i' old') live' bills bills') alone
    · obtain ⟨k', hk', charges'⟩ := exists_source all new'
      have contract : k'.1.id = k.1.id := by
        by_contra apart
        have room := (charges.bills readingId).mp bills
        obtain ⟨r, hr, rfl⟩ := room.stored
        exact alone ⟨k, hk, r, hr, room,
          .inl ⟨k', hk', charges.same_room charges' bills bills', apart⟩⟩
      refine Table.key_inj _ hi hi' ?_
      exact charges.id.trans (contract ▸ charges'.id.symm)

end charges
end InvoiceService

/-! ## What contracts, meters and readings keep -/

namespace Leasing

theorem Estate.mem_meters {e : Estate} {m : Meter} :
    m ∈ e.db.meters.rows ↔ ∃ row ∈ e.meters.rows, row.toMeter = m := List.mem_map

theorem Estate.mem_readings {e : Estate} {r : Reading} :
    r ∈ e.db.readings.rows ↔ ∃ row ∈ e.readings.rows, row.toReading = r := List.mem_map

@[simp] theorem Estate.db_invoices (e : Estate) : e.db.invoices = e.books.invoices := rfl

/-- The unique indexes of meters and readings, and what bills point at. -/
structure Estate.Sound (e : Estate) : Prop where
  meters : e.meters.UniqueOn fun m => (m.unitId, m.kind)
  readings : e.readings.UniqueOn fun r => (r.meterId, r.period)
  items : ∀ i ∈ e.books.invoices.rows, ∀ readingId, i.Bills readingId →
    e.db.RoomReading i.companyId i.period i.unitId readingId

namespace Estate.Sound
variable {e : Estate} (sound : e.Sound)
include sound

theorem unique : e.db.UniqueReadings where
  meters := by
    intro m hm m' hm' unit kind
    obtain ⟨row, hrow, rfl⟩ := mem_meters.mp hm
    obtain ⟨row', hrow', rfl⟩ := mem_meters.mp hm'
    rw [sound.meters row hrow row' hrow' (Prod.ext unit kind)]
  readings := by
    intro r hr r' hr' meter period
    obtain ⟨row, hrow, rfl⟩ := mem_readings.mp hr
    obtain ⟨row', hrow', rfl⟩ := mem_readings.mp hr'
    rw [sound.readings row hrow row' hrow' (Prod.ext meter period)]

end Estate.Sound

/-- What a statement writes: nothing, a contract, a new meter or reading whose
index entry is free, or a stored one that stays where it is. -/
inductive Writes (e : Estate) : List Row → Prop
  | nothing : Writes e []
  | contract (k : ContractRow) : Writes e [.contract k]
  | newMeter (m : MeterRow) (fresh : e.meters.find? m.id = none)
      (free : ∀ m' ∈ e.meters.rows, ¬(m'.unitId = m.unitId ∧ m'.kind = m.kind)) :
      Writes e [.meter m]
  | meter (m m' : MeterRow) (stored : m ∈ e.meters.rows) (id : m'.id = m.id)
      (companyId : m'.companyId = m.companyId) (unitId : m'.unitId = m.unitId)
      (kind : m'.kind = m.kind) : Writes e [.meter m']
  | newReading (r : ReadingRow) (fresh : e.readings.find? r.id = none)
      (free : ∀ r' ∈ e.readings.rows, ¬(r'.meterId = r.meterId ∧ r'.period = r.period)) :
      Writes e [.reading r]
  | reading (r r' : ReadingRow) (stored : r ∈ e.readings.rows) (id : r'.id = r.id)
      (companyId : r'.companyId = r.companyId) (meterId : r'.meterId = r.meterId)
      (period : r'.period = r.period) : Writes e [.reading r']

section statements
variable {S : Server} {c : Id} {e : Estate}

theorem meter?_mem {id : Id} {m : MeterRow} (h : meter? c e id = some m) : m ∈ e.meters.rows :=
  Table.find?_mem (Option.filter_eq_some_iff.mp h).1

theorem reading?_mem {id : Id} {r : ReadingRow} (h : reading? c e id = some r) :
    r ∈ e.readings.rows :=
  Table.find?_mem (Option.filter_eq_some_iff.mp h).1

theorem reading?_id {id : Id} {r : ReadingRow} (h : reading? c e id = some r) : r.id = id :=
  Table.find?_key (Option.filter_eq_some_iff.mp h).1

theorem createContract_row {d : ContractData} {ws : List Row} {a : ContractRow}
    (ran : createContract S e d = .ok (ws, a)) :
    ws = [.contract a] ∧ e.contracts.find? d.id = none ∧ a.id = d.id ∧ a.companyId = d.companyId ∧
      a.unitId = d.unitId ∧ a.tenantId = d.tenantId ∧ a.startDate = d.startDate ∧
      a.endDate = d.endDate ∧ a.status = d.status := by
  unfold createContract at ran
  split at ran
  · split at ran
    · cases ran
    split at ran
    · cases ran
    · rename_i fresh
      cases ran
      exact ⟨rfl, by simpa using fresh, rfl, rfl, rfl, rfl, rfl, rfl, rfl⟩
  · cases ran

theorem updateContract_row {id : Id} {d : ContractPatch} {ws : List Row} {a : ContractRow}
    (ran : updateContract c e id d = .ok (ws, a)) :
    ws = [.contract a] ∧ ∃ k, contract? c e id = some k ∧ a = d.apply k := by
  unfold updateContract at ran
  split at ran
  · cases ran
  · rename_i k found
    split at ran
    · cases ran
    · cases ran
      exact ⟨rfl, k, found, rfl⟩

theorem createMeter_row {d : MeterData} {ws : List Row} {a : MeterRow}
    (ran : createMeter S e d = .ok (ws, a)) :
    ws = [.meter a] ∧ e.meters.find? a.id = none ∧
      (∀ m ∈ e.meters.rows, ¬(m.unitId = a.unitId ∧ m.kind = a.kind)) ∧
      a.companyId = d.companyId ∧ a.unitId = d.unitId := by
  unfold createMeter at ran
  split at ran
  · cases ran
  split at ran
  · cases ran
  split at ran
  · cases ran
  split at ran
  · cases ran
  · rename_i fresh free
    cases ran
    exact ⟨rfl, by simpa using fresh, fun m hm taken => free ⟨m, hm, taken⟩, rfl, rfl⟩

theorem updateMeter_row {id : Id} {d : MeterPatch} {ws : List Row} {a : MeterRow}
    (ran : updateMeter c e id d = .ok (ws, a)) :
    ws = [.meter a] ∧ ∃ m ∈ e.meters.rows,
      a.id = m.id ∧ a.companyId = m.companyId ∧ a.unitId = m.unitId ∧ a.kind = m.kind := by
  unfold updateMeter at ran
  split at ran
  · cases ran
  · rename_i m found
    split at ran
    · cases ran
    split at ran
    · cases ran
    · cases ran
      exact ⟨rfl, m, meter?_mem found, rfl, rfl, rfl, rfl⟩

theorem createReading_row {d : ReadingData} {ws : List Row} {a : ReadingRow}
    (ran : createReading S e d = .ok (ws, a)) :
    ws = [.reading a] ∧ e.readings.find? a.id = none ∧
      (∀ r ∈ e.readings.rows, ¬(r.meterId = a.meterId ∧ r.period = a.period)) ∧
      a.companyId = d.companyId ∧ a.meterId = d.meterId ∧ a.period = d.period := by
  unfold createReading at ran
  split at ran
  · split at ran
    · cases ran
    split at ran
    · cases ran
    split at ran
    · cases ran
    · rename_i fresh free
      cases ran
      exact ⟨rfl, by simpa using fresh, fun r hr taken => free ⟨r, hr, taken⟩, rfl, rfl, rfl⟩
  · cases ran

theorem updateReading_row {id : Id} {d : ReadingPatch} {ws : List Row} {a : ReadingRow}
    (ran : updateReading c e id d = .ok (ws, a)) :
    ws = [.reading a] ∧ a.id = id ∧ ∃ r ∈ e.readings.rows,
      a.id = r.id ∧ a.companyId = r.companyId ∧ a.meterId = r.meterId ∧ a.period = r.period := by
  unfold updateReading at ran
  split at ran
  · cases ran
  · rename_i r found
    split at ran
    · split at ran
      · cases ran
      · cases ran
        have named := reading?_id found
        exact ⟨rfl, named, r, reading?_mem found, rfl, rfl, rfl, rfl⟩
    · cases ran

theorem run_writes {q : Query} {ws : List Row} {a : q.Ans} (ran : run S c e q = .ok (ws, a)) :
    Writes e ws := by
  cases q with
  | unitFindUnique | tenantFindUnique | contractFindUnique | contractFindOverlap | meterFindUnique
  | readingFindUnique | readingFindPrior =>
    cases ran
    exact .nothing
  | contractCreate data =>
    obtain ⟨rfl, -⟩ := createContract_row ran
    exact .contract a
  | contractUpdate id data =>
    obtain ⟨rfl, -⟩ := updateContract_row ran
    exact .contract a
  | meterCreate data =>
    obtain ⟨rfl, fresh, free, -⟩ := createMeter_row ran
    exact .newMeter a fresh free
  | meterUpdate id data =>
    obtain ⟨rfl, m, stored, id, companyId, unitId, kind⟩ := updateMeter_row ran
    exact .meter m a stored id companyId unitId kind
  | readingCreate data =>
    obtain ⟨rfl, fresh, free, -⟩ := createReading_row ran
    exact .newReading a fresh free
  | readingUpdate id data =>
    obtain ⟨rfl, -, r, stored, id, companyId, meterId, period⟩ := updateReading_row ran
    exact .reading r a stored id companyId meterId period

end statements

/-- A meter or reading is looked up by these columns, which no service changes. -/
def SameMeter (m m' : MeterRow) : Prop :=
  m'.id = m.id ∧ m'.companyId = m.companyId ∧ m'.unitId = m.unitId

def SameReading (r r' : ReadingRow) : Prop :=
  r'.id = r.id ∧ r'.companyId = r.companyId ∧ r'.meterId = r.meterId ∧ r'.period = r.period

theorem Estate.roomReading_mono {e e' : Estate}
    (meters : ∀ m ∈ e.meters.rows, ∃ m' ∈ e'.meters.rows, SameMeter m m')
    (readings : ∀ r ∈ e.readings.rows, ∃ r' ∈ e'.readings.rows, SameReading r r')
    {c : Id} {period : Period} {unitId readingId : Id}
    (h : e.db.RoomReading c period unitId readingId) :
    e'.db.RoomReading c period unitId readingId := by
  obtain ⟨_, hr, ⟨rfl, rfl, rfl⟩, _, hm, read, company, rfl⟩ := h
  obtain ⟨r, row, rfl⟩ := mem_readings.mp hr
  obtain ⟨m, row', rfl⟩ := mem_meters.mp hm
  obtain ⟨r', hr', id, own, meter, period⟩ := readings r row
  obtain ⟨m', hm', id', own', unit⟩ := meters m row'
  exact ⟨r'.toReading, mem_readings.mpr ⟨r', hr', rfl⟩, ⟨id, own, period⟩, m'.toMeter,
    mem_meters.mpr ⟨m', hm', rfl⟩, id'.trans (read.trans meter.symm), own'.trans company, unit⟩

theorem Estate.Sound.mono {e e' : Estate} (sound : e.Sound) (books : e'.books = e.books)
    (meters : e'.meters.UniqueOn fun m => (m.unitId, m.kind))
    (readings : e'.readings.UniqueOn fun r => (r.meterId, r.period))
    (metersKept : ∀ m ∈ e.meters.rows, ∃ m' ∈ e'.meters.rows, SameMeter m m')
    (readingsKept : ∀ r ∈ e.readings.rows, ∃ r' ∈ e'.readings.rows, SameReading r r') :
    e'.Sound := by
  refine ⟨meters, readings, fun i hi readingId bills => ?_⟩
  rw [books] at hi
  exact roomReading_mono metersKept readingsKept (sound.items i hi readingId bills)

theorem Estate.Sound.putMeter {e : Estate} (sound : e.Sound) (m : MeterRow)
    (apart : ∀ x ∈ e.meters.rows, (x.unitId, x.kind) = (m.unitId, m.kind) → x.id = m.id)
    (replaces : ∀ x ∈ e.meters.rows, x.id = m.id → SameMeter x m) :
    ({ e with meters := e.meters.put m } : Estate).Sound :=
  sound.mono rfl (sound.meters.put apart) sound.readings
    (Table.put_keeps (fun _ => ⟨rfl, rfl, rfl⟩) replaces)
    fun r hr => ⟨r, hr, rfl, rfl, rfl, rfl⟩

theorem Estate.Sound.putReading {e : Estate} (sound : e.Sound) (r : ReadingRow)
    (apart : ∀ x ∈ e.readings.rows, (x.meterId, x.period) = (r.meterId, r.period) → x.id = r.id)
    (replaces : ∀ x ∈ e.readings.rows, x.id = r.id → SameReading x r) :
    ({ e with readings := e.readings.put r } : Estate).Sound :=
  sound.mono rfl sound.meters (sound.readings.put apart)
    (fun m hm => ⟨m, hm, rfl, rfl, rfl⟩)
    (Table.put_keeps (fun _ => ⟨rfl, rfl, rfl, rfl⟩) replaces)

/-- A statement of the services keeps the estate sound and the books as they are. -/
theorem Writes.sound {e : Estate} {ws : List Row} (writes : Writes e ws) (sound : e.Sound) :
    (ws.foldl Row.apply e).Sound ∧ (ws.foldl Row.apply e).books = e.books := by
  cases writes with
  | nothing => exact ⟨sound, rfl⟩
  | contract k =>
    exact ⟨sound.mono rfl sound.meters sound.readings (fun m hm => ⟨m, hm, rfl, rfl, rfl⟩)
      fun r hr => ⟨r, hr, rfl, rfl, rfl, rfl⟩, rfl⟩
  | newMeter m fresh free =>
    refine ⟨sound.putMeter m (fun x hx same => ?_) (fun x hx same => ?_), rfl⟩
    · exact absurd (Prod.mk.inj same) (free x hx)
    · exact absurd (List.mem_map.mpr ⟨x, hx, same⟩) (Table.find?_eq_none_iff.mp fresh)
  | meter m m' stored id companyId unitId kind =>
    refine ⟨sound.putMeter m' (fun x hx same => ?_) (fun x hx same => ?_), rfl⟩
    · rw [unitId, kind] at same
      rw [sound.meters x hx m stored same, id]
    · obtain rfl : x = m := e.meters.key_inj hx stored (same.trans id)
      exact ⟨id, companyId, unitId⟩
  | newReading r fresh free =>
    refine ⟨sound.putReading r (fun x hx same => ?_) (fun x hx same => ?_), rfl⟩
    · exact absurd (Prod.mk.inj same) (free x hx)
    · exact absurd (List.mem_map.mpr ⟨x, hx, same⟩) (Table.find?_eq_none_iff.mp fresh)
  | reading r r' stored id companyId meterId period =>
    refine ⟨sound.putReading r' (fun x hx same => ?_) (fun x hx same => ?_), rfl⟩
    · rw [meterId, period] at same
      rw [sound.readings x hx r stored same, id]
    · obtain rfl : x = r := e.readings.key_inj hx stored (same.trans id)
      exact ⟨id, companyId, meterId, period⟩

/-- **A call of the services** keeps the estate sound and the books as they are. -/
theorem LeasingCall.commit_sound (S : Server) (ctx : Ctx) {e : Estate} (sound : e.Sound)
    (call : LeasingCall) :
    (call.commit S ctx e).Sound ∧ (call.commit S ctx e).books = e.books := by
  have served : ∀ {α : Type} (p : Prog leasing α), (commit.serve S e p).Sound ∧
      (commit.serve S e p).books = e.books := by
    intro α p
    refine Prog.serve_keeps (I := fun e' : Estate => e'.Sound ∧ e'.books = e.books) _ p
      (fun s st ws a kept ran => ?_) ⟨sound, rfl⟩
    obtain ⟨sound', same⟩ := (run_writes ran).sound kept.1
    exact ⟨sound', same.trans kept.2⟩
  cases call with
  | createContract | updateContract | createMeter | updateMeter | createReading | updateReading =>
    exact served _

/-! ## Runs -/

/-- The calls of the three services, and of billing the batch and the void, each
with the company it is made in. -/
inductive EstateRequest where
  | leasing (ctx : Ctx) (call : LeasingCall)
  | createBatch (ctx : Ctx) (queueUp : Nat → Bool) (newId : Id → Id) (now : Instant)
      (input : BatchGenerateInvoicesInput)
  | void (ctx : Ctx) (queueUp : Nat → Bool) (id : Id)

/-- The rows of a billing call, committed. -/
def Estate.bill (S : Server) (e : Estate) (r : InvoicingRequest) : Estate :=
  { e with books := (r.rows S e.db).foldl Dormitory.Row.apply e.books }

namespace EstateRequest
variable (S : Server) (e : Estate)

def commit : EstateRequest → Estate
  | leasing ctx call => call.commit S ctx e
  | createBatch ctx queueUp newId now input =>
    e.bill S ⟨ctx, queueUp, .createBatch newId now input⟩
  | void ctx queueUp id => e.bill S ⟨ctx, queueUp, .void id⟩

/-- The keys a batch draws are new, one for each contract. -/
def Fresh : EstateRequest → Prop
  | createBatch _ _ newId _ _ =>
    Function.Injective newId ∧ ∀ c, e.books.invoices.find? (newId c) = none
  | leasing _ _ | void _ _ _ => True

end EstateRequest

theorem Estate.bill_db (S : Server) (e : Estate) (r : InvoicingRequest) :
    (e.bill S r).db = r.commit S e.db := by
  have books : ∀ (rows : List Dormitory.Row) (books : Db),
      ({ e with books := rows.foldl Dormitory.Row.apply books } : Estate).db =
        rows.foldl Dormitory.Row.apply ({ e with books := books } : Estate).db := by
    intro rows
    induction rows with
    | nil => exact fun _ => rfl
    | cons row rows ih =>
      intro books
      rw [List.foldl_cons, ih]
      cases row <;> rfl
  exact books (r.rows S e.db) e.books

/-- Billing keeps the estate sound if its new invoices point at readings of
their rooms. -/
theorem Estate.Sound.bill {S : Server} {e : Estate} (sound : e.Sound) (r : InvoicingRequest)
    (own : ∀ i ∈ (r.commit S e.db).invoices.rows, i ∈ e.books.invoices.rows ∨
      ∀ readingId, i.Bills readingId → e.db.RoomReading i.companyId i.period i.unitId readingId) :
    (e.bill S r).Sound := by
  refine ⟨sound.meters, sound.readings, fun i hi readingId bills => ?_⟩
  have room : e.db.RoomReading i.companyId i.period i.unitId readingId := by
    rcases own i (e.bill_db S r ▸ hi) with old | new
    · exact sound.items i old readingId bills
    · exact new readingId bills
  exact roomReading_mono (fun m hm => ⟨m, hm, rfl, rfl, rfl⟩)
    (fun r hr => ⟨r, hr, rfl, rfl, rfl, rfl⟩) room

/-! ### Voids -/

section void
variable {S : Server} {e : Estate} {ctx : Ctx} {queueUp : Nat → Bool} {id : Id}

/-- After a void, an invoice is an old one, or void with an old one's items. -/
theorem mem_void {i : Invoice}
    (hi : i ∈ ((⟨ctx, queueUp, .void id⟩ : InvoicingRequest).commit S e.db).invoices.rows) :
    i ∈ e.books.invoices.rows ∨ i.status = .void ∧ ∃ i' ∈ e.books.invoices.rows, i = voided i' := by
  rcases InvoicingRequest.mem_commit hi with old | new
  · exact .inl old
  · cases new with
    | voided stored => exact .inr ⟨rfl, _, stored, rfl⟩

theorem void_sound (sound : e.Sound) : (e.bill S ⟨ctx, queueUp, .void id⟩).Sound := by
  refine sound.bill _ fun i hi => ?_
  rcases mem_void hi with old | ⟨-, i', old, rfl⟩
  · exact .inl old
  · exact .inr fun readingId bills => sound.items i' old readingId bills

theorem void_once (once : e.db.BilledOnce) :
    (e.bill S ⟨ctx, queueUp, .void id⟩).db.BilledOnce := by
  rw [Estate.bill_db]
  have live : ∀ i ∈ ((⟨ctx, queueUp, .void id⟩ : InvoicingRequest).commit S e.db).invoices.rows,
      i.status ≠ .void → i ∈ e.books.invoices.rows := by
    intro i hi open'
    rcases mem_void hi with old | ⟨void, -⟩
    · exact old
    · exact absurd void open'
  intro i hi i' hi' open' open'' readingId bills bills'
  exact once i (live i hi open') i' (live i' hi' open'') open' open'' readingId bills bills'

end void

/-! ### Batches -/

section batch
open InvoiceService
variable {S : Server} {e : Estate} {ctx : Ctx} {queueUp : Nat → Bool} {newId : Id → Id}
  {now : Instant} {input : BatchGenerateInvoicesInput}

theorem createBatch_sound (sound : e.Sound) (injective : Function.Injective newId)
    (unused : ∀ c, e.db.invoices.find? (newId c) = none) :
    (e.bill S ⟨ctx, queueUp, .createBatch newId now input⟩).Sound := by
  have run := createBatch_charges S ctx queueUp newId now input sound.unique injective unused
  refine sound.bill _ fun i hi => ?_
  split at run
  · obtain ⟨made, invoices, charged⟩ := run
    rcases (invoices i).mp hi with old | new
    · exact .inl old
    · obtain ⟨k, hk, charges⟩ := exists_source charged new
      refine .inr fun readingId bills => ?_
      rw [charges.companyId, charges.period, charges.unitId]
      exact (charges.bills readingId).mp bills
  · rw [run] at hi
    exact .inl hi

/-- **One batch** bills a reading twice exactly when two contracts share a room
that has one, and its bills can be inserted. -/
theorem createBatch_once_iff (sound : e.Sound) (once : e.db.BilledOnce)
    (injective : Function.Injective newId)
    (unused : ∀ c, e.db.invoices.find? (newId c) = none) :
    (e.bill S ⟨ctx, queueUp, .createBatch newId now input⟩).db.BilledOnce ↔
      ((∀ d ∈ planned ctx newId now input ⟨fun _ => e.db, queueUp⟩, d.Ready e.db) →
        ¬ e.db.SharedRoom ctx input) := by
  have run := createBatch_charges S ctx queueUp newId now input sound.unique injective unused
  rw [Estate.bill_db]
  split at run
  · rename_i ready
    constructor
    · exact fun once' _ shared => run.twice shared once'
    · exact fun alone => run.once once sound.items (alone ready)
  · rename_i unready
    rw [run]
    exact iff_of_true once fun ready => absurd ready unready

end batch

/-! ### Any sequence of calls -/

/-- Meters and readings as their unique indexes allow, and no invoice yet. -/
structure Estate.Unbilled (e : Estate) : Prop where
  meters : e.meters.UniqueOn fun m => (m.unitId, m.kind)
  readings : e.readings.UniqueOn fun r => (r.meterId, r.period)
  invoices : e.books.invoices.rows = []

/-- A batch whose bills can be inserted meets no room that two contracts share. -/
def EstateRequest.Alone (e : Estate) : EstateRequest → Prop
  | createBatch ctx queueUp newId now input =>
    (∀ d ∈ InvoiceService.planned ctx newId now input ⟨fun _ => e.db, queueUp⟩, d.Ready e.db) →
      ¬ e.db.SharedRoom ctx input
  | leasing _ _ | void _ _ _ => True

theorem EstateRequest.commit_sound {S : Server} {e : Estate} {r : EstateRequest} (sound : e.Sound)
    (fresh : r.Fresh e) : (r.commit S e).Sound := by
  cases r with
  | leasing ctx call => exact (call.commit_sound S ctx sound).1
  | createBatch => exact createBatch_sound sound fresh.1 fresh.2
  | void => exact void_sound sound

theorem EstateRequest.commit_once_iff {S : Server} {e : Estate} {r : EstateRequest}
    (sound : e.Sound) (once : e.db.BilledOnce) (fresh : r.Fresh e) :
    (r.commit S e).db.BilledOnce ↔ r.Alone e := by
  cases r with
  | leasing ctx call =>
    refine iff_of_true ?_ trivial
    have invoices : (call.commit S ctx e).db.invoices = e.db.invoices := by
      rw [Estate.db_invoices, Estate.db_invoices, (call.commit_sound S ctx sound).2]
    rw [Db.BilledOnce, EstateRequest.commit, invoices]
    exact once
  | createBatch => exact createBatch_once_iff sound once fresh.1 fresh.2
  | void => exact iff_of_true (void_once once) trivial

/-- **A reading is billed at most once** through any sequence of contracts made
and changed, meters and readings entered, batches and voids, exactly when no
batch bills a room with a reading to one contract beside another. -/
theorem readings_billed_once_iff (S : Server) (e : Estate) (start : e.Unbilled)
    (rs : List EstateRequest)
    (fresh : Throughout (EstateRequest.commit S) EstateRequest.Fresh e rs) :
    (∀ e' ∈ states (EstateRequest.commit S) e rs, e'.db.BilledOnce) ↔
      Throughout (EstateRequest.commit S) EstateRequest.Alone e rs := by
  have none : ∀ i, i ∉ e.books.invoices.rows := by simp [start.invoices]
  have sound : e.Sound := ⟨start.meters, start.readings, fun i hi => absurd hi (none i)⟩
  have once : e.db.BilledOnce := fun i hi => absurd hi (none i)
  exact states_iff (fun _ _ sound fresh => EstateRequest.commit_sound sound fresh)
    (fun _ _ sound once fresh => EstateRequest.commit_once_iff sound once fresh) sound once fresh

namespace Demo

/-- One room, and nobody in it. -/
def vacant : Estate where
  books := { Dormitory.Demo.db [] [] with units := Table.put default ⟨201, 1, 3, "A1"⟩ }

def firstHalf : CreateContractInput where
  unitId := 201
  tenantId := 11
  startDate := Civil.days ⟨2026, 4, 1⟩
  endDate := some (Civil.days ⟨2026, 4, 15⟩)
  rentAmount := ⟨2000, 0⟩
  depositAmount := ⟨0, 0⟩
  notes := none

def secondHalf : CreateContractInput :=
  { firstHalf with tenantId := 12, startDate := Civil.days ⟨2026, 4, 16⟩, endDate := none }

def request (call : LeasingCall) : EstateRequest := .leasing Dormitory.Demo.ctx call

def sign (id : Id) : EstateRequest := request (.updateContract id ⟨some .active, none, none⟩)

/-- An electricity meter, its reading for April, and the April batch. -/
def meteredApril : List EstateRequest :=
  [request (.createMeter 401 ⟨201, .electric, none, "kWh", ⟨8, 0⟩⟩),
    request (.createReading 601 0 ⟨401, Dormitory.Demo.april, ⟨"250.00", ⟨25000, 2⟩⟩, none, none⟩),
    .createBatch Dormitory.Demo.ctx (fun _ => true) (1000 + ·) 0 Dormitory.Demo.rentOnly]

/-- One contract, signed. -/
def oneTenancy : List EstateRequest :=
  request (.createContract 101 firstHalf) :: sign 101 :: meteredApril

/-- The tenant changes in the middle of the month: two contracts whose dates do
not overlap, both signed. -/
def twoTenancies : List EstateRequest :=
  request (.createContract 101 firstHalf) :: request (.createContract 102 secondHalf) ::
    sign 101 :: sign 102 :: meteredApril

theorem vacant_unbilled : vacant.Unbilled where
  meters := fun x hx => by cases hx
  readings := fun x hx => by cases hx
  invoices := rfl

end Demo

open Dormitory.Demo in
/-- One tenancy: the reading is on one bill. -/
theorem readings_billed_once_one :
    (∃ i ∈ (Demo.oneTenancy.foldl (EstateRequest.commit server) Demo.vacant).db.invoices.rows,
      i.Bills 601) ∧
    ∀ e ∈ states (EstateRequest.commit server) Demo.vacant Demo.oneTenancy, e.db.BilledOnce :=
  ⟨by decide +kernel,
    (readings_billed_once_iff server Demo.vacant Demo.vacant_unbilled Demo.oneTenancy
      ⟨trivial, trivial, trivial, trivial,
        ⟨add_right_injective 1000, unused_above (by decide +kernel)⟩, trivial⟩).mpr
      ⟨trivial, trivial, trivial, trivial, fun _ => by decide +kernel, trivial⟩⟩

open Dormitory.Demo in
/-- The contracts of two tenants in April are both billed for the one reading. -/
theorem two_tenancies_billed_twice :
    Throughout (EstateRequest.commit server) EstateRequest.Fresh Demo.vacant Demo.twoTenancies ∧
      ∃ e ∈ states (EstateRequest.commit server) Demo.vacant Demo.twoTenancies,
        ¬ e.db.BilledOnce := by
  refine ⟨⟨trivial, trivial, trivial, trivial, trivial, trivial,
    ⟨add_right_injective 1000, unused_above (by decide +kernel)⟩, trivial⟩, _,
    last_mem_states _ _ _, fun once => ?_⟩
  have twice : ∃ i ∈ (Demo.twoTenancies.foldl (EstateRequest.commit server)
        Demo.vacant).db.invoices.rows,
      ∃ i' ∈ (Demo.twoTenancies.foldl (EstateRequest.commit server) Demo.vacant).db.invoices.rows,
        i.status ≠ .void ∧ i'.status ≠ .void ∧ i.Bills 601 ∧ i'.Bills 601 ∧ i ≠ i' := by
    decide +kernel
  obtain ⟨i, hi, i', hi', open', open'', bills, bills', apart⟩ := twice
  exact apart (once i hi i' hi' open' open'' 601 bills bills')

end Leasing
end Dormitory
