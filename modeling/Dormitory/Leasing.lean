import Dormitory.InvoiceService

/-!
# Contracts, meters and readings

The tables behind `modules/contract`, `modules/meter` and `modules/reading` with
all the columns that these services write, beside the tables of billing, and
their `prisma.*` calls as statements. Dates are days since 1970-01-01, as
`new Date` reads them.
-/

namespace Dormitory

/-- A `contract` row with the columns of its own service. -/
structure ContractRow extends Contract where
  startDate : Int
  endDate : Option Int
  depositAmount : Numeric 10 2
  notes : Option String
  deriving DecidableEq

structure MeterRow extends Meter where
  serialNo : Option String
  deriving DecidableEq

structure ReadingRow extends Reading where
  valueCurrent : Numeric 12 2
  valuePrevious : Numeric 12 2
  photoKey : Option String
  readAt : Instant
  readByUserId : Option Id
  deriving DecidableEq

/-- Months since year 0: periods are ordered as their strings are. -/
def Period.index (p : Period) : Nat := p.year * 12 + p.month

namespace Leasing
open Txn

instance : Keyed ContractRow Id := ⟨fun k => k.id⟩
instance : Keyed MeterRow Id := ⟨fun m => m.id⟩
instance : Keyed ReadingRow Id := ⟨fun r => r.id⟩

/-- The database: the tables of these services, and all others as billing has
them in `books`. -/
structure Estate where
  contracts : Table ContractRow := default
  meters : Table MeterRow := default
  readings : Table ReadingRow := default
  books : Db := {}

/-- The database as billing sees it. -/
def Estate.db (e : Estate) : Db :=
  { e.books with
    contracts := e.contracts.map ContractRow.toContract fun _ => rfl
    meters := e.meters.map MeterRow.toMeter fun _ => rfl
    readings := e.readings.map ReadingRow.toReading fun _ => rfl }

/-- `contract.create`'s data, before the columns round the amounts. -/
structure ContractData where
  id : Id
  companyId : Id
  unitId : Id
  tenantId : Id
  startDate : Int
  endDate : Option Int
  rentAmount : Decimal
  depositAmount : Decimal
  status : ContractStatus
  notes : Option String
  deriving DecidableEq

structure ContractPatch where
  status : Option ContractStatus
  endDate : Option Int
  notes : Option String
  deriving DecidableEq

/-- The window of `assertNoOverlap`. -/
structure Overlap where
  unitId : Id
  newStart : Int
  newEnd : Option Int
  excludeId : Option Id
  deriving DecidableEq

structure MeterData where
  id : Id
  companyId : Id
  unitId : Id
  kind : MeterKind
  serialNo : Option String
  unitOfMeasure : String
  ratePerUnit : Decimal
  deriving DecidableEq

structure MeterPatch where
  serialNo : Option String
  unitOfMeasure : Option String
  ratePerUnit : Option Decimal
  deriving DecidableEq

structure ReadingData where
  id : Id
  companyId : Id
  meterId : Id
  period : Period
  valueCurrent : Decimal
  valuePrevious : Decimal
  consumption : Decimal
  photoKey : Option String
  readAt : Instant
  readByUserId : Option Id
  deriving DecidableEq

structure ReadingPatch where
  valueCurrent : Option Decimal
  consumption : Option Decimal
  photoKey : Option String
  readAt : Option Instant
  deriving DecidableEq

inductive Query where
  | unitFindUnique (id : Id)
  | tenantFindUnique (id : Id)
  | contractFindUnique (id : Id)
  | contractFindOverlap (window : Overlap)
  | contractCreate (data : ContractData)
  | contractUpdate (id : Id) (data : ContractPatch)
  | meterFindUnique (id : Id)
  | meterCreate (data : MeterData)
  | meterUpdate (id : Id) (data : MeterPatch)
  | readingFindUnique (id : Id)
  /-- The latest reading of the meter before the period. -/
  | readingFindPrior (meterId : Id) (period : Period)
  | readingCreate (data : ReadingData)
  | readingUpdate (id : Id) (data : ReadingPatch)
  deriving DecidableEq

@[reducible] def Query.Ans : Query → Type
  | unitFindUnique _ => Option DormUnit
  | tenantFindUnique _ => Option Tenant
  | contractFindUnique _ | contractFindOverlap _ => Option ContractRow
  | contractCreate _ | contractUpdate _ _ => ContractRow
  | meterFindUnique _ => Option MeterRow
  | meterCreate _ | meterUpdate _ _ => MeterRow
  | readingFindUnique _ | readingFindPrior _ _ => Option ReadingRow
  | readingCreate _ | readingUpdate _ _ => ReadingRow

structure Statement where
  company : Id
  query : Query
  deriving DecidableEq

inductive Row where
  | contract (r : ContractRow)
  | meter (r : MeterRow)
  | reading (r : ReadingRow)
  deriving DecidableEq

inductive Lock where
  | contract (id : Id)
  | meter (id : Id)
  | meterKind (unitId : Id) (kind : MeterKind)
  | reading (id : Id)
  | readingPeriod (meterId : Id) (period : Period)
  deriving DecidableEq

def Row.apply (e : Estate) : Row → Estate
  | contract r => { e with contracts := e.contracts.put r }
  | meter r => { e with meters := e.meters.put r }
  | reading r => { e with readings := e.readings.put r }

def Row.locks : Row → List Lock
  | contract r => [.contract r.id]
  | meter r => [.meter r.id, .meterKind r.unitId r.kind]
  | reading r => [.reading r.id, .readingPeriod r.meterId r.period]

section statements
variable (S : Server) (c : Id) (e : Estate)

def uniqueViolation (columns : List String) : Failure := .prisma "P2002" (S.report columns)

/-- A contract that `assertNoOverlap` looks for: no end counts as infinity. -/
def Overlaps (w : Overlap) (k : ContractRow) : Prop :=
  (∀ id ∈ w.excludeId, k.id ≠ id) ∧ k.unitId = w.unitId ∧
    (k.status = .draft ∨ k.status = .active) ∧
    (∀ d ∈ w.newEnd, k.startDate ≤ d) ∧ ∀ d ∈ k.endDate, w.newStart ≤ d

instance (w : Overlap) (k : ContractRow) : Decidable (Overlaps w k) :=
  inferInstanceAs (Decidable ((∀ id ∈ w.excludeId, k.id ≠ id) ∧ _ ∧ _ ∧
    (∀ d ∈ w.newEnd, k.startDate ≤ d) ∧ ∀ d ∈ k.endDate, w.newStart ≤ d))

def contract? (id : Id) : Option ContractRow :=
  (e.contracts.find? id).filter fun k => k.companyId = c

def meter? (id : Id) : Option MeterRow := (e.meters.find? id).filter fun m => m.companyId = c

def reading? (id : Id) : Option ReadingRow :=
  (e.readings.find? id).filter fun r => r.companyId = c

def priorReading (meterId : Id) (period : Period) : Option ReadingRow :=
  findLatest (fun r => r.period.index) <| e.readings.rows.filter fun r =>
    r.companyId = c ∧ r.meterId = meterId ∧ r.period.index < period.index

def createContract (d : ContractData) : Except Failure (List Row × ContractRow) :=
  match Numeric.store 10 2 d.rentAmount, Numeric.store 10 2 d.depositAmount with
  | some rentAmount, some depositAmount =>
    if ∃ n ∈ d.notes, 1024 < n.length then .error .tooLong
    else if (e.contracts.find? d.id).isSome then .error (uniqueViolation S ["id"])
    else
      let r : ContractRow := ⟨⟨d.id, d.companyId, d.unitId, d.tenantId, rentAmount, d.status⟩,
        d.startDate, d.endDate, depositAmount, d.notes⟩
      .ok ([.contract r], r)
  | _, _ => .error .tooLarge

def ContractPatch.apply (d : ContractPatch) (k : ContractRow) : ContractRow :=
  { k with
    status := d.status.getD k.status
    endDate := d.endDate <|> k.endDate
    notes := d.notes <|> k.notes }

def updateContract (id : Id) (d : ContractPatch) : Except Failure (List Row × ContractRow) :=
  match contract? c e id with
  | none => .error .missing
  | some k =>
    if ∃ n ∈ d.notes, 1024 < n.length then .error .tooLong
    else .ok ([.contract (d.apply k)], d.apply k)

def createMeter (d : MeterData) : Except Failure (List Row × MeterRow) :=
  match Numeric.store 10 4 d.ratePerUnit with
  | none => .error .tooLarge
  | some ratePerUnit =>
    if (∃ n ∈ d.serialNo, 64 < n.length) ∨ 16 < d.unitOfMeasure.length then .error .tooLong
    else if (e.meters.find? d.id).isSome then .error (uniqueViolation S ["id"])
    else if ∃ m ∈ e.meters.rows, m.unitId = d.unitId ∧ m.kind = d.kind then
      .error (uniqueViolation S ["unit_id", "kind"])
    else
      let r : MeterRow := ⟨⟨d.id, d.companyId, d.unitId, d.kind, d.unitOfMeasure, ratePerUnit⟩,
        d.serialNo⟩
      .ok ([.meter r], r)

/-- A column of an `update`: `undefined` leaves it. -/
def storeOver {p s : Nat} (old : Numeric p s) : Option Decimal → Option (Numeric p s)
  | none => some old
  | some x => Numeric.store p s x

def updateMeter (id : Id) (d : MeterPatch) : Except Failure (List Row × MeterRow) :=
  match meter? c e id with
  | none => .error .missing
  | some m =>
    match storeOver m.ratePerUnit d.ratePerUnit with
    | none => .error .tooLarge
    | some ratePerUnit =>
      if (∃ n ∈ d.serialNo, 64 < n.length) ∨ ∃ u ∈ d.unitOfMeasure, 16 < u.length then
        .error .tooLong
      else
        let r : MeterRow := { m with
          serialNo := d.serialNo <|> m.serialNo
          unitOfMeasure := d.unitOfMeasure.getD m.unitOfMeasure
          ratePerUnit := ratePerUnit }
        .ok ([.meter r], r)

def createReading (d : ReadingData) : Except Failure (List Row × ReadingRow) :=
  match Numeric.store 12 2 d.valueCurrent, Numeric.store 12 2 d.valuePrevious,
      Numeric.store 12 2 d.consumption with
  | some valueCurrent, some valuePrevious, some consumption =>
    if ∃ k ∈ d.photoKey, 512 < k.length then .error .tooLong
    else if (e.readings.find? d.id).isSome then .error (uniqueViolation S ["id"])
    else if ∃ r ∈ e.readings.rows, r.meterId = d.meterId ∧ r.period = d.period then
      .error (uniqueViolation S ["meter_id", "period"])
    else
      let r : ReadingRow := ⟨⟨d.id, d.companyId, d.meterId, d.period, consumption⟩, valueCurrent,
        valuePrevious, d.photoKey, d.readAt, d.readByUserId⟩
      .ok ([.reading r], r)
  | _, _, _ => .error .tooLarge

def updateReading (id : Id) (d : ReadingPatch) : Except Failure (List Row × ReadingRow) :=
  match reading? c e id with
  | none => .error .missing
  | some r =>
    match storeOver r.valueCurrent d.valueCurrent, storeOver r.consumption d.consumption with
    | some valueCurrent, some consumption =>
      if ∃ k ∈ d.photoKey, 512 < k.length then .error .tooLong
      else
        let r' : ReadingRow := { r with
          valueCurrent := valueCurrent
          consumption := consumption
          photoKey := d.photoKey <|> r.photoKey
          readAt := d.readAt.getD r.readAt }
        .ok ([.reading r'], r')
    | _, _ => .error .tooLarge

/-- One statement under the row-level security of company `c`. -/
def run : (q : Query) → Except Failure (List Row × q.Ans)
  | .unitFindUnique id => .ok ([], (e.books.units.find? id).filter fun u => u.companyId = c)
  | .tenantFindUnique id => .ok ([], (e.books.tenants.find? id).filter fun t => t.companyId = c)
  | .contractFindUnique id => .ok ([], contract? c e id)
  | .contractFindOverlap window =>
    .ok ([], e.contracts.rows.find? fun k => k.companyId = c ∧ Overlaps window k)
  | .contractCreate data => createContract S e data
  | .contractUpdate id data => updateContract c e id data
  | .meterFindUnique id => .ok ([], meter? c e id)
  | .meterCreate data => createMeter S e data
  | .meterUpdate id data => updateMeter c e id data
  | .readingFindUnique id => .ok ([], reading? c e id)
  | .readingFindPrior meterId period => .ok ([], priorReading c e meterId period)
  | .readingCreate data => createReading S e data
  | .readingUpdate id data => updateReading c e id data

end statements

/-- These services add no jobs. -/
@[reducible] def leasing : Sig where
  Stmt := Statement
  Ans s := s.query.Ans
  Err := Failure
  St := Estate
  Write := Row
  Lock := Lock
  Job := Empty

def engine (S : Server) : Engine leasing where
  exec s e := run S s.company e s.query
  apply := Row.apply
  locks := Row.locks
  aborted := .aborted
  noSavepoint := .prisma "3B001" .null
  queueDown := .error ""

/-- `prisma.*`, on the connection of the request. -/
def prisma (ctx : Ctx) (q : Query) : Prog leasing q.Ans := @Prog.query leasing ⟨ctx.companyId, q⟩

end Leasing
end Dormitory
