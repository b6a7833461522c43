import Dormitory.ContractService

/-!
# MeterService and ReadingService

The calls of `modules/meter/meter.service.ts` and
`modules/reading/reading.service.ts` that write. Fresh primary keys and the
clock are arguments. Both files have the `isUniqueConstraintError` of the
invoice service.
-/

namespace Dormitory

def MeterKind.toString : MeterKind → String
  | water => "water"
  | electric => "electric"

namespace Leasing
open Txn

structure CreateMeterInput where
  unitId : Id
  kind : MeterKind
  serialNo : Option String
  unitOfMeasure : String
  ratePerUnit : Decimal
  deriving DecidableEq

namespace MeterService

def getById (ctx : Ctx) (id : Id) : Prog leasing MeterRow := do
  let row ← prisma ctx (.meterFindUnique id)
  match row with
  | none => Prog.throw (.http .notFound "" s!"Meter {id} not found")
  | some row => pure row

def create (ctx : Ctx) (newId : Id) (input : CreateMeterInput) : Prog leasing MeterRow := do
  assertUnitVisible ctx input.unitId
  Prog.attempt
    (prisma ctx (.meterCreate
      { id := newId, companyId := ctx.companyId, unitId := input.unitId, kind := input.kind
        serialNo := input.serialNo, unitOfMeasure := input.unitOfMeasure
        ratePerUnit := input.ratePerUnit }))
    fun err =>
      if InvoiceService.isUniqueConstraintError err ["unit_id", "kind"] then
        Prog.throw (.http .conflict "MeterAlreadyExists"
          ("Unit " ++ toString input.unitId ++ " already has a " ++ input.kind.toString ++
            " meter"))
      else Prog.throw err

def update (ctx : Ctx) (id : Id) (input : MeterPatch) : Prog leasing MeterRow := do
  let _ ← getById ctx id
  prisma ctx (.meterUpdate id input)

end MeterService

/-- A number as the client wrote it, and its value. -/
structure MeterValue where
  text : String
  value : Decimal
  deriving DecidableEq

/-- `-0`, in a spelling that its schema accepts. -/
def MeterValue.NegativeZero (v : MeterValue) : Prop :=
  v.text.toList.head? = some '-' ∧ v.value.coeff = 0

instance (v : MeterValue) : Decidable v.NegativeZero := inferInstanceAs (Decidable (_ ∧ _))

/-- `isNegative` of the value less the one before: a `-0` less zero is negative, too. -/
def MeterValue.NegativeFrom (v : MeterValue) (previous : Decimal) : Prop :=
  (moneySub v.value previous).coeff < 0 ∨ v.NegativeZero ∧ previous.coeff = 0

instance (v : MeterValue) (previous : Decimal) : Decidable (v.NegativeFrom previous) :=
  inferInstanceAs (Decidable (_ ∨ _))

structure CreateReadingInput where
  meterId : Id
  period : Period
  valueCurrent : MeterValue
  photoKey : Option String
  readAt : Option Instant
  deriving DecidableEq

structure UpdateReadingInput where
  valueCurrent : Option MeterValue
  photoKey : Option String
  readAt : Option Instant
  deriving DecidableEq

namespace ReadingService

def assertMeterVisible (ctx : Ctx) (meterId : Id) : Prog leasing Unit := do
  let found ← prisma ctx (.meterFindUnique meterId)
  match found with
  | none =>
    Prog.throw (.http .badRequest "InvalidMeterId"
      s!"Meter {meterId} does not exist or is not accessible")
  | some _ => pure ()

def getById (ctx : Ctx) (id : Id) : Prog leasing ReadingRow := do
  let row ← prisma ctx (.readingFindUnique id)
  match row with
  | none => Prog.throw (.http .notFound "" s!"Reading {id} not found")
  | some row => pure row

def resolveValuePrevious (ctx : Ctx) (meterId : Id) (period : Period) :
    Prog leasing MeterValue := do
  let prior ← prisma ctx (.readingFindPrior meterId period)
  match prior with
  | none => pure ⟨"0.00", ⟨0, 2⟩⟩
  | some prior => pure ⟨prior.valueCurrent.toString, prior.valueCurrent.toDecimal⟩

def create (ctx : Ctx) (newId : Id) (now : Instant) (input : CreateReadingInput) :
    Prog leasing ReadingRow := do
  assertMeterVisible ctx input.meterId
  let valuePrevious ← resolveValuePrevious ctx input.meterId input.period
  let consumption := moneySub input.valueCurrent.value valuePrevious.value
  if input.valueCurrent.NegativeFrom valuePrevious.value then
    Prog.throw (.http .badRequest "NegativeConsumption"
      ("Reading " ++ input.valueCurrent.text ++ " is below the previous reading " ++
        valuePrevious.text ++ " — meters do not run backwards"))
  else
    Prog.attempt
      (prisma ctx (.readingCreate
        { id := newId, companyId := ctx.companyId, meterId := input.meterId, period := input.period
          valueCurrent := input.valueCurrent.value, valuePrevious := valuePrevious.value
          consumption := satang (toStorage consumption), photoKey := input.photoKey
          readAt := input.readAt.getD now, readByUserId := none }))
      fun err =>
        if InvoiceService.isUniqueConstraintError err ["meter_id", "period"] then
          Prog.throw (.http .conflict "ReadingAlreadyExists"
            s!"Meter {input.meterId} already has a reading for {input.period.toString}")
        else Prog.throw err

/-- The consumption is taken against the stored `valuePrevious`. -/
def update (ctx : Ctx) (id : Id) (input : UpdateReadingInput) : Prog leasing ReadingRow := do
  let existing ← getById ctx id
  match input.valueCurrent with
  | none =>
    prisma ctx (.readingUpdate id
      { valueCurrent := none, consumption := none, photoKey := input.photoKey
        readAt := input.readAt })
  | some valueCurrent =>
    let consumption := moneySub valueCurrent.value existing.valuePrevious.toDecimal
    if valueCurrent.NegativeFrom existing.valuePrevious.toDecimal then
      Prog.throw (.http .badRequest "NegativeConsumption"
        ("Corrected reading " ++ valueCurrent.text ++ " is below the previous reading " ++
          existing.valuePrevious.toString))
    else
      prisma ctx (.readingUpdate id
        { valueCurrent := some valueCurrent.value
          consumption := some (satang (toStorage consumption)), photoKey := input.photoKey
          readAt := input.readAt })

end ReadingService

/-- The calls, each with the fresh key and the time it draws. -/
inductive LeasingCall where
  | createContract (newId : Id) (input : CreateContractInput)
  | updateContract (id : Id) (input : UpdateContractInput)
  | createMeter (newId : Id) (input : CreateMeterInput)
  | updateMeter (id : Id) (input : MeterPatch)
  | createReading (newId : Id) (now : Instant) (input : CreateReadingInput)
  | updateReading (id : Id) (input : UpdateReadingInput)
  deriving DecidableEq

/-- The database after the call, served alone. -/
def LeasingCall.commit (S : Server) (ctx : Ctx) (e : Estate) : LeasingCall → Estate
  | createContract newId input => serve (ContractService.create ctx newId input)
  | updateContract id input => serve (ContractService.update ctx id input)
  | createMeter newId input => serve (MeterService.create ctx newId input)
  | updateMeter id input => serve (MeterService.update ctx id input)
  | createReading newId now input => serve (ReadingService.create ctx newId now input)
  | updateReading id input => serve (ReadingService.update ctx id input)
where
  serve {α : Type} (p : Prog leasing α) : Estate :=
    (p.serve (engine S) (fun _ => true) e).commit (engine S) e

end Leasing
end Dormitory
