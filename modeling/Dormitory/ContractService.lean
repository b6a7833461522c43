import Dormitory.Leasing

/-!
# ContractService

The calls of `modules/contract/contract.service.ts` that write. Fresh primary
keys are arguments.
-/

namespace Dormitory.Leasing
open Txn

structure CreateContractInput where
  unitId : Id
  tenantId : Id
  startDate : Int
  endDate : Option Int
  rentAmount : Decimal
  depositAmount : Decimal
  notes : Option String
  deriving DecidableEq

structure UpdateContractInput where
  status : Option ContractStatus
  endDate : Option Int
  notes : Option String
  deriving DecidableEq

/-- `assertUnitVisible`, in `contract.service.ts` and in `meter.service.ts`. -/
def assertUnitVisible (ctx : Ctx) (unitId : Id) : Prog leasing Unit := do
  let found ← prisma ctx (.unitFindUnique unitId)
  match found with
  | none =>
    Prog.throw (.http .badRequest "InvalidUnitId"
      s!"Unit {unitId} does not exist or is not accessible")
  | some _ => pure ()

namespace ContractService

def assertTenantVisible (ctx : Ctx) (tenantId : Id) : Prog leasing Unit := do
  let found ← prisma ctx (.tenantFindUnique tenantId)
  match found with
  | none =>
    Prog.throw (.http .badRequest "InvalidTenantId"
      s!"Tenant {tenantId} does not exist or is not accessible")
  | some _ => pure ()

def assertNoOverlap (ctx : Ctx) (args : Overlap) : Prog leasing Unit := do
  let overlap ← prisma ctx (.contractFindOverlap args)
  match overlap with
  | some _ =>
    Prog.throw (.http .conflict "ContractOverlap"
      s!"Unit {args.unitId} already has a draft/active contract overlapping this period")
  | none => pure ()

def getById (ctx : Ctx) (id : Id) : Prog leasing ContractRow := do
  let row ← prisma ctx (.contractFindUnique id)
  match row with
  | none => Prog.throw (.http .notFound "" s!"Contract {id} not found")
  | some row => pure row

/-- The two checks of `Promise.all` share the connection of the request, so they
run in this order. -/
def create (ctx : Ctx) (newId : Id) (input : CreateContractInput) : Prog leasing ContractRow := do
  assertUnitVisible ctx input.unitId
  assertTenantVisible ctx input.tenantId
  assertNoOverlap ctx
    { unitId := input.unitId, newStart := input.startDate, newEnd := input.endDate
      excludeId := none }
  prisma ctx (.contractCreate
    { id := newId, companyId := ctx.companyId, unitId := input.unitId, tenantId := input.tenantId
      startDate := input.startDate, endDate := input.endDate, rentAmount := input.rentAmount
      depositAmount := input.depositAmount, status := .draft, notes := input.notes })

def activeLike (status : ContractStatus) : Bool := status = .draft ∨ status = .active

def update (ctx : Ctx) (id : Id) (input : UpdateContractInput) : Prog leasing ContractRow := do
  let existing ← getById ctx id
  let newStatus := input.status.getD existing.status
  let datesChanged := input.endDate.isSome
  if activeLike newStatus ∧ (datesChanged ∨ ¬ activeLike existing.status) then
    assertNoOverlap ctx
      { unitId := existing.unitId, newStart := existing.startDate
        newEnd := input.endDate <|> existing.endDate, excludeId := some id }
  prisma ctx (.contractUpdate id
    { status := input.status, endDate := input.endDate, notes := input.notes })

end ContractService
end Dormitory.Leasing
