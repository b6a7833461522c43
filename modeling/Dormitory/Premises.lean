import Dormitory.Leasing
import Dormitory.Tenancy

/-!
# Properties, rooms, tenants and slips

The tables behind `modules/property`, `modules/unit`, `modules/tenant` and
`billing/slip.service.ts` with all the columns that these services write, beside
the tables of leasing and billing, and their `prisma.*` calls as statements.
-/

namespace Dormitory

inductive UnitStatus where
  | vacant | occupied | maintenance | reserved
  deriving DecidableEq, Repr

inductive SlipMimeType where
  | jpeg | png | webp | pdf
  deriving DecidableEq, Repr

def SlipMimeType.toString : SlipMimeType → String
  | jpeg => "image/jpeg"
  | png => "image/png"
  | webp => "image/webp"
  | pdf => "application/pdf"

/-- A `property` row with the columns of its own service. -/
structure PropertyRow extends Property where
  slug : String
  address : Option String
  deriving DecidableEq

structure UnitRow extends DormUnit where
  floor : Nat
  status : UnitStatus
  baseRent : Numeric 10 2
  sizeSqm : Option (Numeric 6 2)
  notes : Option String
  deriving DecidableEq

/-- A `tenant` row; the last two columns are encrypted. -/
structure TenantRow extends TenantProfile where
  nationalId : Option String
  phone : Option String
  deriving DecidableEq

structure Slip where
  id : Id
  companyId : Id
  paymentId : Id
  r2ObjectKey : String
  mimeType : SlipMimeType
  sizeBytes : Nat
  sha256 : String
  deriving DecidableEq

namespace Premises
open Txn Leasing

instance : Keyed PropertyRow Id := ⟨fun p => p.id⟩
instance : Keyed UnitRow Id := ⟨fun u => u.id⟩
instance : Keyed TenantRow Id := ⟨fun t => t.id⟩
instance : Keyed Slip Id := ⟨Slip.id⟩

/-- The database: the tables of these services and the invites, and all others
as leasing and billing have them in `estate`. -/
structure Dorm where
  properties : Table PropertyRow := default
  units : Table UnitRow := default
  tenants : Table TenantRow := default
  slips : Table Slip := default
  invites : Table TenantInvite := default
  estate : Estate := {}

theorem UnitRow.toDormUnit_key (u : UnitRow) : key u.toDormUnit = key u := rfl

/-- The database as leasing sees it. -/
def Dorm.leased (s : Dorm) : Estate :=
  { s.estate with
    books := { s.estate.books with
      units := s.units.map UnitRow.toDormUnit UnitRow.toDormUnit_key
      tenants := s.tenants.map (fun t => t.toTenant) fun _ => rfl } }

/-- The database as billing sees it. -/
def Dorm.db (s : Dorm) : Db := s.leased.db

structure PropertyData where
  id : Id
  companyId : Id
  slug : String
  name : String
  address : Option String
  deriving DecidableEq

structure PropertyPatch where
  slug : Option String
  name : Option String
  address : Option String
  deriving DecidableEq

/-- `unit.create`'s data, before the columns round the amounts. -/
structure UnitData where
  id : Id
  companyId : Id
  propertyId : Id
  unitNumber : String
  floor : Nat
  baseRent : Decimal
  sizeSqm : Option Decimal
  notes : Option String
  deriving DecidableEq

structure UnitPatch where
  propertyId : Option Id
  unitNumber : Option String
  floor : Option Nat
  baseRent : Option Decimal
  status : Option UnitStatus
  sizeSqm : Option Decimal
  notes : Option String
  deriving DecidableEq

structure TenantData where
  id : Id
  companyId : Id
  lineUserId : Option String
  displayName : String
  pictureUrl : Option String
  nationalId : Option String
  phone : Option String
  deriving DecidableEq

structure TenantPatch extends Tenancy.TenantPatch where
  nationalId : Option String
  phone : Option String
  deriving DecidableEq

inductive Query where
  | propertyFindUnique (id : Id)
  | propertyCreate (data : PropertyData)
  | propertyUpdate (id : Id) (data : PropertyPatch)
  | unitFindUnique (id : Id)
  | unitCreate (data : UnitData)
  | unitUpdate (id : Id) (data : UnitPatch)
  | tenantFindUnique (id : Id)
  | tenantCreate (data : TenantData)
  | tenantUpdate (id : Id) (data : TenantPatch)
  /-- With the slip of the payment. -/
  | paymentFindUnique (id : Id)
  | slipCreate (data : Slip)
  | invoiceFindUnique (id : Id)
  | invoiceUpdate (id : Id) (dueDate : Option Instant)
  | encrypt (plaintext : String)
  | decrypt (ciphertext : String)
  deriving DecidableEq

@[reducible] def Query.Ans : Query → Type
  | propertyFindUnique _ => Option PropertyRow
  | propertyCreate _ | propertyUpdate _ _ => PropertyRow
  | unitFindUnique _ => Option UnitRow
  | unitCreate _ | unitUpdate _ _ => UnitRow
  | tenantFindUnique _ => Option TenantRow
  | tenantCreate _ | tenantUpdate _ _ => TenantRow
  | paymentFindUnique _ => Option (Payment × Option Slip)
  | slipCreate _ => Slip
  | invoiceFindUnique _ => Option Invoice
  | invoiceUpdate _ _ => Invoice
  | encrypt _ | decrypt _ => String

structure Statement where
  company : Id
  query : Query
  deriving DecidableEq

inductive Row where
  | property (r : PropertyRow)
  | unit (r : UnitRow)
  | tenant (r : TenantRow)
  | slip (r : Slip)
  | invoice (r : Invoice)
  deriving DecidableEq

inductive Lock where
  | property (id : Id)
  | propertySlug (companyId : Id) (slug : String)
  | unit (id : Id)
  | unitNumber (propertyId : Id) (unitNumber : String)
  | tenant (id : Id)
  | tenantLine (companyId : Id) (lineUserId : String)
  | slip (id : Id)
  | slipPayment (paymentId : Id)
  | invoice (id : Id)
  deriving DecidableEq

def Row.apply (s : Dorm) : Row → Dorm
  | property r => { s with properties := s.properties.put r }
  | unit r => { s with units := s.units.put r }
  | tenant r => { s with tenants := s.tenants.put r }
  | slip r => { s with slips := s.slips.put r }
  | invoice r =>
    { s with estate := { s.estate with books := Dormitory.Row.apply s.estate.books (.invoice r) } }

def Row.locks : Row → List Lock
  | property r => [.property r.id, .propertySlug r.companyId r.slug]
  | unit r => [.unit r.id, .unitNumber r.propertyId r.unitNumber]
  | tenant r => .tenant r.id :: (r.lineUserId.map fun l => .tenantLine r.companyId l).toList
  | slip r => [.slip r.id, .slipPayment r.paymentId]
  | invoice r => [.invoice r.id]

/-- `pgcrypto` under the key of the deployment, as it answers during one call. -/
structure Pgcrypto where
  encrypt : String → String
  decrypt : String → Option String

section statements
variable (S : Server) (P : Pgcrypto) (c : Id) (s : Dorm)

def property? (id : Id) : Option PropertyRow :=
  (s.properties.find? id).filter fun p => p.companyId = c

def unit? (id : Id) : Option UnitRow := (s.units.find? id).filter fun u => u.companyId = c

def tenant? (id : Id) : Option TenantRow := (s.tenants.find? id).filter fun t => t.companyId = c

/-- A text is longer than its column. -/
def Longer (limit : Nat) (text : Option String) : Prop := ∃ t ∈ text, limit < t.length

instance (limit : Nat) (text : Option String) : Decidable (Longer limit text) :=
  inferInstanceAs (Decidable (∃ t ∈ text, limit < t.length))

/-- Another property of the company has the slug. -/
def SlugTaken (r : PropertyRow) : Prop :=
  ∃ p ∈ s.properties.rows, p.companyId = r.companyId ∧ p.slug = r.slug ∧ p.id ≠ r.id

/-- Another room of the property has the number. -/
def NumberTaken (r : UnitRow) : Prop :=
  ∃ u ∈ s.units.rows, u.propertyId = r.propertyId ∧ u.unitNumber = r.unitNumber ∧ u.id ≠ r.id

/-- Another tenant of the company has the LINE account. -/
def LineTaken (r : TenantRow) : Prop :=
  ∃ l ∈ r.lineUserId,
    ∃ t ∈ s.tenants.rows, t.companyId = r.companyId ∧ t.lineUserId = some l ∧ t.id ≠ r.id

instance (r : PropertyRow) : Decidable (SlugTaken s r) :=
  inferInstanceAs (Decidable (∃ p ∈ s.properties.rows, _))

instance (r : UnitRow) : Decidable (NumberTaken s r) :=
  inferInstanceAs (Decidable (∃ u ∈ s.units.rows, _))

instance (r : TenantRow) : Decidable (LineTaken s r) :=
  inferInstanceAs (Decidable (∃ l ∈ r.lineUserId, ∃ t ∈ s.tenants.rows, _))

/-- The row goes into its table and its unique index. -/
def storeProperty (r : PropertyRow) : Except Failure (List Row × PropertyRow) :=
  if 64 < r.slug.length ∨ 128 < r.name.length ∨ Longer 512 r.address then .error .tooLong
  else if SlugTaken s r then .error (uniqueViolation S ["company_id", "slug"])
  else .ok ([.property r], r)

def createProperty (d : PropertyData) : Except Failure (List Row × PropertyRow) :=
  if (s.properties.find? d.id).isSome then .error (uniqueViolation S ["id"])
  else storeProperty S s ⟨⟨d.id, d.companyId, d.name⟩, d.slug, d.address⟩

def PropertyPatch.apply (d : PropertyPatch) (p : PropertyRow) : PropertyRow :=
  { p with
    slug := d.slug.getD p.slug
    name := d.name.getD p.name
    address := d.address <|> p.address }

def updateProperty (id : Id) (d : PropertyPatch) : Except Failure (List Row × PropertyRow) :=
  match property? c s id with
  | none => .error .missing
  | some p => storeProperty S s (d.apply p)

def storeUnit (r : UnitRow) : Except Failure (List Row × UnitRow) :=
  if 32 < r.unitNumber.length ∨ Longer 512 r.notes then .error .tooLong
  else if NumberTaken s r then .error (uniqueViolation S ["property_id", "unit_number"])
  else .ok ([.unit r], r)

/-- A nullable amount. -/
def storeOption (p n : Nat) : Option Decimal → Option (Option (Numeric p n))
  | none => some none
  | some x => (Numeric.store p n x).map some

def createUnit (d : UnitData) : Except Failure (List Row × UnitRow) :=
  match Numeric.store 10 2 d.baseRent, storeOption 6 2 d.sizeSqm with
  | some baseRent, some sizeSqm =>
    if (s.units.find? d.id).isSome then .error (uniqueViolation S ["id"])
    else storeUnit S s ⟨⟨d.id, d.companyId, d.propertyId, d.unitNumber⟩, d.floor, .vacant, baseRent,
      sizeSqm, d.notes⟩
  | _, _ => .error .tooLarge

def updateUnit (id : Id) (d : UnitPatch) : Except Failure (List Row × UnitRow) :=
  match unit? c s id with
  | none => .error .missing
  | some u =>
    match storeOver u.baseRent d.baseRent, storeOption 6 2 d.sizeSqm with
    | some baseRent, some sizeSqm =>
      storeUnit S s
        { u with
          propertyId := d.propertyId.getD u.propertyId
          unitNumber := d.unitNumber.getD u.unitNumber
          floor := d.floor.getD u.floor
          baseRent := baseRent
          status := d.status.getD u.status
          sizeSqm := sizeSqm <|> u.sizeSqm
          notes := d.notes <|> u.notes }
    | _, _ => .error .tooLarge

def storeTenant (r : TenantRow) : Except Failure (List Row × TenantRow) :=
  if Longer 64 r.lineUserId ∨ 128 < r.displayName.length ∨ Longer 512 r.pictureUrl ∨
      Longer 512 r.nationalId ∨ Longer 512 r.phone then .error .tooLong
  else if LineTaken s r then .error (uniqueViolation S ["company_id", "line_user_id"])
  else .ok ([.tenant r], r)

def createTenant (d : TenantData) : Except Failure (List Row × TenantRow) :=
  if (s.tenants.find? d.id).isSome then .error (uniqueViolation S ["id"])
  else storeTenant S s ⟨⟨⟨d.id, d.companyId, d.lineUserId, .active⟩, d.displayName, d.pictureUrl⟩,
    d.nationalId, d.phone⟩

def TenantPatch.applyRow (d : TenantPatch) (t : TenantRow) : TenantRow where
  toTenantProfile := d.apply t.toTenantProfile
  nationalId := d.nationalId <|> t.nationalId
  phone := d.phone <|> t.phone

def updateTenant (id : Id) (d : TenantPatch) : Except Failure (List Row × TenantRow) :=
  match tenant? c s id with
  | none => .error .missing
  | some t => storeTenant S s (d.applyRow t)

def createSlip (r : Slip) : Except Failure (List Row × Slip) :=
  if 512 < r.r2ObjectKey.length ∨ 64 < r.sha256.length then .error .tooLong
  else if (s.slips.find? r.id).isSome then .error (uniqueViolation S ["id"])
  else if ∃ l ∈ s.slips.rows, l.paymentId = r.paymentId then
    .error (uniqueViolation S ["payment_id"])
  else .ok ([.slip r], r)

/-- One statement under the row-level security of company `c`. -/
def run : (q : Query) → Except Failure (List Row × q.Ans)
  | .propertyFindUnique id => .ok ([], property? c s id)
  | .propertyCreate data => createProperty S s data
  | .propertyUpdate id data => updateProperty S c s id data
  | .unitFindUnique id => .ok ([], unit? c s id)
  | .unitCreate data => createUnit S s data
  | .unitUpdate id data => updateUnit S c s id data
  | .tenantFindUnique id => .ok ([], tenant? c s id)
  | .tenantCreate data => createTenant S s data
  | .tenantUpdate id data => updateTenant S c s id data
  | .paymentFindUnique id =>
    .ok ([], (s.db.payment? c id).map fun p =>
      (p, s.slips.rows.find? fun l => l.companyId = c ∧ l.paymentId = p.id))
  | .slipCreate data => createSlip S s data
  | .invoiceFindUnique id => .ok ([], s.db.invoice? c id)
  | .invoiceUpdate id dueDate =>
    match s.db.invoice? c id with
    | some i =>
      let r : Invoice := { i with dueDate := dueDate.getD i.dueDate }
      .ok ([.invoice r], r)
    | none => .error .missing
  | .encrypt plaintext => .ok ([], P.encrypt plaintext)
  | .decrypt ciphertext =>
    match P.decrypt ciphertext with
    | some plaintext => .ok ([], plaintext)
    | none => .error (.prisma "P2010" .null)

end statements

/-- These services add no jobs. -/
@[reducible] def premises : Sig where
  Stmt := Statement
  Ans s := s.query.Ans
  Err := Failure
  St := Dorm
  Write := Row
  Lock := Lock
  Job := Empty

def engine (S : Server) (P : Pgcrypto) : Engine premises where
  exec q s := run S P q.company s q.query
  apply := Row.apply
  locks := Row.locks
  aborted := .aborted
  noSavepoint := .prisma "3B001" .null
  queueDown := .error ""

/-- `prisma.*`, on the connection of the request. -/
def prisma (ctx : Ctx) (q : Query) : Prog premises q.Ans := @Prog.query premises ⟨ctx.companyId, q⟩

end Premises
end Dormitory
