import Dormitory.Interceptors
import Dormitory.Primitives
import Dormitory.ReadingChains

/-!
# ReadingsGrid

The meter readings page of `apps/web-admin`: `readings/page.tsx`, the grid with
the state that React keeps for it, and the actions of `actions/readings.ts`. The
grid has no key, so one that is shown already is only given new props.
-/

namespace Dormitory.WebAdmin
open Txn Leasing

structure GridReading where
  id : Id
  meterId : Id
  period : Period
  valueCurrent : String
  deriving DecidableEq

inductive RowStatus where
  | idle | saving | saved | error
  deriving DecidableEq, Repr

structure RowState where
  inputValue : String
  saved : Option GridReading
  status : RowStatus
  error : Option String
  deriving DecidableEq

structure ReadingsGridProps where
  period : Period
  meters : List Id
  readings : List GridReading
  deriving DecidableEq

/-- A call of a server action, for the row of a meter. -/
inductive SaveRequest where
  | create (meterId : Id) (period : Period) (valueCurrent : String)
  | update (id : Id) (valueCurrent : String)
  deriving DecidableEq

/-- The grid: its props, its state `rows`, and (ghost) the period that was on
display when a row's reading was loaded or its creation was sent. -/
structure ReadingsGrid where
  props : ReadingsGridProps
  rows : Id → Option RowState
  since : Id → Option Period

namespace ReadingsGrid

/-- `new Map(readings.map(…)).get(meterId)`: the last one counts. -/
def readingByMeterId (readings : List GridReading) (meterId : Id) : Option GridReading :=
  (readings.filter fun r => r.meterId = meterId).getLast?

/-- A row that `rows` has no entry for. -/
def emptyRow : RowState := ⟨"", none, .idle, none⟩

/-- The initial value of `useState`, for one meter. -/
def initialRow (props : ReadingsGridProps) (meterId : Id) : RowState :=
  match readingByMeterId props.readings meterId with
  | some existing => ⟨existing.valueCurrent, some existing, .saved, none⟩
  | none => emptyRow

/-- The first render. -/
def mount (props : ReadingsGridProps) : ReadingsGrid where
  props := props
  rows meterId := if meterId ∈ props.meters then some (initialRow props meterId) else none
  since meterId := if meterId ∈ props.meters then
    (readingByMeterId props.readings meterId).map fun _ => props.period else none

/-- Every later render: the initial value of `useState` is not looked at. -/
def rerender (g : ReadingsGrid) (props : ReadingsGridProps) : ReadingsGrid :=
  { g with props := props }

def row (g : ReadingsGrid) (meterId : Id) : RowState := (g.rows meterId).getD emptyRow

def updateRow (g : ReadingsGrid) (meterId : Id) (patch : RowState → RowState) : ReadingsGrid :=
  { g with rows := Function.update g.rows meterId (some (patch (g.row meterId))) }

theorem row_updateRow (g : ReadingsGrid) (m m' : Id) (patch : RowState → RowState) :
    (g.updateRow m patch).row m' = if m' = m then patch (g.row m) else g.row m' := by
  by_cases same : m' = m
  · subst same
    simp [row, updateRow]
  · simp [row, updateRow, same]

/-- The row is shown, and neither its input nor its button is disabled. -/
def Enabled (g : ReadingsGrid) (meterId : Id) : Prop :=
  meterId ∈ g.props.meters ∧ (g.row meterId).status ≠ .saving

instance (g : ReadingsGrid) (meterId : Id) : Decidable (g.Enabled meterId) :=
  inferInstanceAs (Decidable (_ ∧ _))

/-- `onChange` of the input. -/
def edit (g : ReadingsGrid) (meterId : Id) (text : String) : ReadingsGrid :=
  if g.Enabled meterId then
    g.updateRow meterId fun row =>
      { row with
        inputValue := text
        status := if row.status = .saved then .idle else row.status }
  else g

/-- `row.inputValue.trim()`. -/
def value (row : RowState) : String :=
  String.ofList (AuditLogInterceptor.trim row.inputValue.toList)

/-- `onClick` of the button sends a request. -/
def Sends (g : ReadingsGrid) (meterId : Id) : Prop := g.Enabled meterId ∧ value (g.row meterId) ≠ ""

instance (g : ReadingsGrid) (meterId : Id) : Decidable (g.Sends meterId) :=
  inferInstanceAs (Decidable (_ ∧ _))

/-- The request of `useRowSave`: PATCH if there is a saved reading, POST otherwise. -/
def request (g : ReadingsGrid) (meterId : Id) : SaveRequest :=
  match (g.row meterId).saved with
  | some saved => .update saved.id (value (g.row meterId))
  | none => .create meterId g.props.period (value (g.row meterId))

/-- `save` of `useRowSave`, up to its first `await`. -/
def save (g : ReadingsGrid) (meterId : Id) : ReadingsGrid :=
  if g.Sends meterId then
    g.updateRow meterId fun row => { row with status := .saving, error := none }
  else if g.Enabled meterId then
    g.updateRow meterId fun row =>
      { row with status := .error, error := some "กรอกค่ามิเตอร์ก่อนบันทึก" }
  else g

/-- `save` of `useRowSave` after its `await`. -/
def settle (g : ReadingsGrid) (meterId : Id) (since : Period) :
    Except String GridReading → ReadingsGrid
  | .error message => g.updateRow meterId fun row =>
    { row with status := .error, error := some message }
  | .ok reading =>
    { g.updateRow meterId fun _ => ⟨reading.valueCurrent, some reading, .saved, none⟩ with
      since := Function.update g.since meterId (some since) }

end ReadingsGrid

/-! ## The server -/

def projectReading (r : ReadingRow) : GridReading :=
  ⟨r.id, r.meterId, r.period, r.valueCurrent.toString⟩

/-- The message that `mapReadingApiError` answers. -/
def mapReadingApiError (err : Failure) (fallbackMessage : String) : String :=
  match err with
  | .http _ "NegativeConsumption" _ =>
    "ค่าใหม่ต้องไม่น้อยกว่าค่าก่อนหน้า — มิเตอร์เดินถอยหลังไม่ได้"
  | .http _ "ReadingAlreadyExists" _ => "มีคนกรอกค่ามิเตอร์รอบนี้ไปแล้ว — กรุณารีเฟรชหน้า"
  | .http _ "InvalidMeterId" _ => "ไม่พบมิเตอร์นี้ — อาจถูกลบหรือย้ายไปอาคารอื่น"
  | .http .badRequest _ message => if message = "" then fallbackMessage else message
  | .http .notFound _ _ => "ไม่พบ reading นี้"
  | .http .conflict _ _ => "มีคนกรอกค่ามิเตอร์รอบนี้ไปแล้ว — กรุณารีเฟรชหน้า"
  | .http .internal _ _ | .prisma _ _ | .error _ => fallbackMessage

/-- The value that a service is given for a text. -/
def meterValue (text : String) : Option MeterValue :=
  (meterValueSchema text).map fun value => ⟨text, value⟩

/-- An action after its schema: the call, and the result that the grid is given. -/
def answered (S : Server) (e : Estate) (fallbackMessage : String) (p : Prog leasing ReadingRow) :
    Estate × Except String GridReading :=
  let ended := p.serve (Leasing.engine S) (fun _ => true) e
  (ended.commit (Leasing.engine S) e, match ended.answer with
    | .ok row => .ok (projectReading row)
    | .error err => .error (mapReadingApiError err fallbackMessage))

/-- `createReadingAction` and `updateReadingAction`. -/
def action (S : Server) (ctx : Ctx) (newId : Id) (now : Instant) (e : Estate) :
    SaveRequest → Estate × Except String GridReading
  | .create meterId period valueCurrent =>
    match meterValue valueCurrent with
    | none => (e, .error "กรุณากรอกค่ามิเตอร์ให้ถูกต้อง")
    | some value => answered S e "บันทึกค่ามิเตอร์ไม่สำเร็จ"
      (ReadingService.create ctx newId now ⟨meterId, period, value, none, none⟩)
  | .update id valueCurrent =>
    match meterValue valueCurrent with
    | none => (e, .error "กรุณาตรวจสอบค่าที่กรอก")
    | some value => answered S e "อัปเดตค่ามิเตอร์ไม่สำเร็จ"
      (ReadingService.update ctx id ⟨some value, none, none⟩)

/-- What a request of the page asks for: its period, the meters of the rooms in
scope, and the readings on the first page of the period's. -/
structure Visit where
  period : Period
  inScope : MeterRow → Bool
  listed : ReadingRow → Bool
  loads : Bool

/-- `ReadingsPage`: the props of the grid, or a card without one. -/
def ReadingsPage (ctx : Ctx) (e : Estate) (v : Visit) : Option ReadingsGridProps :=
  let meters := (e.meters.rows.filter fun m => m.companyId = ctx.companyId ∧ v.inScope m).map
    fun m => m.id
  let readings := (e.readings.rows.filter fun r =>
    r.companyId = ctx.companyId ∧ r.period = v.period ∧ v.listed r).map projectReading
  if v.loads ∧ meters ≠ [] then some ⟨v.period, meters, readings⟩ else none

end Dormitory.WebAdmin
