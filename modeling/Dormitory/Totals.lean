import Dormitory.Batch
import Dormitory.Exact

/-!
# Line totals and invoice totals

Both creation paths of `modules/billing/invoice.service.ts`: what the columns
keep is the exact product of each line, rounded once, and the exact sum of the
lines.
-/

namespace Dormitory
open Txn

/-! ## What the schemas accept

`zod/invoice.ts` over `zod/primitives.ts`. A text has no more code points than
the UTF-16 units that `max` counts; an array has fewer than `2 ^ 32` elements. -/

structure CreateInvoiceItem.Accepted (it : CreateInvoiceItem) : Prop where
  description : 1 ≤ it.description.length ∧ it.description.length ≤ 255
  quantity : it.quantity.Digits 10 2
  unitPrice : it.unitPrice.Digits 6 4

structure CreateInvoiceInput.Accepted (input : CreateInvoiceInput) : Prop where
  items : ∀ it ∈ input.items, it.Accepted
  nonempty : 1 ≤ input.items.length
  array : input.items.length < 2 ^ 32

structure BatchAdditionalItem.Accepted (add : BatchAdditionalItem) : Prop where
  kind : add.kind ∈ [InvoiceItemKind.common_fee, .deposit, .other]
  description : 1 ≤ add.description.length ∧ add.description.length ≤ 255
  quantity : add.quantity.Digits 10 2
  unitPrice : add.unitPrice.Digits 6 4

structure BatchGenerateInvoicesInput.Accepted (input : BatchGenerateInvoicesInput) : Prop where
  dueDayOfMonth : 1 ≤ input.dueDayOfMonth ∧ input.dueDayOfMonth ≤ 28
  additionalItems : ∀ add ∈ input.additionalItems, add.Accepted
  few : input.additionalItems.length ≤ 10

/-! ## Columns -/

namespace Numeric
variable {p s : Nat} {x : Decimal} {n : Numeric p s}

/-- A column keeps the value of a number that has no more digits than it. -/
theorem store_value (h : store p s x = some n) (short : x.scale ≤ s) :
    n.toDecimal.value = x.value := by
  have units := store_eq_some.mp h
  rw [Decimal.toFixed, if_pos short] at units
  obtain ⟨k, rfl⟩ := Nat.exists_eq_add_of_le short
  rw [Nat.add_sub_cancel_left] at units
  simp only [toDecimal, Decimal.value, units]
  push_cast
  rw [pow_add]
  field_simp

theorem digits_of_store {whole : Nat} {n : Numeric (whole + s) s}
    (h : store (whole + s) s x = some n) (short : x.scale ≤ s) : x.Digits whole s := by
  have units := store_eq_some.mp h
  have fits := n.fits
  refine ⟨short, ?_⟩
  rw [units, Decimal.toFixed, if_pos short, Int.natAbs_mul, Int.natAbs_pow] at fits
  have split : (10 : Nat) ^ (whole + s) = 10 ^ (whole + x.scale) * 10 ^ (s - x.scale) := by
    rw [← pow_add]
    congr 1
    omega
  rw [split] at fits
  exact Nat.lt_of_mul_lt_mul_right fits

end Numeric

/-- The exact product of a line in satang, rounded once. -/
def lineExact (quantity unitPrice : Decimal) : Int :=
  halfAway (100 * (quantity.value * unitPrice.value))

/-- A line as `create` prices it, in a form its columns keep. -/
structure ItemData.Priced (d : ItemData) : Prop where
  quantity : d.quantity.scale ≤ 2
  unitPrice : d.unitPrice.scale ≤ 4
  lineTotal : d.lineTotal = satang (toStorage (moneyMul d.quantity d.unitPrice))

theorem ItemData.store_some {d : ItemData} {it : InvoiceItem} (h : d.store = some it) :
    Numeric.store 12 2 d.quantity = some it.quantity ∧
      Numeric.store 10 4 d.unitPrice = some it.unitPrice ∧
      Numeric.store 10 2 d.lineTotal = some it.lineTotal ∧ d.description.length ≤ 255 ∧
      it.kind = d.kind ∧ it.description = d.description ∧ it.readingId = d.readingId := by
  simp only [ItemData.store, Option.bind_eq_bind, Option.bind_eq_some_iff] at h
  obtain ⟨quantity, hq, unitPrice, hu, lineTotal, ht, h⟩ := h
  split at h
  · rename_i short
    cases h
    exact ⟨hq, hu, ht, short, rfl, rfl, rfl⟩
  · cases h

/-- What the columns keep of a priced line. -/
theorem ItemData.Priced.stored {d : ItemData} (priced : d.Priced) {it : InvoiceItem}
    (h : d.store = some it) :
    it.quantity.toDecimal.value = d.quantity.value ∧
      it.unitPrice.toDecimal.value = d.unitPrice.value ∧
      it.lineTotal.units = lineExact d.quantity d.unitPrice := by
  obtain ⟨hq, hu, ht, -⟩ := ItemData.store_some h
  refine ⟨Numeric.store_value hq priced.quantity, Numeric.store_value hu priced.unitPrice, ?_⟩
  have units : it.lineTotal.units = toStorage (moneyMul d.quantity d.unitPrice) := by
    rw [Numeric.store_eq_some.mp ht, priced.lineTotal]
    exact Decimal.toStorage_satang _
  have fits := it.lineTotal.fits
  rw [units] at fits ⊢
  exact Decimal.toStorage_times (Numeric.digits_of_store hq priced.quantity)
    (Numeric.digits_of_store hu priced.unitPrice) (.inl fits)

/-! ## Stored invoices -/

/-- Every line is its exact product and the total their exact sum. -/
structure Invoice.Exact (r : Invoice) : Prop where
  lines : ∀ it ∈ r.items,
    it.lineTotal.units = lineExact it.quantity.toDecimal it.unitPrice.toDecimal
  total : r.total.units = (r.items.map fun it => it.lineTotal.units).sum
  subtotal : r.subtotal = r.total

/-- An invoice as both paths price it. -/
structure InvoiceData.Priced (d : InvoiceData) : Prop where
  items : ∀ it ∈ d.items, it.Priced
  array : d.items.length < 2 ^ 32
  subtotal : d.subtotal = InvoiceService.subtotal d.items
  total : d.total = InvoiceService.subtotal d.items

/-- The stored line totals are the computed ones. -/
theorem stored_totals {ds : List ItemData} {is : List InvoiceItem}
    (lines : List.Forall₂ (fun d i => d.store = some i) ds is) (priced : ∀ d ∈ ds, d.Priced) :
    ds.map ItemData.lineTotal = (is.map fun it => it.lineTotal.units).map satang := by
  induction lines with
  | nil => rfl
  | @cons d it ds is stored _ ih =>
    obtain ⟨-, -, ht, -⟩ := ItemData.store_some stored
    have first : d.lineTotal = satang it.lineTotal.units := by
      rw [Numeric.store_eq_some.mp ht, (priced d (by simp)).lineTotal]
      exact congrArg satang (Decimal.toStorage_satang _).symm
    rw [List.map_cons, first, ih fun d hd => priced d (by simp [hd])]
    rfl

/-- **A stored invoice is exact.** -/
theorem InvoiceData.Priced.exact {d : InvoiceData} (priced : d.Priced) {r : Invoice}
    (makes : d.Makes r) : r.Exact := by
  have lines := stored_lines makes.items
  constructor
  · intro it hit
    obtain ⟨d', hd', stored⟩ := exists_source lines hit
    obtain ⟨quantity, unitPrice, lineTotal⟩ := (priced.items d' hd').stored stored
    rw [lineTotal, lineExact, lineExact, quantity, unitPrice]
  · have bound : ∀ a ∈ r.items.map fun it => it.lineTotal.units, a.natAbs < 10 ^ 10 := by
      intro a ha
      obtain ⟨it, -, rfl⟩ := List.mem_map.mp ha
      exact it.lineTotal.fits
    have len : (r.items.map fun it => it.lineTotal.units).length < 2 ^ 32 := by
      rw [List.length_map, ← lines.length_eq]
      exact priced.array
    rw [Numeric.store_eq_some.mp makes.total, priced.total, InvoiceService.subtotal,
      stored_totals lines priced.items, moneySum_exact _ bound len]
    exact Decimal.toStorage_satang _
  · have same : some r.subtotal = some r.total := by
      rw [← makes.subtotal, ← makes.total, priced.subtotal, priced.total]
    exact Option.some.inj same

/-! ## Single invoices -/

namespace InvoiceService
section create
variable (S : Server) (ctx : Ctx) (newId : Id) (now : Instant) (input : CreateInvoiceInput)
  (env : Env billing)

/-- The row `create` inserts for a contract. -/
def invoiceData (contract : Contract) : InvoiceData where
  id := newId
  companyId := ctx.companyId
  contractId := contract.id
  unitId := contract.unitId
  tenantId := contract.tenantId
  period := input.period
  issueDate := now
  dueDate := input.dueDate
  subtotal := subtotal (lineItems ctx input.items)
  total := subtotal (lineItems ctx input.items)
  status := .draft
  items := lineItems ctx input.items

/-- The contract that `create` bills, as its first statement reads it. -/
def billed : Option Contract :=
  ((env.db 0).contracts.find? input.contractId).filter fun k => k.companyId = ctx.companyId

theorem create_unbilled (missing : billed ctx input env = none) :
    ∃ err x n, (create ctx newId now input).runIn (engine S) env 0 {} = ⟨.error err, x, n⟩ := by
  unfold create
  rw [runIn_prisma S ctx _ env _ 0 rfl]
  unfold billed at missing
  simp only [List.foldl_nil, missing]
  exact ⟨_, _, _, rfl⟩

variable {contract : Contract} (found : billed ctx input env = some contract)
include found

theorem create_inserted {row : Invoice}
    (accepted : S.createInvoice (invoiceData ctx newId now input contract) (env.db 1) =
      .ok ([.invoice row], row)) :
    ∃ tr, (create ctx newId now input).runIn (engine S) env 0 {} =
      ⟨.ok row, ⟨[.invoice row], [], false, tr⟩, 2⟩ := by
  unfold create
  rw [runIn_prisma S ctx _ env _ 0 rfl]
  unfold billed at found
  simp only [List.foldl_nil, List.append_nil, found]
  have hr : S.run ctx.companyId (.invoiceCreate (invoiceData ctx newId now input contract))
      (([] : List Row).foldl Row.apply (env.db (0 + 1))) = .ok ([.invoice row], row) := accepted
  rw [Prog.runIn_attempt, ← Prog.bind_pure (prisma ctx _)]
  simp only [invoiceData] at hr
  rw [runIn_prisma S ctx _ env _ (0 + 1) hr]
  exact ⟨_, rfl⟩

theorem create_refused {err : Failure}
    (refused : S.createInvoice (invoiceData ctx newId now input contract) (env.db 1) =
      .error err) :
    ∃ err x n, (create ctx newId now input).runIn (engine S) env 0 {} = ⟨.error err, x, n⟩ := by
  unfold create
  rw [runIn_prisma S ctx _ env _ 0 rfl]
  unfold billed at found
  simp only [List.foldl_nil, List.append_nil, found]
  have hr : S.run ctx.companyId (.invoiceCreate (invoiceData ctx newId now input contract))
      (([] : List Row).foldl Row.apply (env.db (0 + 1))) = .error err := refused
  rw [Prog.runIn_attempt, ← Prog.bind_pure (prisma ctx _)]
  simp only [invoiceData] at hr
  rw [runIn_prisma_error S ctx _ env _ (0 + 1) hr]
  simp only
  split <;> exact ⟨_, _, _, rfl⟩

end create

/-- `create` answers exactly with the row that its INSERT made. -/
theorem create_ok_iff (S : Server) (ctx : Ctx) (newId : Id) (now : Instant)
    (input : CreateInvoiceInput) (env : Env billing) (row : Invoice) :
    ((create ctx newId now input).runIn (engine S) env 0 {}).answer = .ok row ↔
      ∃ contract, billed ctx input env = some contract ∧
        S.createInvoice (invoiceData ctx newId now input contract) (env.db 1) =
          .ok ([.invoice row], row) := by
  cases found : billed ctx input env with
  | none =>
    obtain ⟨err, x, n, run⟩ := create_unbilled S ctx newId now input env found
    simp [run]
  | some contract =>
    cases result : S.createInvoice (invoiceData ctx newId now input contract) (env.db 1) with
    | error err =>
      obtain ⟨err', x, n, run⟩ := create_refused S ctx newId now input env found result
      simp [run, result]
    | ok a =>
      obtain ⟨r, rfl, -⟩ := S.createInvoice_row result
      obtain ⟨tr, run⟩ := create_inserted S ctx newId now input env found result
      simp [run, result]

/-- Every line of `create` is priced the same way. -/
theorem lineItems_priced (ctx : Ctx) {items : List CreateInvoiceItem}
    (accepted : ∀ it ∈ items, it.Accepted) : ∀ d ∈ lineItems ctx items, d.Priced := by
  intro d hd
  simp only [lineItems, List.mem_map, Prod.exists] at hd
  obtain ⟨it, idx, hit, rfl⟩ := hd
  have source := accepted it (List.fst_mem_of_mem_zipIdx hit)
  exact ⟨source.quantity.1, source.unitPrice.1, rfl⟩

theorem invoiceData_priced (ctx : Ctx) (newId : Id) (now : Instant) {input : CreateInvoiceInput}
    (accepted : input.Accepted) (contract : Contract) :
    (invoiceData ctx newId now input contract).Priced where
  items := lineItems_priced ctx accepted.items
  array := by
    have len : (lineItems ctx input.items).length = input.items.length := by simp [lineItems]
    exact Nat.lt_of_le_of_lt (Nat.le_of_eq len) accepted.array
  subtotal := rfl
  total := rfl

end InvoiceService

/-- A stored line that is the given one, at its exact price. -/
structure InvoiceItem.Bills (stored : InvoiceItem) (it : CreateInvoiceItem) : Prop where
  kind : stored.kind = it.kind
  quantity : stored.quantity.toDecimal.value = it.quantity.value
  unitPrice : stored.unitPrice.toDecimal.value = it.unitPrice.value
  lineTotal : stored.lineTotal.units = lineExact it.quantity it.unitPrice

/-- The exact line totals and the exact total fit their columns. -/
def CreateInvoiceInput.Fits (input : CreateInvoiceInput) : Prop :=
  (∀ it ∈ input.items, (lineExact it.quantity it.unitPrice).natAbs < 10 ^ 10) ∧
    ((input.items.map fun it => lineExact it.quantity it.unitPrice).sum).natAbs < 10 ^ 10

/-- Nothing but the columns can refuse the INSERT of `create`. -/
structure CreateInvoiceInput.Insertable (input : CreateInvoiceInput) (ctx : Ctx) (newId : Id)
    (env : Env billing) : Prop where
  contract : (InvoiceService.billed ctx input env).isSome
  fresh : (env.db 1).invoices.find? newId = none
  free : ¬ (env.db 1).slotTaken input.contractId input.period
  readings : ∀ it ∈ input.items, ∀ r ∈ it.readingId, ((env.db 1).readings.find? r).isSome

namespace InvoiceService

theorem lineItems_bills (ctx : Ctx) {items : List CreateInvoiceItem}
    (accepted : ∀ it ∈ items, it.Accepted) {is : List InvoiceItem}
    (stored : (lineItems ctx items).mapM ItemData.store = some is) :
    List.Forall₂ (fun it i => InvoiceItem.Bills i it) items is := by
  have lines := stored_lines stored
  have priced := lineItems_priced ctx accepted
  rw [List.forall₂_iff_get] at lines ⊢
  have len : (lineItems ctx items).length = items.length := by simp [lineItems]
  refine ⟨len.symm.trans lines.1, fun k hk hk' => ?_⟩
  have here : k < (lineItems ctx items).length := by omega
  have kept := lines.2 k here hk'
  have line := priced _ (List.get_mem (lineItems ctx items) ⟨k, here⟩)
  simp only [lineItems, List.get_eq_getElem, List.getElem_map, List.getElem_zipIdx] at kept line
  obtain ⟨quantity, unitPrice, lineTotal⟩ := line.stored kept
  obtain ⟨-, -, -, -, kind, -, -⟩ := ItemData.store_some kept
  exact ⟨kind, quantity, unitPrice, lineTotal⟩

theorem lineItems_totals (ctx : Ctx) {items : List CreateInvoiceItem}
    (accepted : ∀ it ∈ items, it.Accepted)
    (fits : ∀ it ∈ items, (lineExact it.quantity it.unitPrice).natAbs < 10 ^ 10) :
    (lineItems ctx items).map ItemData.lineTotal =
      (items.map fun it => lineExact it.quantity it.unitPrice).map satang := by
  apply List.ext_getElem (by simp [lineItems])
  intro k hk hk'
  simp only [List.length_map] at hk'
  have mem : items[k] ∈ items := List.getElem_mem _
  have source := accepted _ mem
  have exact := Decimal.toStorage_times source.quantity source.unitPrice (.inr (fits _ mem))
  simp only [lineItems, List.getElem_map, List.getElem_zipIdx]
  exact congrArg satang exact

theorem items_fit {ds : List ItemData} (each : ∀ d ∈ ds, d.store.isSome) :
    (ds.mapM ItemData.store).isSome := by
  induction ds with
  | nil => rfl
  | cons d ds ih =>
    obtain ⟨i, hi⟩ := Option.isSome_iff_exists.mp (each d (by simp))
    obtain ⟨is, his⟩ := Option.isSome_iff_exists.mp (ih fun d hd => each d (by simp [hd]))
    simp [List.mapM_cons, hi, his]

theorem store_fits {d : ItemData} (quantity : d.quantity.Digits 10 2)
    (unitPrice : d.unitPrice.Digits 6 4) (lineTotal : (toStorage d.lineTotal).natAbs < 10 ^ 10)
    (description : d.description.length ≤ 255) : d.store.isSome := by
  have column : ∀ {whole s : Nat} {x : Decimal}, x.Digits whole s →
      (Numeric.store (whole + s) s x).isSome := by
    intro whole s x digits
    rw [Numeric.store_isSome, Decimal.toFixed, if_pos digits.1, Int.natAbs_mul, Int.natAbs_pow]
    have split : 10 ^ (whole + s) = 10 ^ (whole + x.scale) * 10 ^ (s - x.scale) := by
      have := digits.1
      rw [← pow_add]
      congr 1
      omega
    rw [split]
    exact Nat.mul_lt_mul_of_pos_right digits.2 (Nat.pos_of_ne_zero (by simp))
  obtain ⟨q, hq⟩ := Option.isSome_iff_exists.mp (column quantity)
  obtain ⟨u, hu⟩ := Option.isSome_iff_exists.mp (column unitPrice)
  have total : (Numeric.store 10 2 d.lineTotal).isSome := Numeric.store_isSome.mpr lineTotal
  obtain ⟨t, ht⟩ := Option.isSome_iff_exists.mp total
  simp [ItemData.store, hq, hu, ht, description]

/-- Lines and a total that fit are stored. -/
theorem invoiceData_fits (ctx : Ctx) (newId : Id) (now : Instant) {input : CreateInvoiceInput}
    (accepted : input.Accepted) (fits : input.Fits) (contract : Contract) :
    (invoiceData ctx newId now input contract).AmountsFit ∧
      (invoiceData ctx newId now input contract).ItemsFit := by
  have totals := lineItems_totals ctx accepted.items fits.1
  have sum : subtotal (lineItems ctx input.items) =
      satang (input.items.map fun it => lineExact it.quantity it.unitPrice).sum := by
    rw [subtotal, totals, moneySum_exact]
    · intro a ha
      obtain ⟨it, hit, rfl⟩ := List.mem_map.mp ha
      exact fits.1 it hit
    · simpa using accepted.array
  have amount : (Numeric.store 10 2 (subtotal (lineItems ctx input.items))).isSome := by
    rw [Numeric.store_isSome, sum]
    exact lt_of_eq_of_lt (congrArg Int.natAbs (Decimal.toStorage_satang _)) fits.2
  refine ⟨⟨amount, amount⟩, items_fit fun d hd => ?_⟩
  have line : d.lineTotal ∈ (lineItems ctx input.items).map ItemData.lineTotal :=
    List.mem_map.mpr ⟨d, hd, rfl⟩
  simp only [invoiceData, lineItems, List.mem_map, Prod.exists] at hd
  obtain ⟨it, idx, hit, rfl⟩ := hd
  have mem := List.fst_mem_of_mem_zipIdx hit
  have source := accepted.items it mem
  have exact := Decimal.toStorage_times source.quantity source.unitPrice (.inr (fits.1 it mem))
  refine store_fits source.quantity source.unitPrice ?_ source.description.2
  rw [Decimal.toStorage_satang]
  exact lt_of_eq_of_lt (congrArg Int.natAbs exact) (fits.1 it mem)

theorem lineItems_readings {ctx : Ctx} {items : List CreateInvoiceItem} {d : ItemData}
    (h : d ∈ lineItems ctx items) : ∃ it ∈ items, d.readingId = it.readingId := by
  simp only [lineItems, List.mem_map, Prod.exists] at h
  obtain ⟨it, idx, hit, rfl⟩ := h
  exact ⟨it, List.fst_mem_of_mem_zipIdx hit, rfl⟩

theorem sum_bills {items : List CreateInvoiceItem} {is : List InvoiceItem}
    (bills : List.Forall₂ (fun it i => InvoiceItem.Bills i it) items is) :
    (is.map fun i => i.lineTotal.units) =
      items.map fun it => lineExact it.quantity it.unitPrice := by
  induction bills with
  | nil => rfl
  | cons first _ ih => rw [List.map_cons, List.map_cons, first.lineTotal, ih]

/-- `create` stores what it is given, at exact prices. -/
theorem create_stores (S : Server) (ctx : Ctx) (newId : Id) (now : Instant)
    {input : CreateInvoiceInput} (accepted : input.Accepted) (env : Env billing) {row : Invoice}
    (answer : ((create ctx newId now input).runIn (engine S) env 0 {}).answer = .ok row) :
    row.id = newId ∧ row.Exact ∧
      List.Forall₂ (fun it i => InvoiceItem.Bills i it) input.items row.items ∧
      ((create ctx newId now input).runIn (engine S) env 0 {}).written = [.invoice row] := by
  obtain ⟨contract, found, inserted⟩ := (create_ok_iff S ctx newId now input env row).mp answer
  obtain ⟨r, same, makes⟩ := S.createInvoice_row inserted
  obtain rfl : row = r := (Prod.mk.inj same).2
  obtain ⟨tr, run⟩ := create_inserted S ctx newId now input env found inserted
  refine ⟨makes.id, (invoiceData_priced ctx newId now accepted contract).exact makes,
    lineItems_bills ctx accepted.items makes.items, ?_⟩
  rw [run]
  rfl

/-- What holds of the company and the reading of every line is a fact about what
the items name. -/
theorem forall_lineItems (ctx : Ctx) (items : List CreateInvoiceItem)
    {P : Id → Option Id → Prop} :
    (∀ d ∈ lineItems ctx items, P d.companyId d.readingId) ↔
      ∀ it ∈ items, P ctx.companyId it.readingId := by
  simp only [lineItems, List.mem_map, Prod.exists]
  constructor
  · intro all it hit
    obtain ⟨n, place⟩ := List.getElem?_of_mem hit
    exact all _ ⟨it, n, List.mem_zipIdx_iff_getElem?.mpr place, rfl⟩
  · rintro all _ ⟨it, n, listed, rfl⟩
    exact all it (List.fst_mem_of_mem_zipIdx listed)

/-- An invoice that went in could be inserted, and its amounts fit. -/
theorem insertable_of_inserted {newId : Id} {now : Instant} {input : CreateInvoiceInput}
    {queueUp : Nat → Bool} {S : Server} {db : Db} {k : Contract} {ws : List Row} {r : Invoice}
    (found : billed ctx input ⟨fun _ => db, queueUp⟩ = some k)
    (ran : S.createInvoice (invoiceData ctx newId now input k) db = .ok (ws, r)) :
    input.Insertable ctx newId ⟨fun _ => db, queueUp⟩ := by
  obtain ⟨fresh, free, known, -⟩ := createInvoice_accepts ran
  have id : k.id = input.contractId := Table.find?_key (Option.filter_eq_some_iff.mp found).1
  refine ⟨by simp [found], fresh, ?_, ?_⟩
  · exact id ▸ free (by simp [invoiceData])
  · exact (forall_lineItems ctx input.items (P := fun _ named =>
      ∀ readingId ∈ named, (db.readings.find? readingId).isSome)).mp known

/-- Where only the columns can refuse it, `create` returns when the exact
amounts fit. -/
theorem create_returns_iff (S : Server) (ctx : Ctx) (newId : Id) (now : Instant)
    {input : CreateInvoiceInput} (accepted : input.Accepted) (env : Env billing)
    (ready : input.Insertable ctx newId env) :
    (∃ row, ((create ctx newId now input).runIn (engine S) env 0 {}).answer = .ok row) ↔
      input.Fits := by
  constructor
  · rintro ⟨row, answer⟩
    obtain ⟨-, exact, bills, -⟩ := create_stores S ctx newId now accepted env answer
    have units := sum_bills bills
    constructor
    · intro it hit
      have : lineExact it.quantity it.unitPrice ∈ row.items.map fun i => i.lineTotal.units := by
        rw [units]
        exact List.mem_map.mpr ⟨it, hit, rfl⟩
      obtain ⟨i, -, same⟩ := List.mem_map.mp this
      exact same ▸ i.lineTotal.fits
    · rw [← units, ← exact.total]
      exact row.total.fits
  · intro fits
    obtain ⟨contract, found⟩ := Option.isSome_iff_exists.mp ready.contract
    obtain ⟨amounts, fit⟩ := invoiceData_fits ctx newId now accepted fits contract
    have id : contract.id = input.contractId := by
      simp only [billed, Option.filter_eq_some_iff] at found
      exact Table.find?_key found.1
    have free : ¬ (env.db 1).slotTaken contract.id input.period := id ▸ ready.free
    have known : (invoiceData ctx newId now input contract).ReadingsKnown (env.db 1) := by
      intro d hd r hr
      obtain ⟨it, hit, same⟩ := lineItems_readings hd
      exact ready.readings it hit r (same ▸ hr)
    obtain ⟨row, inserted, -⟩ := S.createInvoice_ready
      (d := invoiceData ctx newId now input contract) ready.fresh ⟨amounts, fit, free⟩ known
    exact ⟨row, (create_ok_iff S ctx newId now input env row).mpr ⟨contract, found, inserted⟩⟩

/-! ## The batch -/

theorem rentItem_priced (ctx : Ctx) (period : Period) (rentAmount : Numeric 10 2)
    (unitNumber : String) (sortOrder : Nat) :
    (rentItem ctx period rentAmount unitNumber sortOrder).Priced where
  quantity := Nat.le_refl 2
  unitPrice := (by decide : 2 ≤ 4)
  lineTotal := by
    -- `1.00 * rent` has twelve digits at most, and two zeros to round off.
    have fits := rentAmount.fits
    have small : ((100 : Int) * rentAmount.units).natAbs < 10 ^ 20 := by omega
    have product : moneyMul ⟨100, 2⟩ rentAmount.toDecimal = ⟨100 * rentAmount.units, 4⟩ :=
      Decimal.round_small small
    have whole : (⟨100 * rentAmount.units, 4⟩ : Decimal).value = rentAmount.toDecimal.value := by
      simp only [Decimal.value, Numeric.toDecimal]
      push_cast
      ring
    show satang (toStorage rentAmount.toDecimal) =
      satang (toStorage (moneyMul ⟨100, 2⟩ rentAmount.toDecimal))
    rw [product, Decimal.toStorage_eq_halfAway, Decimal.toStorage_eq_halfAway, whole]

theorem meterItem_priced {ctx : Ctx} {period : Period} {meters : List Meter}
    {readings : List Reading} {kind : MeterKind} {make : Nat → ItemData}
    (h : meterItem ctx period meters readings kind = some make) (sortOrder : Nat) :
    (make sortOrder).Priced := by
  simp only [meterItem, Option.bind_eq_bind, Option.bind_eq_some_iff] at h
  obtain ⟨meter, -, reading, -, h⟩ := h
  cases h
  exact ⟨Nat.le_refl 2, Nat.le_refl 4, rfl⟩

/-- The batch prices its lines as `create` does. -/
theorem buildBatchItems_priced {ctx : Ctx} {period : Period} {rentAmount : Numeric 10 2}
    {unitNumber : String} {meters : List Meter} {readings : List Reading}
    {additional : List BatchAdditionalItem} (accepted : ∀ add ∈ additional, add.Accepted) :
    ∀ d ∈ buildBatchItems ctx period rentAmount unitNumber meters readings additional,
      d.Priced := by
  intro d hd
  simp only [buildBatchItems, List.mem_map, Prod.exists] at hd
  obtain ⟨make, n, hmake, rfl⟩ := hd
  rcases List.mem_cons.mp (List.fst_mem_of_mem_zipIdx hmake) with rfl | mem
  · exact rentItem_priced ctx period rentAmount unitNumber n
  · rcases List.mem_append.mp mem with mem | mem
    · obtain ⟨kind, -, found⟩ := List.mem_filterMap.mp mem
      exact meterItem_priced found n
    · obtain ⟨add, hadd, rfl⟩ := List.mem_map.mp mem
      exact ⟨(accepted add hadd).quantity.1, (accepted add hadd).unitPrice.1, rfl⟩

theorem length_buildBatchItems (ctx : Ctx) (period : Period) (rentAmount : Numeric 10 2)
    (unitNumber : String) (meters : List Meter) (readings : List Reading)
    (additional : List BatchAdditionalItem) :
    (buildBatchItems ctx period rentAmount unitNumber meters readings additional).length ≤
      3 + additional.length := by
  have two := List.length_filterMap_le (meterItem ctx period meters readings)
    [MeterKind.water, .electric]
  simp only [List.length_cons, List.length_nil] at two
  simp only [buildBatchItems, List.length_map, List.length_zipIdx, List.length_cons,
    List.length_append]
  omega

theorem planned_priced {ctx : Ctx} {newId : Id → Id} {now : Instant}
    {input : BatchGenerateInvoicesInput} (accepted : input.Accepted) {env : Env billing}
    {d : InvoiceData} (h : d ∈ planned ctx newId now input env) : d.Priced := by
  simp only [planned, inserts, List.mem_filterMap, Prod.exists] at h
  obtain ⟨c, u, -, h⟩ := h
  cases decided : plans ctx input env c u with
  | skip reason => simp [decided] at h
  | generate items =>
    simp only [decided, Option.some.injEq] at h
    subst h
    have built := plan_generate decided
    refine ⟨?_, ?_, rfl, rfl⟩
    · rw [show (batchInvoice ctx (newId c.id) now input c items).items = items from rfl, built]
      exact buildBatchItems_priced accepted.additionalItems
    · have len := length_buildBatchItems ctx input.period c.rentAmount u.unitNumber
        ((meters ctx input env).filter fun m => m.unitId = c.unitId) (readings ctx input env)
        input.additionalItems
      have few := accepted.few
      rw [← built] at len
      exact Nat.lt_of_le_of_lt len (by omega)

theorem planned_draft {ctx : Ctx} {newId : Id → Id} {now : Instant}
    {input : BatchGenerateInvoicesInput} {env : Env billing} {d : InvoiceData}
    (h : d ∈ planned ctx newId now input env) : d.status = .draft := by
  simp only [planned, inserts, List.mem_filterMap, Prod.exists] at h
  obtain ⟨c, u, -, h⟩ := h
  split at h <;> cases h
  rfl

/-- Every row a batch writes comes from one of its planned inserts. -/
theorem createBatch_writes {S : Server} {ctx : Ctx} {newId : Id → Id} {now : Instant}
    {input : BatchGenerateInvoicesInput} {env : Env billing} {w : Row}
    (h : w ∈ ((createBatch ctx newId now input).runIn (engine S) env 0 {}).written) :
    ∃ d ∈ planned ctx newId now input env, ∃ db r,
      S.createInvoice d db = .ok ([.invoice r], r) ∧ w = .invoice r := by
  have written : w ∈ ((createBatch ctx newId now input).runIn (engine S) env 0
      {}).session.writes := by
    simp only [Ending.written] at h
    split at h
    · split at h
      · cases h
      · exact h
    · cases h
  by_cases empty : contracts ctx input env = []
  · obtain ⟨tr, run⟩ := createBatch_empty S ctx newId now input env empty
    rw [run] at written
    cases written
  · obtain ⟨tr, run⟩ := createBatch_runIn S ctx newId now input env empty
    rw [run] at written
    rcases applyBatch_writes S env ctx newId now input _ _ _ _ _ written with old | made
    · cases old
    · exact made

/-- A batch that writes draws up only amounts that fit. -/
theorem createBatch_fits {S : Server} {ctx : Ctx} {newId : Id → Id} {now : Instant}
    {input : BatchGenerateInvoicesInput} {env : Env billing} {w : Row}
    (h : w ∈ ((createBatch ctx newId now input).runIn (engine S) env 0 {}).written) :
    ∀ d ∈ planned ctx newId now input env, d.AmountsFit := by
  intro d hd
  by_contra unfit
  obtain ⟨err, thrown⟩ := createBatch_overflow S ctx newId now input env ⟨d, hd, unfit⟩
  simp [Ending.written, thrown] at h

end InvoiceService

namespace InvoiceService

end InvoiceService

namespace Demo

end Demo

end Dormitory
