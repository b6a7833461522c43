import Mathlib.Logic.Function.Basic
import Dormitory.InvoiceService

/-!
# The monthly batch

`createBatch` inserts one draft per contract in one transaction, with no
savepoint around the insert. A duplicate that another request committed after
the pre-check is caught and skipped by the loop, but the transaction is broken:
the next insert of the loop throws, and if there is none the COMMIT drops the
invoices that the answer lists as generated.
-/

namespace Dormitory
open Txn

/-! ## One insert -/

namespace InvoiceData

/-- The invoice row itself fits its columns. -/
def AmountsFit (d : InvoiceData) : Prop :=
  (Numeric.store 10 2 d.subtotal).isSome ∧ (Numeric.store 10 2 d.total).isSome

def ItemsFit (d : InvoiceData) : Prop := (d.items.mapM ItemData.store).isSome

def ReadingsKnown (d : InvoiceData) (db : Db) : Prop :=
  ∀ it ∈ d.items, ∀ r ∈ it.readingId, (db.readings.find? r).isSome

/-- The insert meets nothing that refuses it. -/
def Ready (d : InvoiceData) (db : Db) : Prop :=
  d.AmountsFit ∧ d.ItemsFit ∧ ¬ db.slotTaken d.contractId d.period

instance (d : InvoiceData) (db : Db) : Decidable (d.Ready db) :=
  inferInstanceAs (Decidable ((_ ∧ _) ∧ (Option.isSome _ = true) ∧ ¬ _))

/-- The row is the one that the data make. -/
structure Makes (d : InvoiceData) (r : Invoice) : Prop where
  id : r.id = d.id
  companyId : r.companyId = d.companyId
  contractId : r.contractId = d.contractId
  unitId : r.unitId = d.unitId
  period : r.period = d.period
  status : r.status = d.status
  subtotal : Numeric.store 10 2 d.subtotal = some r.subtotal
  total : Numeric.store 10 2 d.total = some r.total
  items : d.items.mapM ItemData.store = some r.items

end InvoiceData

theorem ItemData.store_readingId {d : ItemData} {i : InvoiceItem} (h : d.store = some i) :
    i.readingId = d.readingId := by
  simp only [ItemData.store, Option.bind_eq_bind, Option.bind_eq_some_iff] at h
  obtain ⟨_, _, _, _, _, _, h⟩ := h
  split at h
  · cases h; rfl
  · cases h

/-- Each element of one list has its counterpart in the other. -/
theorem exists_made {α β : Type} {R : α → β → Prop} {as : List α} {bs : List β}
    (h : List.Forall₂ R as bs) {a : α} (ha : a ∈ as) : ∃ b ∈ bs, R a b := by
  induction h with
  | nil => cases ha
  | @cons a' b' as bs first _ ih =>
    rcases List.mem_cons.1 ha with rfl | ha
    · exact ⟨b', by simp, first⟩
    · obtain ⟨b, hb, r⟩ := ih ha
      exact ⟨b, by simp [hb], r⟩

theorem exists_source {α β : Type} {R : α → β → Prop} {as : List α} {bs : List β}
    (h : List.Forall₂ R as bs) {b : β} (hb : b ∈ bs) : ∃ a ∈ as, R a b :=
  exists_made h.flip hb

theorem stored_lines {ds : List ItemData} {is : List InvoiceItem}
    (h : ds.mapM ItemData.store = some is) : List.Forall₂ (fun d i => d.store = some i) ds is := by
  induction ds generalizing is with
  | nil =>
    simp only [List.mapM_nil, Option.pure_def, Option.some.injEq] at h
    subst h
    exact .nil
  | cons d ds ih =>
    simp only [List.mapM_cons, Option.bind_eq_bind, Option.bind_eq_some_iff, Option.pure_def,
      Option.some.injEq] at h
    obtain ⟨j, hj, js, hjs, rfl⟩ := h
    exact .cons hj (ih hjs)

/-- The stored items point at the readings that the data point at. -/
theorem stored_readings {ds : List ItemData} {is : List InvoiceItem}
    (h : ds.mapM ItemData.store = some is) (readingId : Id) :
    (∃ it ∈ is, it.readingId = some readingId) ↔ ∃ d ∈ ds, d.readingId = some readingId := by
  have lines := stored_lines h
  constructor
  · rintro ⟨it, hit, own⟩
    obtain ⟨d, hd, stored⟩ := exists_source lines hit
    exact ⟨d, hd, (ItemData.store_readingId stored).symm.trans own⟩
  · rintro ⟨d, hd, own⟩
    obtain ⟨it, hit, stored⟩ := exists_made lines hd
    exact ⟨it, hit, (ItemData.store_readingId stored).trans own⟩

namespace Server
variable (S : Server) {d : InvoiceData} {db : Db} (fresh : db.invoices.find? d.id = none)
include fresh

theorem createInvoice_ready (ready : d.Ready db) (known : d.ReadingsKnown db) :
    ∃ r, S.createInvoice d db = .ok ([.invoice r], r) ∧ d.Makes r := by
  obtain ⟨⟨subtotal, total⟩, items, free⟩ := ready
  obtain ⟨subtotal, hsubtotal⟩ := Option.isSome_iff_exists.1 subtotal
  obtain ⟨total, htotal⟩ := Option.isSome_iff_exists.1 total
  obtain ⟨items, hitems⟩ := Option.isSome_iff_exists.1 items
  have readings : ∀ i ∈ items, ∀ r ∈ i.readingId, (db.readings.find? r).isSome := by
    intro i hi r hr
    obtain ⟨it, hit, own⟩ := (stored_readings hitems r).mp ⟨i, hi, hr⟩
    exact known it hit r own
  refine ⟨⟨d.id, d.companyId, d.contractId, d.unitId, d.tenantId, d.period, d.issueDate, d.dueDate,
    subtotal, total, d.status, none, items⟩, ?_,
    ⟨rfl, rfl, rfl, rfl, rfl, rfl, hsubtotal, htotal, hitems⟩⟩
  simp only [createInvoice, hsubtotal, htotal, fresh, Option.isSome_none, Bool.false_eq_true,
    if_false, free, and_false, hitems]
  exact if_pos readings

theorem createInvoice_raced (amounts : d.AmountsFit) (status : d.status ≠ .void)
    (taken : db.slotTaken d.contractId d.period) :
    S.createInvoice d db = .error (.prisma "P2002" (S.report ["contract_id", "period"])) := by
  obtain ⟨subtotal, hsubtotal⟩ := Option.isSome_iff_exists.1 amounts.1
  obtain ⟨total, htotal⟩ := Option.isSome_iff_exists.1 amounts.2
  simp [createInvoice, hsubtotal, htotal, fresh, taken, status]

theorem createInvoice_unfit (unready : ¬ d.Ready db)
    (unraced : ¬ (d.AmountsFit ∧ db.slotTaken d.contractId d.period)) :
    S.createInvoice d db = .error .tooLarge := by
  cases hsubtotal : Numeric.store 10 2 d.subtotal with
  | none => simp [createInvoice, hsubtotal]
  | some subtotal =>
    cases htotal : Numeric.store 10 2 d.total with
    | none => simp [createInvoice, hsubtotal, htotal]
    | some total =>
      have amounts : d.AmountsFit := by simp [InvoiceData.AmountsFit, hsubtotal, htotal]
      have free : ¬ db.slotTaken d.contractId d.period := fun taken => unraced ⟨amounts, taken⟩
      cases hitems : d.items.mapM ItemData.store with
      | none => simp [createInvoice, hsubtotal, htotal, fresh, free, hitems]
      | some items =>
        refine absurd ⟨amounts, ?_, free⟩ unready
        simp [InvoiceData.ItemsFit, hitems]

omit fresh in
theorem createInvoice_row {a : List Row × Invoice} (h : S.createInvoice d db = .ok a) :
    ∃ r, a = ([.invoice r], r) ∧ d.Makes r := by
  unfold createInvoice at h
  split at h
  · rename_i subtotal total hsubtotal htotal
    split at h
    · cases h
    split at h
    · cases h
    split at h
    · rename_i items hitems
      split at h
      · cases h
        exact ⟨_, rfl, rfl, rfl, rfl, rfl, rfl, rfl, hsubtotal, htotal, hitems⟩
      · cases h
    · cases h
  · cases h

omit fresh in
/-- Amounts that do not fit are refused whatever is stored. -/
theorem createInvoice_overflow (unfit : ¬ d.AmountsFit) :
    S.createInvoice d db = .error .tooLarge := by
  cases hsubtotal : Numeric.store 10 2 d.subtotal with
  | none => simp [createInvoice, hsubtotal]
  | some subtotal =>
    cases htotal : Numeric.store 10 2 d.total with
    | none => simp [createInvoice, hsubtotal, htotal]
    | some total => exact absurd ⟨by simp [hsubtotal], by simp [htotal]⟩ unfit

/-- The report of a raced slot is one that the loop recognises. -/
def NamesSlot : Prop :=
  InvoiceService.isUniqueConstraintError (.prisma "P2002" (S.report ["contract_id", "period"]))
    ["contract_id", "period"] = true

end Server

/-- What the INSERT of an invoice has checked, and the column that `Makes` leaves
out. -/
theorem createInvoice_accepts {S : Server} {d : InvoiceData} {db : Db} {ws : List Row} {r : Invoice}
    (ran : S.createInvoice d db = .ok (ws, r)) :
    db.invoices.find? d.id = none ∧ (d.status ≠ .void → ¬ db.slotTaken d.contractId d.period) ∧
      d.ReadingsKnown db ∧ r.tenantId = d.tenantId := by
  unfold Server.createInvoice at ran
  split at ran
  · split at ran
    · cases ran
    split at ran
    · cases ran
    split at ran
    · rename_i fresh free _ items stored
      split at ran
      · rename_i known
        cases ran
        refine ⟨by simpa using fresh, fun live taken => free ⟨live, taken⟩, ?_, rfl⟩
        intro it hit readingId names
        obtain ⟨i, hi, kept⟩ := exists_made (stored_lines stored) hit
        exact known i hi readingId (ItemData.store_readingId kept ▸ names)
      · cases ran
    · cases ran
  · cases ran

/-! ## The batch's own rows -/

/-- The rows are drafts of the batch, for the contracts `seen`. -/
def Drafts (newId : Id → Id) (seen : List Id) (ws : List Row) : Prop :=
  ∀ w ∈ ws, ∃ r, w = .invoice r ∧ r.contractId ∈ seen ∧ r.id = newId r.contractId

theorem drafts_nil (newId : Id → Id) : Drafts newId [] [] := fun _ hw => by cases hw

section view
variable {newId : Id → Id} {seen : List Id} {ws : List Row}

theorem Drafts.append (h : Drafts newId seen ws) {r : Invoice} (id : r.id = newId r.contractId) :
    Drafts newId (r.contractId :: seen) (ws ++ [.invoice r]) := by
  intro w hw
  rcases List.mem_append.1 hw with hw | hw
  · obtain ⟨r', same, old, id'⟩ := h w hw
    exact ⟨r', same, by simp [old], id'⟩
  · exact ⟨r, List.mem_singleton.1 hw, by simp, id⟩

theorem mem_view (h : Drafts newId seen ws) (db : Db) (i : Invoice) :
    i ∈ (ws.foldl Row.apply db).invoices.rows → i ∈ db.invoices.rows ∨ .invoice i ∈ ws := by
  induction ws generalizing db with
  | nil => exact .inl
  | cons w ws ih =>
    intro hi
    obtain ⟨r, rfl, -, -⟩ := h w (by simp)
    rcases ih (fun w hw => h w (by simp [hw])) _ hi with hi | hi
    · rcases Table.mem_put.1 hi with rfl | ⟨hi, -⟩
      · exact .inr (by simp)
      · exact .inl hi
    · exact .inr (by simp [hi])

theorem mem_view_old (h : Drafts newId seen ws) (db : Db) {i : Invoice} (hi : i ∈ db.invoices.rows)
    (other : ∀ c, i.id ≠ newId c) : i ∈ (ws.foldl Row.apply db).invoices.rows := by
  induction ws generalizing db with
  | nil => exact hi
  | cons w ws ih =>
    obtain ⟨r, rfl, -, id⟩ := h w (by simp)
    apply ih (fun w hw => h w (by simp [hw])) (Row.apply db (.invoice r))
    exact Table.mem_put.2 (.inr ⟨hi, fun same => other r.contractId (same.trans id)⟩)

theorem view_readings (h : Drafts newId seen ws) (db : Db) :
    (ws.foldl Row.apply db).readings = db.readings := by
  induction ws generalizing db with
  | nil => rfl
  | cons w ws ih =>
    obtain ⟨r, rfl, -, -⟩ := h w (by simp)
    exact ih (fun w hw => h w (by simp [hw])) (Row.apply db (.invoice r))

variable (injective : Function.Injective newId) {db : Db}
  (unused : ∀ c, db.invoices.find? (newId c) = none) {c : Id} (new : c ∉ seen)

include injective unused new in
theorem view_fresh (h : Drafts newId seen ws) :
    (ws.foldl Row.apply db).invoices.find? (newId c) = none := by
  rw [Table.find?_eq_none_iff, List.mem_map]
  rintro ⟨i, hi, id⟩
  rcases mem_view h db i hi with hi | hi
  · have := Table.find?_of_mem hi
    rw [id, unused c] at this
    cases this
  · obtain ⟨r, same, old, id'⟩ := h _ hi
    cases same
    have : i.contractId = c := injective (id'.symm.trans id)
    exact new (this ▸ old)

include unused new in
theorem view_slot (h : Drafts newId seen ws) (period : Period) :
    (ws.foldl Row.apply db).slotTaken c period ↔ db.slotTaken c period := by
  constructor
  · rintro ⟨i, hi, rfl, rest⟩
    rcases mem_view h db i hi with hi | hi
    · exact ⟨i, hi, rfl, rest⟩
    · obtain ⟨r, same, old, -⟩ := h _ hi
      cases same
      exact absurd old new
  · rintro ⟨i, hi, contract, rest⟩
    refine ⟨i, mem_view_old h db hi (fun c' same => ?_), contract, rest⟩
    have := Table.find?_of_mem hi
    rw [key_invoice, same, unused c'] at this
    cases this

end view

/-! ## The loop -/

namespace InvoiceService

/-- The invoices the loop tries to insert, in its order. -/
def inserts (ctx : Ctx) (newId : Id → Id) (now : Instant) (input : BatchGenerateInvoicesInput)
    (decide : Contract → DormUnit → Plan) (ks : List (Contract × DormUnit)) : List InvoiceData :=
  ks.filterMap fun (c, u) =>
    match decide c u with
    | .skip _ => none
    | .generate items => some (batchInvoice ctx (newId c.id) now input c items)

/-- The contracts the loop skips on its plan alone. -/
def skips (decide : Contract → DormUnit → Plan) (ks : List (Contract × DormUnit)) : List Skip :=
  ks.filterMap fun (c, u) =>
    match decide c u with
    | .skip reason => some ⟨c.unitId, c.id, reason⟩
    | .generate _ => none

/-- How the answer accounts for the contracts. -/
inductive Accounted (newId : Id → Id) (decide : Contract → DormUnit → Plan) :
    List (Contract × DormUnit) → List Id → List Skip → Prop
  | nil : Accounted newId decide [] [] []
  | skipped {c u reason ks generated skips} (plan : decide c u = .skip reason)
      (rest : Accounted newId decide ks generated skips) :
      Accounted newId decide ((c, u) :: ks) generated (⟨c.unitId, c.id, reason⟩ :: skips)
  | raced {c u items ks generated skips} (plan : decide c u = .generate items)
      (rest : Accounted newId decide ks generated skips) :
      Accounted newId decide ((c, u) :: ks) generated
        (⟨c.unitId, c.id, .duplicate_invoice⟩ :: skips)
  | generated {c u items ks generated skips} (plan : decide c u = .generate items)
      (rest : Accounted newId decide ks generated skips) :
      Accounted newId decide ((c, u) :: ks) (newId c.id :: generated) skips

section loop
variable (S : Server) (env : Env billing) (ctx : Ctx) (newId : Id → Id) (now : Instant)
  (input : BatchGenerateInvoicesInput) (decide : Contract → DormUnit → Plan)

theorem insertDraft_ok (data : InvoiceData) (n : Nat) (ws : List Row)
    (sv : List (String × List Row)) (tr : List (Statement × Db)) {r : Invoice}
    (h : S.createInvoice data (ws.foldl Row.apply (env.db n)) = .ok ([.invoice r], r)) :
    ∃ tr', (insertDraft ctx data).runIn (engine S) env n ⟨ws, sv, false, tr⟩ =
      ⟨.ok (some r.id), ⟨ws ++ [.invoice r], sv, false, tr'⟩, n + 1⟩ := by
  have hr : S.run ctx.companyId (.invoiceCreate data) (ws.foldl Row.apply (env.db n)) =
    .ok ([.invoice r], r) := h
  unfold insertDraft
  rw [Prog.runIn_attempt, runIn_prisma S ctx _ env _ n hr]
  exact ⟨_, rfl⟩

theorem insertDraft_error (data : InvoiceData) (n : Nat) (ws : List Row)
    (sv : List (String × List Row)) (tr : List (Statement × Db)) {err : Failure}
    (h : S.createInvoice data (ws.foldl Row.apply (env.db n)) = .error err) :
    (insertDraft ctx data).runIn (engine S) env n ⟨ws, sv, false, tr⟩ =
      ⟨if isUniqueConstraintError err ["contract_id", "period"] then .ok none else .error err,
        ⟨ws, sv, true, tr⟩, n + 1⟩ := by
  have hr : S.run ctx.companyId (.invoiceCreate data) (ws.foldl Row.apply (env.db n)) =
    .error err := h
  unfold insertDraft
  rw [Prog.runIn_attempt, runIn_prisma_error S ctx _ env _ n hr]
  simp only
  split <;> rfl

theorem insertDraft_broken (data : InvoiceData) (n : Nat) {x : Session billing}
    (h : x.broken = true) :
    (insertDraft ctx data).runIn (engine S) env n x = ⟨.error .aborted, x, n + 1⟩ := by
  unfold insertDraft
  rw [Prog.runIn_attempt, prisma_bind, Prog.runIn_sql, exec_broken S ctx _ _ h]
  rfl

theorem applyBatch_skip {c : Contract} {u : DormUnit} {reason : BatchSkipReason}
    (plan : decide c u = .skip reason) (ks : List (Contract × DormUnit))
    (acc : BatchGenerateInvoicesResult) :
    applyBatch ctx newId now input decide ((c, u) :: ks) acc =
      applyBatch ctx newId now input decide ks
        { acc with skipped := acc.skipped ++ [⟨c.unitId, c.id, reason⟩] } := by
  simp only [applyBatch, plan]

/-- What the loop goes on with after an insert. -/
def afterInsert (c : Contract) (ks : List (Contract × DormUnit))
    (acc : BatchGenerateInvoicesResult) :
    Option Id → Call BatchGenerateInvoicesResult
  | some id => applyBatch ctx newId now input decide ks
      { acc with generatedInvoiceIds := acc.generatedInvoiceIds ++ [id] }
  | none => applyBatch ctx newId now input decide ks
      { acc with skipped := acc.skipped ++ [⟨c.unitId, c.id, .duplicate_invoice⟩] }

theorem applyBatch_generate {c : Contract} {u : DormUnit} {items : List ItemData}
    (plan : decide c u = .generate items) (ks : List (Contract × DormUnit))
    (acc : BatchGenerateInvoicesResult) :
    applyBatch ctx newId now input decide ((c, u) :: ks) acc =
      insertDraft ctx (batchInvoice ctx (newId c.id) now input c items) >>=
        afterInsert ctx newId now input decide c ks acc := by
  simp only [applyBatch, plan]
  congr 1

/-- In a broken transaction the loop returns only if it has nothing to insert. -/
theorem applyBatch_broken (ks : List (Contract × DormUnit)) (acc : BatchGenerateInvoicesResult)
    (n : Nat) {x : Session billing} (h : x.broken = true) :
    (inserts ctx newId now input decide ks = [] →
      ∃ res m, (applyBatch ctx newId now input decide ks acc).runIn (engine S) env n x =
        ⟨.ok res, x, m⟩ ∧ res.generatedInvoiceIds = acc.generatedInvoiceIds) ∧
    (inserts ctx newId now input decide ks ≠ [] →
      ((applyBatch ctx newId now input decide ks acc).runIn (engine S) env n x).answer =
        .error .aborted) := by
  induction ks generalizing acc n with
  | nil => exact ⟨fun _ => ⟨acc, n, rfl, rfl⟩, fun h => absurd rfl h⟩
  | cons k ks ih =>
    obtain ⟨c, u⟩ := k
    cases plan : decide c u with
    | skip reason =>
      have same : inserts ctx newId now input decide ((c, u) :: ks) =
        inserts ctx newId now input decide ks := by simp [inserts, plan]
      rw [same, applyBatch_skip ctx newId now input decide plan]
      exact ih _ n
    | generate items =>
      constructor
      · intro none
        simp [inserts, plan] at none
      · intro _
        rw [applyBatch_generate ctx newId now input decide plan, Prog.runIn_bind,
          insertDraft_broken S env ctx _ n h]

/-- Amounts that do not fit are never taken for a duplicate. -/
theorem insertDraft_overflow {data : InvoiceData} (unfit : ¬ data.AmountsFit) (n : Nat)
    (x : Session billing) {created : Option Id} :
    ((insertDraft ctx data).runIn (engine S) env n x).answer ≠ .ok created := by
  obtain ⟨ws, sv, broken, tr⟩ := x
  cases broken with
  | true =>
    rw [insertDraft_broken S env ctx data n rfl]
    nofun
  | false =>
    rw [insertDraft_error S env ctx data n ws sv tr (S.createInvoice_overflow unfit)]
    nofun

/-- A created draft has the id it was given. -/
theorem insertDraft_id {data : InvoiceData} {n : Nat} {x : Session billing} {id : Id}
    (h : ((insertDraft ctx data).runIn (engine S) env n x).answer = .ok (some id)) :
    id = data.id := by
  obtain ⟨ws, sv, broken, tr⟩ := x
  cases broken with
  | true =>
    rw [insertDraft_broken S env ctx data n rfl] at h
    cases h
  | false =>
    cases result : S.createInvoice data (ws.foldl Row.apply (env.db n)) with
    | error err =>
      rw [insertDraft_error S env ctx data n ws sv tr result] at h
      simp only at h
      split at h <;> cases h
    | ok a =>
      obtain ⟨r, rfl, own⟩ := S.createInvoice_row result
      obtain ⟨_, run⟩ := insertDraft_ok S env ctx data n ws sv tr result
      rw [run] at h
      cases h
      exact own.id

/-- An answer accounts for every contract. -/
theorem applyBatch_accounts (ks : List (Contract × DormUnit)) (acc : BatchGenerateInvoicesResult)
    (n : Nat) (x : Session billing) {res : BatchGenerateInvoicesResult}
    (h : ((applyBatch ctx newId now input decide ks acc).runIn (engine S) env n x).answer =
      .ok res) :
    ∃ generated skips, Accounted newId decide ks generated skips ∧
      res = ⟨acc.generatedInvoiceIds ++ generated, acc.skipped ++ skips⟩ := by
  induction ks generalizing acc n x with
  | nil =>
    cases h
    exact ⟨[], [], .nil, by simp⟩
  | cons k ks ih =>
    obtain ⟨c, u⟩ := k
    cases plan : decide c u with
    | skip reason =>
      rw [applyBatch_skip ctx newId now input decide plan] at h
      obtain ⟨generated, skips, rest, rfl⟩ := ih _ n x h
      exact ⟨generated, _ :: skips, .skipped plan rest, by simp⟩
    | generate items =>
      rw [applyBatch_generate ctx newId now input decide plan, Prog.runIn_bind] at h
      cases inserted : ((insertDraft ctx (batchInvoice ctx (newId c.id) now input c items)).runIn
          (engine S) env n x).answer with
      | error e => simp [inserted] at h
      | ok created =>
        simp only [inserted] at h
        cases created with
        | none =>
          obtain ⟨generated, skips, rest, rfl⟩ := ih _ _ _ h
          exact ⟨generated, _ :: skips, .raced plan rest, by simp⟩
        | some id =>
          have own : id = newId c.id := insertDraft_id S env ctx inserted
          obtain ⟨generated, skips, rest, rfl⟩ := ih _ _ _ h
          exact ⟨newId c.id :: generated, skips, .generated plan rest, by simp [own]⟩

/-- An insert adds the row it made, or nothing. -/
theorem insertDraft_writes {data : InvoiceData} {n : Nat} {x : Session billing} {w : Row}
    (h : w ∈ ((insertDraft ctx data).runIn (engine S) env n x).session.writes) :
    w ∈ x.writes ∨ ∃ db r, S.createInvoice data db = .ok ([.invoice r], r) ∧ w = .invoice r := by
  obtain ⟨ws, sv, broken, tr⟩ := x
  cases broken with
  | true =>
    rw [insertDraft_broken S env ctx data n rfl] at h
    exact .inl h
  | false =>
    cases result : S.createInvoice data (ws.foldl Row.apply (env.db n)) with
    | error err =>
      rw [insertDraft_error S env ctx data n ws sv tr result] at h
      exact .inl h
    | ok a =>
      obtain ⟨r, rfl, -⟩ := S.createInvoice_row result
      obtain ⟨tr', run⟩ := insertDraft_ok S env ctx data n ws sv tr result
      rw [run] at h
      rcases List.mem_append.1 h with h | h
      · exact .inl h
      · exact .inr ⟨_, r, result, List.mem_singleton.1 h⟩

end loop

/-! ### Accounting -/

section accounting
variable {newId : Id → Id} {decide : Contract → DormUnit → Plan} {ks : List (Contract × DormUnit)}
  {generated : List Id} {skips : List Skip}

theorem Accounted.generated_mem (h : Accounted newId decide ks generated skips) {id : Id}
    (hid : id ∈ generated) : ∃ k ∈ ks, id = newId k.1.id := by
  induction h with
  | nil => cases hid
  | skipped _ _ ih | raced _ _ ih =>
    obtain ⟨k, hk, same⟩ := ih hid
    exact ⟨k, by simp [hk], same⟩
  | generated _ _ ih =>
    rcases List.mem_cons.1 hid with rfl | hid
    · exact ⟨_, List.mem_cons_self, rfl⟩
    · obtain ⟨k, hk, same⟩ := ih hid
      exact ⟨k, by simp [hk], same⟩

theorem Accounted.skips_mem (h : Accounted newId decide ks generated skips) {s : Skip}
    (hs : s ∈ skips) : ∃ k ∈ ks, s.contractId = k.1.id := by
  induction h with
  | nil => cases hs
  | skipped _ _ ih | raced _ _ ih =>
    rcases List.mem_cons.1 hs with rfl | hs
    · exact ⟨_, List.mem_cons_self, rfl⟩
    · obtain ⟨k, hk, same⟩ := ih hs
      exact ⟨k, by simp [hk], same⟩
  | generated _ _ ih =>
    obtain ⟨k, hk, same⟩ := ih hs
    exact ⟨k, by simp [hk], same⟩

theorem other_contract {c : Contract} (new : c.id ∉ ks.map fun k => k.1.id)
    {k : Contract × DormUnit} (hk : k ∈ ks) : c.id ≠ k.1.id :=
  fun same => new (List.mem_map.2 ⟨k, hk, same.symm⟩)

/-- Every contract is generated or skipped, and none is both. -/
theorem Accounted.one (h : Accounted newId decide ks generated skips)
    (injective : Function.Injective newId) (distinct : (ks.map fun k => k.1.id).Nodup) :
    ∀ k ∈ ks, Xor (newId k.1.id ∈ generated) (∃ s ∈ skips, s.contractId = k.1.id) := by
  induction h with
  | nil =>
    intro k hk
    cases hk
  | skipped _ rest ih | raced _ rest ih =>
    obtain ⟨new, distinct⟩ := List.nodup_cons.1 distinct
    intro k hk
    rcases List.mem_cons.1 hk with rfl | hk
    · refine .inr ⟨⟨_, List.mem_cons_self, rfl⟩, fun both => ?_⟩
      obtain ⟨k, hk, same⟩ := rest.generated_mem both
      exact other_contract new hk (injective same)
    · simpa [other_contract new hk] using ih distinct k hk
  | generated _ rest ih =>
    obtain ⟨new, distinct⟩ := List.nodup_cons.1 distinct
    intro k hk
    rcases List.mem_cons.1 hk with rfl | hk
    · refine .inl ⟨List.mem_cons_self, fun ⟨s, hs, both⟩ => ?_⟩
      obtain ⟨k, hk, same⟩ := rest.skips_mem hs
      exact other_contract new hk (both.symm.trans same)
    · simpa [injective.eq_iff, (other_contract new hk).symm] using ih distinct k hk

/-- A contract that was to be invoiced and was not is a skipped duplicate. -/
theorem Accounted.duplicate (h : Accounted newId decide ks generated skips) {c : Contract}
    {u : DormUnit} {items : List ItemData} (hk : (c, u) ∈ ks) (plan : decide c u = .generate items)
    (missing : newId c.id ∉ generated) : ⟨c.unitId, c.id, .duplicate_invoice⟩ ∈ skips := by
  induction h with
  | nil => cases hk
  | skipped plan' _ ih =>
    rcases List.mem_cons.1 hk with same | hk
    · cases same
      rw [plan] at plan'
      cases plan'
    · exact List.mem_cons_of_mem _ (ih hk missing)
  | raced _ _ ih =>
    rcases List.mem_cons.1 hk with same | hk
    · cases same
      exact List.mem_cons_self
    · exact List.mem_cons_of_mem _ (ih hk missing)
  | generated _ _ ih =>
    rcases List.mem_cons.1 hk with same | hk
    · cases same
      exact absurd List.mem_cons_self missing
    · exact ih hk fun old => missing (List.mem_cons_of_mem _ old)

end accounting

/-! ### The first insert that is refused -/

section run
variable (S : Server) (env : Env billing) (ctx : Ctx) (newId : Id → Id) (now : Instant)
  (input : BatchGenerateInvoicesInput) (decide : Contract → DormUnit → Plan)

theorem inserts_skip {c : Contract} {u : DormUnit} {reason : BatchSkipReason}
    (plan : decide c u = .skip reason) (ks : List (Contract × DormUnit)) :
    inserts ctx newId now input decide ((c, u) :: ks) = inserts ctx newId now input decide ks := by
  simp [inserts, plan]

theorem inserts_generate {c : Contract} {u : DormUnit} {items : List ItemData}
    (plan : decide c u = .generate items) (ks : List (Contract × DormUnit)) :
    inserts ctx newId now input decide ((c, u) :: ks) =
      batchInvoice ctx (newId c.id) now input c items :: inserts ctx newId now input decide ks := by
  simp [inserts, plan]

/-- The loop writes rows of its own inserts only. -/
theorem applyBatch_writes (ks : List (Contract × DormUnit)) (acc : BatchGenerateInvoicesResult)
    (n : Nat) (x : Session billing) {w : Row}
    (h : w ∈ ((applyBatch ctx newId now input decide ks acc).runIn
      (engine S) env n x).session.writes) :
    w ∈ x.writes ∨ ∃ d ∈ inserts ctx newId now input decide ks, ∃ db r,
      S.createInvoice d db = .ok ([.invoice r], r) ∧ w = .invoice r := by
  induction ks generalizing acc n x with
  | nil => exact .inl h
  | cons k ks ih =>
    obtain ⟨c, u⟩ := k
    cases plan : decide c u with
    | skip reason =>
      rw [applyBatch_skip ctx newId now input decide plan] at h
      rw [inserts_skip ctx newId now input decide plan]
      exact ih _ n x h
    | generate items =>
      rw [applyBatch_generate ctx newId now input decide plan, Prog.runIn_bind] at h
      rw [inserts_generate ctx newId now input decide plan]
      have first : w ∈ ((insertDraft ctx (batchInvoice ctx (newId c.id) now input c items)).runIn
          (engine S) env n x).session.writes →
          w ∈ x.writes ∨ ∃ d ∈ batchInvoice ctx (newId c.id) now input c items ::
            inserts ctx newId now input decide ks, ∃ db r,
            S.createInvoice d db = .ok ([.invoice r], r) ∧ w = .invoice r := fun h => by
        rcases insertDraft_writes S env ctx h with old | ⟨db, r, made, same⟩
        · exact .inl old
        · exact .inr ⟨_, by simp, db, r, made, same⟩
      split at h
      · rename_i created _
        have later : w ∈ ((insertDraft ctx (batchInvoice ctx (newId c.id) now input c items)).runIn
            (engine S) env n x).session.writes ∨
            ∃ d ∈ inserts ctx newId now input decide ks, ∃ db r,
              S.createInvoice d db = .ok ([.invoice r], r) ∧ w = .invoice r := by
          cases created with
          | none => exact ih _ _ _ h
          | some id => exact ih _ _ _ h
        rcases later with old | ⟨d, hd, made⟩
        · exact first old
        · exact .inr ⟨d, by simp [hd], made⟩
      · exact first h

/-- Where an insert stands in the loop. -/
theorem inserts_split {ks : List (Contract × DormUnit)} {pre post : List InvoiceData}
    {d : InvoiceData} (h : inserts ctx newId now input decide ks = pre ++ d :: post) :
    ∃ ks₁ c u items ks₂, ks = ks₁ ++ (c, u) :: ks₂ ∧ inserts ctx newId now input decide ks₁ = pre ∧
      decide c u = .generate items ∧ d = batchInvoice ctx (newId c.id) now input c items ∧
      inserts ctx newId now input decide ks₂ = post := by
  induction ks generalizing pre with
  | nil => simp [inserts] at h
  | cons k ks ih =>
    obtain ⟨c, u⟩ := k
    cases plan : decide c u with
    | skip reason =>
      rw [inserts_skip ctx newId now input decide plan] at h
      obtain ⟨ks₁, c', u', items, ks₂, rfl, rfl, rest⟩ := ih h
      exact ⟨(c, u) :: ks₁, c', u', items, ks₂, rfl,
        inserts_skip ctx newId now input decide plan ks₁,
        rest⟩
    | generate items =>
      rw [inserts_generate ctx newId now input decide plan] at h
      cases pre with
      | nil =>
        obtain ⟨rfl, rfl⟩ := List.cons.inj h
        exact ⟨[], c, u, items, ks, rfl, rfl, plan, rfl, rfl⟩
      | cons d' pre =>
        obtain ⟨rfl, tail⟩ := List.cons.inj h
        obtain ⟨ks₁, c', u', items', ks₂, rfl, rfl, rest⟩ := ih tail
        exact ⟨(c, u) :: ks₁, c', u', items', ks₂, rfl,
          inserts_generate ctx newId now input decide plan ks₁, rest⟩

theorem applyBatch_append (ks ks' : List (Contract × DormUnit))
    (acc : BatchGenerateInvoicesResult) :
    applyBatch ctx newId now input decide (ks ++ ks') acc =
      applyBatch ctx newId now input decide ks acc >>=
        applyBatch ctx newId now input decide ks' := by
  induction ks generalizing acc with
  | nil => rfl
  | cons k ks ih =>
    obtain ⟨c, u⟩ := k
    cases plan : decide c u with
    | skip reason =>
      rw [List.cons_append, applyBatch_skip ctx newId now input decide plan,
        applyBatch_skip ctx newId now input decide plan, ih]
    | generate items =>
      rw [List.cons_append, applyBatch_generate ctx newId now input decide plan,
        applyBatch_generate ctx newId now input decide plan, Prog.bind_assoc]
      congr 1
      funext created
      cases created with
      | none => exact ih _
      | some id => exact ih _

variable {S env ctx newId now input decide}

/-- A loop that meets amounts that do not fit throws. -/
theorem applyBatch_overflow {ks : List (Contract × DormUnit)} (acc : BatchGenerateInvoicesResult)
    (n : Nat) (x : Session billing)
    (unfit : ∃ d ∈ inserts ctx newId now input decide ks, ¬ d.AmountsFit) :
    ∃ err, ((applyBatch ctx newId now input decide ks acc).runIn (engine S) env n x).answer =
      .error err := by
  induction ks generalizing acc n x with
  | nil =>
    obtain ⟨d, hd, -⟩ := unfit
    cases hd
  | cons k ks ih =>
    obtain ⟨c, u⟩ := k
    cases plan : decide c u with
    | skip reason =>
      rw [inserts_skip ctx newId now input decide plan] at unfit
      rw [applyBatch_skip ctx newId now input decide plan]
      exact ih _ n x unfit
    | generate items =>
      rw [inserts_generate ctx newId now input decide plan] at unfit
      rw [applyBatch_generate ctx newId now input decide plan, Prog.runIn_bind]
      cases answer : ((insertDraft ctx (batchInvoice ctx (newId c.id) now input c items)).runIn
          (engine S) env n x).answer with
      | error err => exact ⟨err, rfl⟩
      | ok created =>
        -- The insert was not refused for its own amounts, so others do not fit.
        have fits : (batchInvoice ctx (newId c.id) now input c items).AmountsFit := by
          by_contra unfit
          exact insertDraft_overflow S env ctx unfit n x answer
        have later : ∃ d ∈ inserts ctx newId now input decide ks, ¬ d.AmountsFit := by
          obtain ⟨d, hd, unfit⟩ := unfit
          rcases List.mem_cons.mp hd with rfl | hd
          · exact absurd fits unfit
          · exact ⟨d, hd, unfit⟩
        cases created with
        | none => exact ih _ _ _ later
        | some id => exact ih _ _ _ later

/-- As long as every insert is ready, the loop writes what it reports. -/
theorem applyBatch_good (injective : Function.Injective newId)
    (unused : ∀ n c, (env.db n).invoices.find? (newId c) = none)
    {ks : List (Contract × DormUnit)} (distinct : (ks.map fun k => k.1.id).Nodup)
    (acc : BatchGenerateInvoicesResult) (n : Nat) {seen : List Id} {ws : List Row}
    (drafts : Drafts newId seen ws) (new : ∀ k ∈ ks, k.1.id ∉ seen) (sv : List (String × List Row))
    (tr : List (Statement × Db))
    (ready : ∀ k (d : InvoiceData), (inserts ctx newId now input decide ks)[k]? = some d →
      d.Ready (env.db (n + k)) ∧ d.ReadingsKnown (env.db (n + k))) :
    ∃ res rows seen' tr', (applyBatch ctx newId now input decide ks acc).runIn (engine S) env n
        ⟨ws, sv, false, tr⟩ =
        ⟨.ok res, ⟨ws ++ rows, sv, false, tr'⟩,
          n + (inserts ctx newId now input decide ks).length⟩ ∧
      Drafts newId seen' (ws ++ rows) ∧ (∀ k ∈ seen', k ∈ seen ∨ ∃ c ∈ ks, k = c.1.id) ∧
      res = ⟨acc.generatedInvoiceIds ++ (inserts ctx newId now input decide ks).map InvoiceData.id,
        acc.skipped ++ skips decide ks⟩ ∧
      ∃ made, rows = made.map Row.invoice ∧
        List.Forall₂ InvoiceData.Makes (inserts ctx newId now input decide ks) made := by
  induction ks generalizing acc n seen ws tr with
  | nil =>
    exact ⟨acc, [], seen, tr, by simp [applyBatch, inserts], by simpa using drafts,
      fun k hk => .inl hk, by simp [inserts, skips], [], rfl, .nil⟩
  | cons k ks ih =>
    obtain ⟨c, u⟩ := k
    obtain ⟨newc, distinct⟩ := List.nodup_cons.1 distinct
    cases plan : decide c u with
    | skip reason =>
      rw [inserts_skip ctx newId now input decide plan] at ready ⊢
      rw [applyBatch_skip ctx newId now input decide plan]
      obtain ⟨res, rows, seen', tr', run, drafts, from', same, rest⟩ :=
        ih distinct { acc with skipped := acc.skipped ++ [⟨c.unitId, c.id, reason⟩] } n drafts
          (fun k hk => new k (by simp [hk])) tr ready
      refine ⟨res, rows, seen', tr', run, drafts, fun k hk => (from' k hk).imp_right ?_, ?_, rest⟩
      · rintro ⟨c', hc', same⟩
        exact ⟨c', by simp [hc'], same⟩
      · simp [same, skips, plan]
    | generate items =>
      rw [inserts_generate ctx newId now input decide plan] at ready ⊢
      rw [applyBatch_generate ctx newId now input decide plan, Prog.runIn_bind]
      have fresh : c.id ∉ seen := new (c, u) (by simp)
      have free := view_fresh injective (unused n) fresh drafts
      obtain ⟨⟨amounts, fit, slot⟩, known⟩ := ready 0 _ rfl
      have open' : ¬ (ws.foldl Row.apply (env.db n)).slotTaken c.id input.period :=
        fun taken => slot ((view_slot (unused n) fresh drafts _).1 taken)
      have known' : (batchInvoice ctx (newId c.id) now input c items).ReadingsKnown
          (ws.foldl Row.apply (env.db n)) := by
        unfold InvoiceData.ReadingsKnown
        rw [view_readings drafts]
        exact known
      obtain ⟨r, accepted, makes⟩ := S.createInvoice_ready
        (d := batchInvoice ctx (newId c.id) now input c items) free ⟨amounts, fit, open'⟩ known'
      obtain ⟨tr', run⟩ := insertDraft_ok S env ctx _ n ws sv tr accepted
      have contract : r.contractId = c.id := makes.contractId
      have own : r.id = newId r.contractId := makes.id.trans (congrArg newId contract.symm)
      obtain ⟨res, rows, seen', tr'', run', drafts', from', same, made, rfl, all⟩ :=
        ih distinct { acc with generatedInvoiceIds := acc.generatedInvoiceIds ++ [r.id] } (n + 1)
          (drafts.append own) (fun k hk => by
            have first := new k (by simp [hk])
            simp [first, contract, (other_contract newc hk).symm]) tr'
          (fun k d hd => by
            have := ready (k + 1) d (by simpa using hd)
            rwa [show n + (k + 1) = n + 1 + k by omega] at this)
      rw [List.append_assoc] at run' drafts'
      refine ⟨res, _, seen', tr'', ?_, drafts', ?_, ?_, r :: made, rfl, .cons makes all⟩
      · rw [run]
        simp only [afterInsert]
        rw [run', List.length_cons]
        congr 1
        omega
      · intro k hk
        rcases from' k hk with old | ⟨c', hc', same⟩
        · rcases List.mem_cons.1 old with rfl | old
          · exact .inr ⟨(c, u), by simp, contract⟩
          · exact .inl old
        · exact .inr ⟨c', by simp [hc'], same⟩
      · simp [same, skips, plan, makes.id]

/-- What the first refused insert, `d`, makes of the loop: unless it is a race
that is recognised and has no insert after it, the loop throws. -/
theorem applyBatch_bad (injective : Function.Injective newId)
    (unused : ∀ n c, (env.db n).invoices.find? (newId c) = none)
    {ks : List (Contract × DormUnit)} (distinct : (ks.map fun k => k.1.id).Nodup)
    (acc : BatchGenerateInvoicesResult) (n : Nat) (sv : List (String × List Row))
    (tr : List (Statement × Db)) {pre post : List InvoiceData} {d : InvoiceData}
    (split : inserts ctx newId now input decide ks = pre ++ d :: post)
    (ready : ∀ k (d : InvoiceData), pre[k]? = some d →
      d.Ready (env.db (n + k)) ∧ d.ReadingsKnown (env.db (n + k)))
    (unready : ¬ d.Ready (env.db (n + pre.length))) :
    let e := (applyBatch ctx newId now input decide ks acc).runIn (engine S)
      env n ⟨[], sv, false, tr⟩
    (d.AmountsFit ∧ (env.db (n + pre.length)).slotTaken d.contractId d.period ∧ S.NamesSlot ∧
      post = [] ∧ ∃ res, e.answer = .ok res ∧ e.session.broken = true ∧
        res.generatedInvoiceIds = acc.generatedInvoiceIds ++ pre.map InvoiceData.id) ∨
    (¬ (d.AmountsFit ∧ (env.db (n + pre.length)).slotTaken d.contractId d.period ∧ S.NamesSlot ∧
      post = []) ∧ ∃ err, e.answer = .error err) := by
  obtain ⟨ks₁, c, u, items, ks₂, rfl, rfl, plan, rfl, rfl⟩ :=
    inserts_split ctx newId now input decide split
  intro e
  have apart := distinct
  rw [List.map_append, List.nodup_append] at apart
  obtain ⟨distinct₁, distinct₂, apart⟩ := apart
  have newc : ∀ k ∈ ks₁, c.id ≠ k.1.id :=
    fun k hk same => apart k.1.id (List.mem_map.2 ⟨k, hk, rfl⟩) c.id (by simp) same.symm
  obtain ⟨res₁, rows, seen, tr₁, run₁, drafts, from', ids, -⟩ :=
    applyBatch_good (S := S) injective unused distinct₁ acc n (drafts_nil newId)
      (fun k hk => by simp) sv tr ready
  have here : e = (applyBatch ctx newId now input decide ((c, u) :: ks₂) res₁).runIn (engine S) env
      (n + (inserts ctx newId now input decide ks₁).length) ⟨[] ++ rows, sv, false, tr₁⟩ := by
    show Prog.runIn _ _ _ _ _ = _
    rw [applyBatch_append, Prog.runIn_bind, run₁]
  have fresh : c.id ∉ seen := by
    intro old
    rcases from' _ old with hn | ⟨k, hk, same⟩
    · cases hn
    · exact newc k hk same
  have free := view_fresh injective (unused (n + (inserts ctx newId now input decide ks₁).length))
    fresh drafts
  have slot := view_slot (unused (n + (inserts ctx newId now input decide ks₁).length)) fresh drafts
    input.period
  rw [applyBatch_generate ctx newId now input decide plan, Prog.runIn_bind] at here
  have refused : ∀ err, S.createInvoice (batchInvoice ctx (newId c.id) now input c items)
      (([] ++ rows).foldl Row.apply
        (env.db (n + (inserts ctx newId now input decide ks₁).length))) =
        .error err →
      isUniqueConstraintError err ["contract_id", "period"] = false →
      ∃ err, e.answer = .error err := by
    intro err failed unknown
    rw [insertDraft_error S env ctx _ _ _ sv tr₁ failed, unknown] at here
    exact ⟨err, by rw [here]; rfl⟩
  by_cases raced : (batchInvoice ctx (newId c.id) now input c items).AmountsFit ∧
      (env.db (n + (inserts ctx newId now input decide ks₁).length)).slotTaken c.id input.period
  · obtain ⟨amounts, taken⟩ := raced
    have failed := S.createInvoice_raced (d := batchInvoice ctx (newId c.id) now input c items) free
      amounts (show InvoiceStatus.draft ≠ .void by decide) (slot.2 taken)
    by_cases named : S.NamesSlot
    · rw [insertDraft_error S env ctx _ _ _ sv tr₁ failed, named] at here
      simp only [if_true, afterInsert] at here
      by_cases last : inserts ctx newId now input decide ks₂ = []
      · left
        refine ⟨amounts, taken, named, last, ?_⟩
        obtain ⟨res, m, run, same⟩ := (applyBatch_broken S env ctx newId now input decide ks₂ _
          _ (x := ⟨[] ++ rows, sv, true, tr₁⟩) rfl).1 last
        rw [run] at here
        rw [here]
        exact ⟨res, rfl, rfl, by rw [same, ids]⟩
      · right
        refine ⟨fun h => last h.2.2.2, .aborted, ?_⟩
        rw [here]
        exact (applyBatch_broken S env ctx newId now input decide ks₂ _ _ rfl).2 last
    · right
      exact ⟨fun h => named h.2.2.1, refused _ failed (by simpa [Server.NamesSlot] using named)⟩
  · right
    refine ⟨fun h => raced ⟨h.1, h.2.1⟩, refused .tooLarge ?_ (by decide)⟩
    refine S.createInvoice_unfit free (fun h => unready ⟨h.1, h.2.1, fun taken => h.2.2 ?_⟩)
      fun h => raced ⟨h.1, slot.1 h.2⟩
    exact slot.2 taken

end run

/-! ## The batch -/

section batch
variable (S : Server) (ctx : Ctx) (newId : Id → Id) (now : Instant)
  (input : BatchGenerateInvoicesInput)
  (env : Env billing)

/-- The contracts in scope, as the first statement reads them. -/
def scope (c : Id) (propertyId : Option Id) (db : Db) : List (Contract × DormUnit) :=
  db.contracts.rows.filterMap fun k =>
    if k.companyId = c then
      (db.units.find? k.unitId).bind fun u =>
        if propertyId = none ∨ propertyId = some u.propertyId then some (k, u) else none
    else none

theorem scope_sublist (c : Id) (propertyId : Option Id) (db : Db) :
    ((scope c propertyId db).map Prod.fst).Sublist db.contracts.rows := by
  unfold scope
  induction db.contracts.rows with
  | nil => exact .slnil
  | cons k ks ih =>
    rw [List.filterMap_cons]
    split
    · exact ih.cons k
    · rename_i b found
      have first : b.1 = k := by
        split at found
        · simp only [Option.bind_eq_some_iff] at found
          obtain ⟨u, -, found⟩ := found
          split at found <;> cases found
          rfl
        · cases found
      rw [List.map_cons, first]
      exact ih.cons_cons k

theorem scope_distinct (c : Id) (propertyId : Option Id) (db : Db) :
    ((scope c propertyId db).map fun k => k.1.id).Nodup := by
  have sub := (scope_sublist c propertyId db).map Contract.id
  rw [List.map_map] at sub
  exact sub.nodup db.contracts.distinct

/-- The batch's contracts, and what its four reads make it decide for each. -/
def contracts : List (Contract × DormUnit) := scope ctx.companyId input.propertyId (env.db 0)

def meters : List Meter :=
  (env.db 2).meters.rows.filter fun m =>
    m.companyId = ctx.companyId ∧ m.unitId ∈ (contracts ctx input env).map fun k => k.1.unitId

def readings : List Reading :=
  (env.db 3).readings.rows.filter fun r =>
    r.companyId = ctx.companyId ∧ r.meterId ∈ (meters ctx input env).map Meter.id ∧
      r.period = input.period

def plans : Contract → DormUnit → Plan :=
  plan ctx input
    ((env.db 1).openInvoices ctx.companyId ((contracts ctx input env).map fun k => k.1.id)
      input.period)
    (meters ctx input env) (readings ctx input env)

/-- The invoices the batch tries to insert; the `k`-th one meets `env.db (4 + k)`. -/
def planned : List InvoiceData :=
  inserts ctx newId now input (plans ctx input env) (contracts ctx input env)

theorem createBatch_runIn (some_contract : contracts ctx input env ≠ []) :
    ∃ tr, (createBatch ctx newId now input).runIn (engine S) env 0 {} =
      (applyBatch ctx newId now input (plans ctx input env) (contracts ctx input env)
        ⟨[], []⟩).runIn
        (engine S) env 4 ⟨[], [], false, tr⟩ := by
  unfold createBatch
  rw [runIn_prisma S ctx _ env _ 0 rfl]
  have some_contract : (contracts ctx input env).isEmpty = false := by
    simpa using some_contract
  change ∃ tr, Prog.runIn _ env (if (contracts ctx input env).isEmpty then _ else _) _ _ = _
  rw [some_contract]
  simp only [Bool.false_eq_true, if_false]
  rw [runIn_prisma S ctx _ env _ 1 rfl, runIn_prisma S ctx _ env _ 2 rfl,
    runIn_prisma S ctx _ env _ 3 rfl]
  exact ⟨_, rfl⟩

/-- A batch with amounts that do not fit throws. -/
theorem createBatch_overflow (unfit : ∃ d ∈ planned ctx newId now input env, ¬ d.AmountsFit) :
    ∃ err, ((createBatch ctx newId now input).runIn (engine S) env 0 {}).answer = .error err := by
  have some_contract : contracts ctx input env ≠ [] := by
    intro none
    obtain ⟨d, hd, -⟩ := unfit
    rw [planned, none] at hd
    cases hd
  obtain ⟨tr, run⟩ := createBatch_runIn S ctx newId now input env some_contract
  rw [run]
  exact applyBatch_overflow ⟨[], []⟩ 4 _ unfit

theorem createBatch_empty (none : contracts ctx input env = []) :
    ∃ tr, (createBatch ctx newId now input).runIn (engine S) env 0 {} =
      ⟨.ok ⟨[], []⟩, ⟨[], [], false, tr⟩, 1⟩ := by
  unfold createBatch
  rw [runIn_prisma S ctx _ env _ 0 rfl]
  change ∃ tr, Prog.runIn _ env (if (contracts ctx input env).isEmpty then _ else _) _ _ = _
  rw [none]
  exact ⟨_, rfl⟩

end batch

theorem readingOf_mem {readings : List Reading} {meterId : Id} {r : Reading}
    (h : readingOf readings meterId = some r) : r ∈ readings :=
  List.mem_reverse.1 (List.mem_of_find?_eq_some h)

theorem readingOf_meter {readings : List Reading} {meterId : Id} {r : Reading}
    (h : readingOf readings meterId = some r) : r.meterId = meterId := by
  simpa using List.find?_some h

/-- A meter of the room and the reading of it that its item bills. -/
structure Metered (meters : List Meter) (readings : List Reading) (m : Meter) (r : Reading) :
    Prop where
  first : meters.find? (fun m' => m'.kind = m.kind) = some m
  read : readingOf readings m.id = some r

/-- Items point at readings of the room's meters, one for each meter kind. -/
theorem buildBatchItems_readings {ctx : Ctx} {period : Period} {rentAmount : Numeric 10 2}
    {unitNumber : String} {meters : List Meter} {readings : List Reading}
    {additional : List BatchAdditionalItem} {id : Id} :
    (∃ it ∈ buildBatchItems ctx period rentAmount unitNumber meters readings additional,
      it.readingId = some id) ↔ ∃ m r, Metered meters readings m r ∧ r.id = id := by
  constructor
  · rintro ⟨it, hit, own⟩
    simp only [buildBatchItems, List.mem_map, Prod.exists] at hit
    obtain ⟨make, n, hmake, rfl⟩ := hit
    have source := (List.mem_zipIdx hmake).2.2
    have : make ∈ _ := source ▸ List.getElem_mem _
    rcases List.mem_cons.1 this with rfl | this
    · cases own
    · rcases List.mem_append.1 this with this | this
      · simp only [List.mem_filterMap, meterItem, Option.bind_eq_bind,
          Option.bind_eq_some_iff] at this
        obtain ⟨kind, -, meter, first, reading, found, same⟩ := this
        cases same
        cases own
        have : meter.kind = kind := by simpa using List.find?_some first
        exact ⟨meter, reading, ⟨this ▸ first, found⟩, rfl⟩
      · simp only [List.mem_map] at this
        obtain ⟨add, -, rfl⟩ := this
        cases own
  · rintro ⟨m, r, ⟨first, read⟩, rfl⟩
    have made : ∃ f, meterItem ctx period meters readings m.kind = some f ∧
        ∀ n, (f n).readingId = some r.id := by
      simp [meterItem, first, read]
    obtain ⟨f, made, own⟩ := made
    have kind : m.kind ∈ [MeterKind.water, .electric] := by cases m.kind <;> simp
    have mem : f ∈ rentItem ctx period rentAmount unitNumber ::
        ([MeterKind.water, .electric].filterMap (meterItem ctx period meters readings) ++
          additional.map (additionalItem ctx)) :=
      List.mem_cons_of_mem _ (List.mem_append_left _ (List.mem_filterMap.mpr ⟨_, kind, made⟩))
    obtain ⟨n, place⟩ := List.getElem?_of_mem mem
    refine ⟨f n, ?_, own n⟩
    rw [buildBatchItems, List.mem_map]
    exact ⟨(f, n), List.mem_zipIdx_iff_getElem?.mpr place, rfl⟩

theorem plan_generate {ctx : Ctx} {input : BatchGenerateInvoicesInput} {existing : List Invoice}
    {meters : List Meter} {readings : List Reading} {c : Contract} {u : DormUnit}
    {items : List ItemData} (h : plan ctx input existing meters readings c u = .generate items) :
    items = buildBatchItems ctx input.period c.rentAmount u.unitNumber
      (meters.filter fun m => m.unitId = c.unitId) readings input.additionalItems := by
  simp only [plan] at h
  split at h
  · cases h
  split at h
  · cases h
  split at h
  · cases h
  · cases h
    rfl

/-- The readings of a planned invoice are there as long as none is deleted. -/
theorem planned_known (ctx : Ctx) (newId : Id → Id) (now : Instant)
    (input : BatchGenerateInvoicesInput) (env : Env billing)
    (kept : ∀ n r, 3 ≤ n → ((env.db 3).readings.find? r).isSome →
      ((env.db n).readings.find? r).isSome)
    {d : InvoiceData} (hd : d ∈ planned ctx newId now input env) {n : Nat} (hn : 3 ≤ n) :
    d.ReadingsKnown (env.db n) := by
  simp only [planned, inserts, List.mem_filterMap, Prod.exists] at hd
  obtain ⟨c, u, -, hd⟩ := hd
  cases decided : plans ctx input env c u with
  | skip reason => simp [decided] at hd
  | generate items =>
    simp only [decided, Option.some.injEq] at hd
    subst hd
    intro it hit r hr
    apply kept n r hn
    rw [show items = _ from plan_generate decided] at hit
    obtain ⟨m, reading, metered, rfl⟩ := buildBatchItems_readings.mp ⟨it, hit, hr⟩
    have stored : reading ∈ (env.db 3).readings.rows :=
      (List.mem_filter.1 (readingOf_mem metered.read)).1
    have found := Table.find?_of_mem stored
    exact congrArg Option.isSome found

end InvoiceService

open InvoiceService in
/-- What the batch promises: it returns, each contract in scope is generated or
skipped, the raced ones as duplicates, and what it calls generated is committed. -/
structure BatchKept (S : Server) (ctx : Ctx) (newId : Id → Id) (now : Instant)
    (input : BatchGenerateInvoicesInput) (env : Env billing)
    (e : Ending billing BatchGenerateInvoicesResult) (res : BatchGenerateInvoicesResult) :
    Prop where
  returns : e.answer = .ok res
  one : ∀ k ∈ contracts ctx input env,
    Xor (newId k.1.id ∈ res.generatedInvoiceIds) (∃ s ∈ res.skipped, s.contractId = k.1.id)
  raced : ∀ (k : Nat) (d : InvoiceData), (planned ctx newId now input env)[k]? = some d →
    (env.db (4 + k)).slotTaken d.contractId d.period →
      ⟨d.unitId, d.contractId, .duplicate_invoice⟩ ∈ res.skipped
  committed : ∀ id ∈ res.generatedInvoiceIds,
    ((e.commit (engine S) (env.db e.clock)).invoices.find? id).isSome

theorem rows_found (ws : List Row) (db : Db) {r : Invoice} (h : .invoice r ∈ ws) :
    ((ws.foldl Row.apply db).invoices.find? r.id).isSome := by
  have keep : ∀ (ws : List Row) (db : Db), (db.invoices.find? r.id).isSome →
      ((ws.foldl Row.apply db).invoices.find? r.id).isSome := by
    intro ws
    induction ws with
    | nil => exact fun _ h => h
    | cons w ws ih =>
      intro db found
      apply ih _
      cases w with
      | invoice i =>
        simp only [Row.apply, Table.find?_put]
        split
        · rfl
        · exact found
      | payment | announcement | auditLog => exact found
  induction ws generalizing db with
  | nil => cases h
  | cons w ws ih =>
    rcases List.mem_cons.1 h with rfl | h
    · apply keep ws _
      simpa [Row.apply] using congrArg Option.isSome (Table.find?_put_self db.invoices r)
    · exact ih (Row.apply db w) h

theorem exists_first {α : Type} (P : Nat → α → Prop) (l : List α)
    (h : ¬ ∀ k a, l[k]? = some a → P k a) :
    ∃ pre a post, l = pre ++ a :: post ∧ (∀ k b, pre[k]? = some b → P k b) ∧ ¬ P pre.length a := by
  induction l generalizing P with
  | nil => simp at h
  | cons a l ih =>
    by_cases first : P 0 a
    · have rest : ¬ ∀ k b, l[k]? = some b → P (k + 1) b := by
        intro all
        apply h
        intro k b hb
        cases k with
        | zero =>
          cases hb
          exact first
        | succ k => exact all k b (by simpa using hb)
      obtain ⟨pre, b, post, rfl, good, bad⟩ := ih (fun k => P (k + 1)) rest
      refine ⟨a :: pre, b, post, rfl, fun k c hc => ?_, bad⟩
      cases k with
      | zero =>
        cases hc
        exact first
      | succ k => exact good k c (by simpa using hc)
    · exact ⟨[], a, l, rfl, fun k b hb => by simp at hb, first⟩

section keeps
open InvoiceService
variable {S : Server} {ctx : Ctx} {newId : Id → Id} {now : Instant}
  {input : BatchGenerateInvoicesInput} {env : Env billing}

/-- What an answer says of the contracts. -/
theorem createBatch_accounted (nonempty : contracts ctx input env ≠ [])
    {res : BatchGenerateInvoicesResult}
    (answer : ((createBatch ctx newId now input).runIn (engine S) env 0 {}).answer = .ok res) :
    Accounted newId (plans ctx input env) (contracts ctx input env) res.generatedInvoiceIds
      res.skipped := by
  obtain ⟨tr, run⟩ := createBatch_runIn S ctx newId now input env nonempty
  rw [run] at answer
  obtain ⟨generated, skips, accounted, rfl⟩ :=
    applyBatch_accounts S env ctx newId now input _ _ _ _ _ answer
  simpa using accounted

section
variable (injective : Function.Injective newId)
  (unused : ∀ n c, (env.db n).invoices.find? (newId c) = none)
  (kept : ∀ n r, 3 ≤ n → ((env.db 3).readings.find? r).isSome →
    ((env.db n).readings.find? r).isSome)
  (nonempty : contracts ctx input env ≠ [])
include injective unused kept nonempty

/-- When every insert goes through, all rows are committed and reported. -/
theorem batchKept_ready
    (ready : ∀ (k : Nat) (d : InvoiceData), (planned ctx newId now input env)[k]? = some d →
      d.Ready (env.db (4 + k))) :
    ∃ res, BatchKept S ctx newId now input env
      ((createBatch ctx newId now input).runIn (engine S) env 0 {}) res := by
  have distinct : ((contracts ctx input env).map fun k => k.1.id).Nodup := scope_distinct _ _ _
  obtain ⟨tr, run⟩ := createBatch_runIn S ctx newId now input env nonempty
  obtain ⟨res, rows, seen, tr', run', -, -, same, made, rfl, all⟩ := applyBatch_good (S := S)
    injective unused distinct ⟨[], []⟩ 4 (drafts_nil newId) (fun k _ => by simp) [] tr
    fun k d hd => ⟨ready k d hd,
      planned_known ctx newId now input env kept (List.mem_of_getElem? hd) (by omega)⟩
  have ended := run.trans run'
  have answer := congrArg Ending.answer ended
  refine ⟨res, answer, (createBatch_accounted nonempty answer).one injective distinct, ?_, ?_⟩
  · intro k d hd taken
    exact absurd taken (ready k d hd).2.2
  · intro id hid
    simp only [same, List.nil_append, List.mem_map] at hid
    obtain ⟨d, hd, rfl⟩ := hid
    obtain ⟨r, hr, makes⟩ := exists_made all hd
    rw [ended, ← makes.id]
    exact rows_found _ _ (List.mem_append_right _ (List.mem_map.2 ⟨r, hr, rfl⟩))

/-- A batch with an insert that fails keeps its rows only if there are no others and the race is
recognised. -/
theorem batchKept_unready
    (unready : ¬ ∀ (k : Nat) (d : InvoiceData), (planned ctx newId now input env)[k]? = some d →
      d.Ready (env.db (4 + k))) :
    (∃ res, BatchKept S ctx newId now input env
      ((createBatch ctx newId now input).runIn (engine S) env 0 {}) res) ↔
    ∃ d, planned ctx newId now input env = [d] ∧ d.AmountsFit ∧
      (env.db 4).slotTaken d.contractId d.period ∧ S.NamesSlot := by
  have distinct : ((contracts ctx input env).map fun k => k.1.id).Nodup := scope_distinct _ _ _
  have accounts : ∀ res, ((createBatch ctx newId now input).runIn (engine S) env 0 {}).answer =
      .ok res → Accounted newId (plans ctx input env) (contracts ctx input env)
        res.generatedInvoiceIds res.skipped := fun res => createBatch_accounted nonempty
  have known : ∀ (k : Nat) (d : InvoiceData), (planned ctx newId now input env)[k]? = some d →
      d.ReadingsKnown (env.db (4 + k)) := fun k d hd =>
    planned_known ctx newId now input env kept (List.mem_of_getElem? hd) (by omega)
  obtain ⟨tr, run⟩ := createBatch_runIn S ctx newId now input env nonempty
  obtain ⟨e, ended⟩ : ∃ e, e = (createBatch ctx newId now input).runIn (engine S) env 0 {} :=
    ⟨_, rfl⟩
  rw [← ended] at accounts run ⊢
  obtain ⟨pre, d, post, split, good, bad⟩ :=
    exists_first (fun k (d : InvoiceData) => d.Ready (env.db (4 + k))) _ unready
  have split' : inserts ctx newId now input (plans ctx input env)
      (contracts ctx input env) = pre ++ d :: post := split
  have outcome := applyBatch_bad (S := S) injective unused distinct ⟨[], []⟩ 4 [] tr
    split' (fun k d' hd' => ⟨good k d' hd', known k d' (by
      rw [split, List.getElem?_append_left (List.getElem?_eq_some_iff.1 hd').1]
      exact hd')⟩) bad
  rw [← run] at outcome
  rcases outcome with ⟨amounts, taken, named, rfl, res, answer, broken, ids⟩ |
    ⟨other, err, thrown⟩
  · have dropped : e.written = [] := by simp [Ending.written, answer, broken]
    cases pre with
    | nil =>
      refine ⟨fun _ => ⟨d, split, amounts, taken, named⟩, fun _ => ?_⟩
      have nothing : res.generatedInvoiceIds = [] := by simpa using ids
      refine ⟨res, answer, (accounts res answer).one injective distinct, ?_, by simp [nothing]⟩
      intro k d' hd' _
      obtain ⟨ks₁, c, u, items, ks₂, place, -, plan, data, -⟩ :=
        inserts_split ctx newId now input (plans ctx input env) split
      have only : d' = d := by
        rw [split] at hd'
        simpa using List.mem_of_getElem? hd'
      subst only
      rw [data]
      exact (accounts res answer).duplicate (place ▸ by simp) plan (by simp [nothing])
    | cons d' pre =>
      constructor
      · rintro ⟨res', kept'⟩
        have same : res' = res := by
          have := kept'.returns
          rw [answer] at this
          cases this
          rfl
        subst same
        have lost := kept'.committed d'.id (by simp [ids])
        have mem : d' ∈ planned ctx newId now input env := by simp [split]
        simp only [planned, inserts, List.mem_filterMap, Prod.exists] at mem
        obtain ⟨c, u, -, mem⟩ := mem
        have own : d'.id = newId c.id := by
          split at mem <;> cases mem
          rfl
        simp [Ending.commit, dropped, own, unused] at lost
      · rintro ⟨d'', one, -⟩
        simp [split] at one
  · constructor
    · rintro ⟨res, kept'⟩
      have := kept'.returns
      rw [thrown] at this
      cases this
    · rintro ⟨d', one, amounts, taken, named⟩
      rw [split] at one
      obtain ⟨rfl, rfl, rfl⟩ : pre = [] ∧ d = d' ∧ post = [] := by
        cases pre with
        | nil => simpa using one
        | cons => simp at one
      exact absurd ⟨amounts, taken, named, rfl⟩ other

end

/-- **A batch keeps its good rows** exactly when every insert fits its columns
and meets a free slot, or the batch has one insert only and the race it lost is
recognised. -/
theorem batch_keeps_good_rows (S : Server) (ctx : Ctx) (newId : Id → Id) (now : Instant)
    (input : BatchGenerateInvoicesInput) (env : Env billing)
    (injective : Function.Injective newId)
    (unused : ∀ n c, (env.db n).invoices.find? (newId c) = none)
    (kept : ∀ n r, 3 ≤ n → ((env.db 3).readings.find? r).isSome →
      ((env.db n).readings.find? r).isSome) :
    let e := (createBatch ctx newId now input).runIn (engine S) env 0 {}
    (∃ res, BatchKept S ctx newId now input env e res) ↔
      (∀ (k : Nat) (d : InvoiceData), (planned ctx newId now input env)[k]? = some d →
        d.Ready (env.db (4 + k))) ∨
      ∃ d, planned ctx newId now input env = [d] ∧ d.AmountsFit ∧
        (env.db 4).slotTaken d.contractId d.period ∧ S.NamesSlot := by
  intro e
  by_cases empty : contracts ctx input env = []
  · obtain ⟨tr, run⟩ := createBatch_empty S ctx newId now input env empty
    have nothing : planned ctx newId now input env = [] := by simp [planned, empty, inserts]
    have ended : e = ⟨.ok ⟨[], []⟩, ⟨[], [], false, tr⟩, 1⟩ := run
    constructor
    · intro _
      left
      simp [nothing]
    · intro _
      exact ⟨⟨[], []⟩, by rw [ended], by simp [empty], by simp [nothing], by simp⟩
  by_cases ready : ∀ (k : Nat) (d : InvoiceData), (planned ctx newId now input env)[k]? = some d →
      d.Ready (env.db (4 + k))
  · exact iff_of_true (batchKept_ready injective unused kept empty ready) (.inl ready)
  · rw [batchKept_unready injective unused kept empty ready]
    exact (or_iff_right ready).symm

end keeps

namespace Demo

/-- Two active contracts on rooms without meters. -/
def twoRooms : Db where
  companies := Table.put default ⟨1, "acme", none⟩
  units := (Table.put default ⟨201, 1, 3, "A1"⟩).put ⟨202, 1, 3, "A2"⟩
  contracts := (Table.put default ⟨101, 1, 201, 11, baht 4000, .active⟩).put
    ⟨102, 1, 202, 12, baht 5000, .active⟩

def rentOnly : BatchGenerateInvoicesInput := ⟨april, none, 5, []⟩

/-- Another admin commits an invoice for contract 102 after the pre-check, just
before the batch's fifth statement has passed. -/
def raced (n : Nat) : Db :=
  if n < 5 then twoRooms
  else { twoRooms with invoices := Table.put default (invoice 2 12 (baht 5000) .draft) }

end Demo

/-- Both rents of a quiet month. -/
theorem batch_keeps_good_rows_quiet :
    let env : Env billing := ⟨fun _ => Demo.twoRooms, fun _ => true⟩
    ∃ res, BatchKept Demo.server Demo.ctx (1000 + ·) 0 Demo.rentOnly env
      ((InvoiceService.createBatch Demo.ctx (1000 + ·) 0 Demo.rentOnly).runIn
        (engine Demo.server) env 0 {}) res := by
  refine (batch_keeps_good_rows Demo.server Demo.ctx (1000 + ·) 0 Demo.rentOnly _
    (fun a b h => by simpa using h) (fun _ c => rfl) (fun _ _ _ h => h)).2 (.inl fun k d hd => ?_)
  have ready : ∀ d ∈ InvoiceService.planned Demo.ctx (1000 + ·) 0 Demo.rentOnly
      ⟨fun _ => Demo.twoRooms, fun _ => true⟩, d.Ready Demo.twoRooms := by decide +kernel
  exact ready d (List.mem_of_getElem? hd)

/-- The race for the last contract is reported as skipped, and the first
contract's invoice as generated: nothing is committed. -/
theorem batch_race_loses_good_row :
    let e := (InvoiceService.createBatch Demo.ctx (1000 + ·) 0 Demo.rentOnly).runIn
      (engine Demo.server) ⟨Demo.raced, fun _ => true⟩ 0 {}
    e.response = some ⟨[1101], [⟨202, 102, .duplicate_invoice⟩]⟩ ∧
      (e.commit (engine Demo.server) (Demo.raced e.clock)).invoices.find? 1101 = none := by
  decide +kernel

end Dormitory
