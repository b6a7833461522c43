import Dormitory.Invoicing

/-!
# Batch after batch

What a batch decides from the rows its company sees, said over the tables and
not over the maps that `createBatch` builds, and what a second and a third run
do: nothing is billed twice, and what was voided is billed again.
-/

namespace Dormitory
open Txn

/-! ## What a period has -/

namespace Db
variable (db : Db) (c : Id) (period : Period)

/-- The contract has an invoice for the period that is not void. -/
def Billed (contractId : Id) : Prop :=
  ∃ i ∈ db.invoices.rows, i.companyId = c ∧ i.contractId = contractId ∧ i.period = period ∧
    i.status ≠ .void

def HasReading (m : Meter) : Prop :=
  ∃ r ∈ db.readings.rows, r.companyId = c ∧ r.meterId = m.id ∧ r.period = period

/-- A meter of the kind in the room has no reading for the period. -/
def Unread (unitId : Id) (kind : MeterKind) : Prop :=
  ∃ m ∈ db.meters.rows, (m.companyId = c ∧ m.unitId = unitId ∧ m.kind = kind) ∧
    ¬ db.HasReading c period m

instance (contractId : Id) : Decidable (db.Billed c period contractId) :=
  inferInstanceAs (Decidable (∃ i ∈ db.invoices.rows, _))

instance (m : Meter) : Decidable (db.HasReading c period m) :=
  inferInstanceAs (Decidable (∃ r ∈ db.readings.rows, _))

instance (unitId : Id) (kind : MeterKind) : Decidable (db.Unread c period unitId kind) :=
  inferInstanceAs (Decidable (∃ m ∈ db.meters.rows, _))

/-- The first check that a contract fails. -/
def skipReason (k : Contract) : Option BatchSkipReason :=
  if k.status ≠ .active then some .inactive_contract
  else if db.Billed c period k.id then some .duplicate_invoice
  else if db.Unread c period k.unitId .water then some .missing_water_reading
  else if db.Unread c period k.unitId .electric then some .missing_electric_reading
  else none

/-- What a contract needs to be billed for the period. -/
structure Billable (k : Contract) : Prop where
  active : k.status = .active
  unbilled : ¬ db.Billed c period k.id
  read : ∀ m ∈ db.meters.rows, m.companyId = c → m.unitId = k.unitId → db.HasReading c period m

variable {db c period}

theorem skipReason_eq_none {k : Contract} :
    db.skipReason c period k = none ↔ db.Billable c period k := by
  constructor
  · intro h
    unfold skipReason at h
    split at h
    · cases h
    split at h
    · cases h
    split at h
    · cases h
    split at h
    · cases h
    rename_i active unbilled water electric
    refine ⟨not_not.mp active, unbilled, fun m hm company room => ?_⟩
    by_contra unread
    cases kind : m.kind with
    | water => exact water ⟨m, hm, ⟨company, room, kind⟩, unread⟩
    | electric => exact electric ⟨m, hm, ⟨company, room, kind⟩, unread⟩
  · intro h
    have all : ∀ kind, ¬ db.Unread c period k.unitId kind := by
      rintro kind ⟨m, hm, ⟨company, room, -⟩, unread⟩
      exact unread (h.read m hm company room)
    simp [skipReason, h.active, h.unbilled, all]

/-- The unique indexes of the tables a batch reads. -/
structure Unique (db : Db) : Prop where
  meters : ∀ m ∈ db.meters.rows, ∀ m' ∈ db.meters.rows,
    m.unitId = m'.unitId → m.kind = m'.kind → m = m'
  readings : ∀ r ∈ db.readings.rows, ∀ r' ∈ db.readings.rows,
    r.meterId = r'.meterId → r.period = r'.period → r = r'
  slots : ∀ i ∈ db.invoices.rows, ∀ i' ∈ db.invoices.rows, i.contractId = i'.contractId →
    i.period = i'.period → i.status ≠ .void → i'.status ≠ .void → i = i'

end Db

/-! ## The plan against the tables -/

namespace InvoiceService
section plan
variable {ctx : Ctx} {input : BatchGenerateInvoicesInput} {queueUp : Nat → Bool} {db : Db}

theorem readingOf_isNone {meterId : Id}
    (m : meterId ∈ (meters ctx input ⟨fun _ => db, queueUp⟩).map Meter.id) {meter : Meter}
    (id : meter.id = meterId) :
    (readingOf (readings ctx input ⟨fun _ => db, queueUp⟩) meterId).isNone ↔
      ¬ db.HasReading ctx.companyId input.period meter := by
  simp only [readingOf, Option.isNone_iff_eq_none, List.find?_eq_none, List.mem_reverse, readings,
    List.mem_filter, decide_eq_true_eq, Db.HasReading, id]
  constructor
  · rintro none ⟨r, hr, company, own, period⟩
    exact none r ⟨hr, company, own ▸ m, period⟩ own
  · rintro none r ⟨hr, company, -, period⟩ own
    exact none ⟨r, hr, company, own, period⟩

theorem readingMissing_iff
    (unique : ∀ m ∈ db.meters.rows, ∀ m' ∈ db.meters.rows,
      m.unitId = m'.unitId → m.kind = m'.kind → m = m')
    {k : Contract × DormUnit} (hk : k ∈ contracts ctx input ⟨fun _ => db, queueUp⟩)
    (kind : MeterKind) :
    readingMissing
        ((meters ctx input ⟨fun _ => db, queueUp⟩).filter fun m => m.unitId = k.1.unitId)
        (readings ctx input ⟨fun _ => db, queueUp⟩) kind = true ↔
      db.Unread ctx.companyId input.period k.1.unitId kind := by
  have room : ∀ m ∈ db.meters.rows, m.companyId = ctx.companyId → m.unitId = k.1.unitId →
      m ∈ (meters ctx input ⟨fun _ => db, queueUp⟩).filter fun m => m.unitId = k.1.unitId := by
    intro m hm company own
    simp only [meters, List.mem_filter, decide_eq_true_eq]
    exact ⟨⟨hm, company, own ▸ List.mem_map.mpr ⟨k, hk, rfl⟩⟩, own⟩
  unfold readingMissing
  cases found : ((meters ctx input ⟨fun _ => db, queueUp⟩).filter
      fun m => m.unitId = k.1.unitId).find? fun m => m.kind = kind with
  | none =>
    simp only [Bool.false_eq_true, false_iff]
    rintro ⟨m, hm, ⟨company, own, same⟩, -⟩
    have := List.find?_eq_none.mp found m (room m hm company own)
    simp [same] at this
  | some meter =>
    have mem := List.mem_of_find?_eq_some found
    have same : meter.kind = kind := by simpa using List.find?_some found
    simp only [List.mem_filter, decide_eq_true_eq] at mem
    have stored := (List.mem_filter.mp mem.1).1
    have company : meter.companyId = ctx.companyId := by
      have := (List.mem_filter.mp mem.1).2
      simp only [decide_eq_true_eq] at this
      exact this.1
    simp only
    rw [readingOf_isNone (List.mem_map.mpr ⟨meter, mem.1, rfl⟩) rfl]
    constructor
    · intro unread
      exact ⟨meter, stored, ⟨company, mem.2, same⟩, unread⟩
    · rintro ⟨m, hm, ⟨-, own, kind⟩, unread⟩
      obtain rfl := unique m hm meter stored (own.trans mem.2.symm) (kind.trans same.symm)
      exact unread

theorem existing_any {k : Contract × DormUnit}
    (hk : k ∈ contracts ctx input ⟨fun _ => db, queueUp⟩) :
    ((db.openInvoices ctx.companyId ((contracts ctx input ⟨fun _ => db, queueUp⟩).map
        fun k => k.1.id) input.period).any fun i => i.contractId = k.1.id) = true ↔
      db.Billed ctx.companyId input.period k.1.id := by
  simp only [List.any_eq_true, Db.openInvoices, List.mem_filter, decide_eq_true_eq, Db.Billed]
  constructor
  · rintro ⟨i, ⟨hi, company, -, period, status⟩, own⟩
    exact ⟨i, hi, company, own, period, status⟩
  · rintro ⟨i, hi, company, own, period, status⟩
    exact ⟨i, ⟨hi, company, own ▸ List.mem_map.mpr ⟨k, hk, rfl⟩, period, status⟩, own⟩

/-- The items of a billed contract. -/
def itemsFor (ctx : Ctx) (input : BatchGenerateInvoicesInput) (queueUp : Nat → Bool) (db : Db)
    (k : Contract × DormUnit) : List ItemData :=
  buildBatchItems ctx input.period k.1.rentAmount k.2.unitNumber
    ((meters ctx input ⟨fun _ => db, queueUp⟩).filter fun m => m.unitId = k.1.unitId)
    (readings ctx input ⟨fun _ => db, queueUp⟩) input.additionalItems

/-- **The plan is the first failing check**, or the items of the bill. -/
theorem plans_eq
    (unique : ∀ m ∈ db.meters.rows, ∀ m' ∈ db.meters.rows,
      m.unitId = m'.unitId → m.kind = m'.kind → m = m')
    {k : Contract × DormUnit} (hk : k ∈ contracts ctx input ⟨fun _ => db, queueUp⟩) :
    plans ctx input ⟨fun _ => db, queueUp⟩ k.1 k.2 =
      match db.skipReason ctx.companyId input.period k.1 with
      | some reason => .skip reason
      | none => .generate (itemsFor ctx input queueUp db k) := by
  have billed := existing_any hk
  have water := readingMissing_iff unique hk .water
  have electric := readingMissing_iff unique hk .electric
  unfold plans plan Db.skipReason
  by_cases active : k.1.status = .active
  · simp only [active, ne_eq, not_true_eq_false, if_false]
    by_cases dup : db.Billed ctx.companyId input.period k.1.id
    · rw [if_pos (billed.mpr dup), if_pos dup]
    · rw [if_neg (fun h => dup (billed.mp h)), if_neg dup]
      simp only [findMissingReadingReason]
      by_cases dry : db.Unread ctx.companyId input.period k.1.unitId .water
      · rw [if_pos (water.mpr dry), if_pos dry]
      · rw [if_neg (fun h => dry (water.mp h)), if_neg dry]
        by_cases dark : db.Unread ctx.companyId input.period k.1.unitId .electric
        · rw [if_pos (electric.mpr dark), if_pos dark]
        · rw [if_neg (fun h => dark (electric.mp h)), if_neg dark]
          rfl
  · simp only [active, ne_eq, not_false_eq_true, if_true]

/-- The contracts in scope that pass every check. -/
def billable (ctx : Ctx) (input : BatchGenerateInvoicesInput) (db : Db) :
    List (Contract × DormUnit) :=
  (scope ctx.companyId input.propertyId db).filter fun k =>
    db.skipReason ctx.companyId input.period k.1 = none

/-- The others, each with the first check it fails. -/
def unbillable (ctx : Ctx) (input : BatchGenerateInvoicesInput) (db : Db) : List Skip :=
  (scope ctx.companyId input.propertyId db).filterMap fun k =>
    (db.skipReason ctx.companyId input.period k.1).map fun reason =>
      ⟨k.1.unitId, k.1.id, reason⟩

section decide
variable {newId : Id → Id} {now : Instant} {decide' : Contract → DormUnit → Plan}
  (reason : Contract → Option BatchSkipReason) {items : Contract × DormUnit → List ItemData}

theorem inserts_of_plan {ks : List (Contract × DormUnit)}
    (plans : ∀ k ∈ ks, decide' k.1 k.2 =
      match reason k.1 with
      | some reason => .skip reason
      | none => .generate (items k)) :
    inserts ctx newId now input decide' ks =
      (ks.filter fun k => (reason k.1) = none).map fun k =>
        batchInvoice ctx (newId k.1.id) now input k.1 (items k) := by
  induction ks with
  | nil => rfl
  | cons k ks ih =>
    have first := plans k (by simp)
    have rest := ih fun k hk => plans k (by simp [hk])
    cases h : reason k.1 with
    | none =>
      rw [h] at first
      rw [inserts_generate ctx newId now input decide' first, rest]
      simp [h]
    | some r =>
      rw [h] at first
      rw [inserts_skip ctx newId now input decide' first, rest]
      simp [h]

theorem skips_of_plan {ks : List (Contract × DormUnit)}
    (plans : ∀ k ∈ ks, decide' k.1 k.2 =
      match reason k.1 with
      | some reason => .skip reason
      | none => .generate (items k)) :
    skips decide' ks = ks.filterMap fun k =>
      (reason k.1).map fun reason => (⟨k.1.unitId, k.1.id, reason⟩ : Skip) := by
  refine List.filterMap_congr fun k hk => ?_
  have first := plans k hk
  cases h : reason k.1 with
  | none =>
    rw [h] at first
    simp [first]
  | some r =>
    rw [h] at first
    simp [first]

end decide

/-- The drafts of a batch, over the tables. -/
theorem planned_eq
    (unique : ∀ m ∈ db.meters.rows, ∀ m' ∈ db.meters.rows,
      m.unitId = m'.unitId → m.kind = m'.kind → m = m') (newId : Id → Id) (now : Instant) :
    planned ctx newId now input ⟨fun _ => db, queueUp⟩ =
      (billable ctx input db).map fun k =>
        batchInvoice ctx (newId k.1.id) now input k.1 (itemsFor ctx input queueUp db k) :=
  inserts_of_plan (db.skipReason ctx.companyId input.period) fun _ hk => plans_eq unique hk

end plan

/-- One run that bills the contracts `ks`, in this order, and nothing else. -/
structure BillsOnly (S : Server) (ctx : Ctx) (newId : Id → Id) (now : Instant)
    (input : BatchGenerateInvoicesInput) (queueUp : Nat → Bool) (db : Db)
    (ks : List (Contract × DormUnit)) : Prop where
  returns : (Prog.serve (engine S) queueUp db (createBatch ctx newId now input)).response =
    some ⟨ks.map fun k => newId k.1.id, unbillable ctx input db⟩
  writes : ∃ made,
    (Prog.serve (engine S) queueUp db (createBatch ctx newId now input)).written =
      made.map Row.invoice ∧
    List.Forall₂ (fun k r => r.id = newId k.1.id ∧ r.companyId = ctx.companyId ∧
      r.contractId = k.1.id ∧ r.period = input.period ∧ r.status = .draft) ks made

section run
variable {S : Server} {ctx : Ctx} {input : BatchGenerateInvoicesInput} {queueUp : Nat → Bool}
  {db : Db} {newId : Id → Id} {now : Instant}

/-- A run whose drafts can all be inserted inserts them. -/
theorem createBatch_ready (injective : Function.Injective newId)
    (unused : ∀ c, db.invoices.find? (newId c) = none)
    (ready : ∀ d ∈ planned ctx newId now input ⟨fun _ => db, queueUp⟩, d.Ready db) :
    (Prog.serve (engine S) queueUp db (createBatch ctx newId now input)).response =
        some ⟨(planned ctx newId now input ⟨fun _ => db, queueUp⟩).map InvoiceData.id,
          skips (plans ctx input ⟨fun _ => db, queueUp⟩)
            (contracts ctx input ⟨fun _ => db, queueUp⟩)⟩ ∧
      ∃ made, (Prog.serve (engine S) queueUp db (createBatch ctx newId now input)).written =
          made.map Row.invoice ∧
        List.Forall₂ InvoiceData.Makes (planned ctx newId now input ⟨fun _ => db, queueUp⟩)
          made := by
  by_cases empty : contracts ctx input ⟨fun _ => db, queueUp⟩ = []
  · obtain ⟨tr, run⟩ := createBatch_empty S ctx newId now input _ empty
    have nothing : planned ctx newId now input ⟨fun _ => db, queueUp⟩ = [] := by
      simp [planned, empty, inserts]
    rw [Prog.serve, run, nothing, empty]
    exact ⟨rfl, [], rfl, .nil⟩
  · obtain ⟨tr, run⟩ := createBatch_runIn S ctx newId now input _ empty
    have known : ∀ d ∈ planned ctx newId now input ⟨fun _ => db, queueUp⟩, d.ReadingsKnown db :=
      fun d hd => planned_known ctx newId now input _ (fun _ _ _ h => h) hd (Nat.le_refl 3)
    let env : Env billing := ⟨fun _ => db, queueUp⟩
    have inserted : ∀ k (d : InvoiceData), (planned ctx newId now input env)[k]? = some d →
        d.Ready (env.db (4 + k)) ∧ d.ReadingsKnown (env.db (4 + k)) :=
      fun k d hd => ⟨ready d (List.mem_of_getElem? hd), known d (List.mem_of_getElem? hd)⟩
    have free : ∀ n c, (env.db n).invoices.find? (newId c) = none := fun _ => unused
    obtain ⟨res, rows, seen, tr', run', -, -, same, made, rfl, all⟩ := applyBatch_good (S := S)
      injective free (scope_distinct _ _ _) ⟨[], []⟩ 4 (drafts_nil newId)
      (fun k _ => by simp) [] tr inserted
    have ended := run.trans run'
    rw [Prog.serve, ended, same]
    exact ⟨rfl, made, rfl, all⟩

/-- A run with a draft that cannot be inserted commits nothing. -/
theorem createBatch_unready (injective : Function.Injective newId)
    (unused : ∀ c, db.invoices.find? (newId c) = none)
    (unready : ¬ ∀ d ∈ planned ctx newId now input ⟨fun _ => db, queueUp⟩, d.Ready db) :
    (Prog.serve (engine S) queueUp db (createBatch ctx newId now input)).written = [] := by
  let env : Env billing := ⟨fun _ => db, queueUp⟩
  have some_contract : contracts ctx input env ≠ [] := by
    intro empty
    refine unready fun d hd => ?_
    rw [show planned ctx newId now input ⟨fun _ => db, queueUp⟩ = [] by
      simp [planned, show contracts ctx input ⟨fun _ => db, queueUp⟩ = [] from empty,
        inserts]] at hd
    cases hd
  obtain ⟨tr, run⟩ := createBatch_runIn S ctx newId now input env some_contract
  obtain ⟨pre, d, post, split, good, bad⟩ :=
    exists_first (fun _ (d : InvoiceData) => d.Ready db) (planned ctx newId now input env)
      fun all => unready fun d hd => by
        obtain ⟨k, place⟩ := List.getElem?_of_mem hd
        exact all k d place
  have known : ∀ d ∈ planned ctx newId now input env, d.ReadingsKnown db :=
    fun d hd => planned_known ctx newId now input _ (fun _ _ _ h => h) hd (Nat.le_refl 3)
  have inserted : ∀ k (d' : InvoiceData), pre[k]? = some d' →
      d'.Ready (env.db (4 + k)) ∧ d'.ReadingsKnown (env.db (4 + k)) := fun k d' hd' =>
    ⟨good k d' hd', known d' (by simp [split, List.mem_of_getElem? hd'])⟩
  have split' : inserts ctx newId now input (plans ctx input env) (contracts ctx input env) =
      pre ++ d :: post := split
  have free : ∀ n c, (env.db n).invoices.find? (newId c) = none := fun _ => unused
  have distinct : ((contracts ctx input env).map fun k => k.1.id).Nodup := scope_distinct _ _ _
  have outcome := applyBatch_bad (S := S) injective free distinct ⟨[], []⟩ 4 [] tr split' inserted
    bad
  rw [Prog.serve, run]
  rcases outcome with ⟨-, -, -, -, res, answer, broken, -⟩ | ⟨-, err, thrown⟩
  · simp [Ending.written, answer, broken]
  · simp [Ending.written, thrown]

/-- **One run** bills every contract that passes the checks, if the inserts succeed. -/
theorem createBatch_bills
    (unique : ∀ m ∈ db.meters.rows, ∀ m' ∈ db.meters.rows,
      m.unitId = m'.unitId → m.kind = m'.kind → m = m')
    (injective : Function.Injective newId)
    (unused : ∀ c, db.invoices.find? (newId c) = none)
    (ready : ∀ d ∈ planned ctx newId now input ⟨fun _ => db, queueUp⟩, d.Ready db) :
    BillsOnly S ctx newId now input queueUp db (billable ctx input db) := by
  obtain ⟨returns, made, written, all⟩ := createBatch_ready (S := S) injective unused ready
  have skipped : skips (plans ctx input ⟨fun _ => db, queueUp⟩)
      (contracts ctx input ⟨fun _ => db, queueUp⟩) = unbillable ctx input db :=
    skips_of_plan (db.skipReason ctx.companyId input.period) fun _ hk => plans_eq unique hk
  rw [planned_eq unique, List.map_map, skipped] at returns
  rw [planned_eq unique, List.forall₂_map_left_iff] at all
  exact ⟨returns, made, written, all.imp fun k r makes =>
    ⟨makes.id, makes.companyId, makes.contractId, makes.period, makes.status⟩⟩

end run
end InvoiceService

/-! ## The state a run leaves -/

/-- Only invoices differ. -/
structure Db.SameRooms (db db' : Db) : Prop where
  contracts : db'.contracts = db.contracts
  units : db'.units = db.units
  meters : db'.meters = db.meters
  readings : db'.readings = db.readings

theorem Db.SameRooms.trans {db db' db'' : Db} (h : db.SameRooms db') (h' : db'.SameRooms db'') :
    db.SameRooms db'' :=
  ⟨h'.contracts.trans h.contracts, h'.units.trans h.units, h'.meters.trans h.meters,
    h'.readings.trans h.readings⟩

theorem foldl_invoices (made : List Invoice) (db : Db) :
    db.SameRooms ((made.map Row.invoice).foldl Row.apply db) ∧
      ((made.map Row.invoice).foldl Row.apply db).invoices = made.foldl Table.put db.invoices := by
  induction made generalizing db with
  | nil => exact ⟨⟨rfl, rfl, rfl, rfl⟩, rfl⟩
  | cons r rs ih =>
    obtain ⟨rooms, invoices⟩ := ih (Row.apply db (.invoice r))
    have first : db.SameRooms (Row.apply db (.invoice r)) := ⟨rfl, rfl, rfl, rfl⟩
    exact ⟨first.trans rooms, invoices⟩

section later
variable {db db' : Db} {c : Id} {period : Period}

theorem Db.SameRooms.scope (same : db.SameRooms db') (propertyId : Option Id) :
    InvoiceService.scope c propertyId db' = InvoiceService.scope c propertyId db := by
  simp only [InvoiceService.scope, same.contracts, same.units]

theorem Db.SameRooms.unread (same : db.SameRooms db') (unitId : Id) (kind : MeterKind) :
    db'.Unread c period unitId kind ↔ db.Unread c period unitId kind := by
  simp only [Unread, HasReading, same.meters, same.readings]

/-- A contract whose invoices of the period stay as they are fails the same check. -/
theorem Db.SameRooms.skipReason_eq (same : db.SameRooms db') {k : Contract}
    (billed : db'.Billed c period k.id ↔ db.Billed c period k.id) :
    db'.skipReason c period k = db.skipReason c period k := by
  simp only [skipReason, billed, same.unread]

theorem Db.skipReason_duplicate {k : Contract} (passed : db.skipReason c period k = none)
    (billed : db'.Billed c period k.id) :
    db'.skipReason c period k = some .duplicate_invoice := by
  simp [skipReason, (skipReason_eq_none.mp passed).active, billed]

end later

namespace InvoiceService

/-- `db'` has one new draft for each of the contracts, under the id drawn for it. -/
structure Drafted (ctx : Ctx) (newId : Id → Id) (input : BatchGenerateInvoicesInput)
    (ks : List (Contract × DormUnit)) (db db' : Db) : Prop where
  rooms : db.SameRooms db'
  invoices : ∃ made : List Invoice, (∀ i, i ∈ db'.invoices.rows ↔ i ∈ db.invoices.rows ∨ i ∈ made) ∧
    List.Forall₂ (fun k r => r.id = newId k.1.id ∧ r.companyId = ctx.companyId ∧
      r.contractId = k.1.id ∧ r.period = input.period ∧ r.status = .draft) ks made

theorem billable_sublist (ctx : Ctx) (input : BatchGenerateInvoicesInput) (db : Db) :
    (billable ctx input db).Sublist (scope ctx.companyId input.propertyId db) :=
  List.filter_sublist

/-- Rows under ids drawn for the contracts are added to the table. -/
theorem mem_made {newId : Id → Id} {ks : List (Contract × DormUnit)} {db : Db} {c : Id}
    {propertyId : Option Id} {made : List Invoice} (sub : ks.Sublist (scope c propertyId db))
    (injective : Function.Injective newId) (unused : ∀ c, db.invoices.find? (newId c) = none)
    (drawn : List.Forall₂ (fun k r => r.id = newId k.1.id) ks made) (i : Invoice) :
    i ∈ ((made.map Row.invoice).foldl Row.apply db).invoices.rows ↔
      i ∈ db.invoices.rows ∨ i ∈ made := by
  have ids : made.map Invoice.id = ks.map fun k => newId k.1.id := by
    clear sub
    induction drawn with
    | nil => rfl
    | cons first _ ih => rw [List.map_cons, List.map_cons, first, ih]
  have distinct : (made.map Invoice.id).Nodup := by
    have apart := (sub.map fun k => k.1.id).nodup (scope_distinct _ _ _)
    rw [ids, show (ks.map fun k => newId k.1.id) = (ks.map fun k => k.1.id).map newId by simp]
    exact apart.map injective
  rw [(foldl_invoices made db).2]
  refine Table.mem_foldl_put (fun r hr => ?_) distinct i
  obtain ⟨k, -, id⟩ := exists_source drawn hr
  rw [key_invoice, id]
  exact unused k.1.id

theorem BillsOnly.drafted {S : Server} {ctx : Ctx} {newId : Id → Id} {now : Instant}
    {input : BatchGenerateInvoicesInput} {queueUp : Nat → Bool} {db : Db}
    {ks : List (Contract × DormUnit)} (bills : BillsOnly S ctx newId now input queueUp db ks)
    (sub : ks.Sublist (scope ctx.companyId input.propertyId db))
    (injective : Function.Injective newId)
    (unused : ∀ c, db.invoices.find? (newId c) = none) :
    Drafted ctx newId input ks db
      ((⟨ctx, queueUp, .createBatch newId now input⟩ : InvoicingRequest).commit S db) := by
  obtain ⟨made, written, drafts⟩ := bills.writes
  have committed : (⟨ctx, queueUp, .createBatch newId now input⟩ : InvoicingRequest).commit S db =
      (made.map Row.invoice).foldl Row.apply db := congrArg (List.foldl Row.apply db) written
  rw [committed]
  exact ⟨(foldl_invoices made db).1, made,
    mem_made sub injective unused (drafts.imp fun _ _ draft => draft.1), drafts⟩

section drafted
variable {ctx : Ctx} {newId : Id → Id} {input : BatchGenerateInvoicesInput} {db db₁ : Db}
  {ks : List (Contract × DormUnit)}

theorem Drafted.billed (drafted : Drafted ctx newId input ks db db₁) (contractId : Id) :
    db₁.Billed ctx.companyId input.period contractId ↔
      db.Billed ctx.companyId input.period contractId ∨ ∃ k ∈ ks, k.1.id = contractId := by
  obtain ⟨made, invoices, drafts⟩ := drafted.invoices
  constructor
  · rintro ⟨i, hi, company, rfl, rest⟩
    rcases (invoices i).mp hi with old | new
    · exact .inl ⟨i, old, company, rfl, rest⟩
    · obtain ⟨k, hk, -, -, contract, -⟩ := exists_source drafts new
      exact .inr ⟨k, hk, contract.symm⟩
  · rintro (⟨i, hi, rest⟩ | ⟨k, hk, rfl⟩)
    · exact ⟨i, (invoices i).mpr (.inl hi), rest⟩
    · obtain ⟨r, hr, -, company, contract, period, status⟩ := exists_made drafts hk
      exact ⟨r, (invoices r).mpr (.inr hr), company, contract, period, by simp [status]⟩

/-- Contracts in scope with one id are one. -/
theorem scope_inj {c : Id} {propertyId : Option Id} {db : Db} {k k' : Contract × DormUnit}
    (hk : k ∈ scope c propertyId db) (hk' : k' ∈ scope c propertyId db)
    (same : k.1.id = k'.1.id) : k = k' :=
  List.inj_on_of_nodup_map (scope_distinct c propertyId db) hk hk' same

theorem mem_billable {k : Contract × DormUnit} :
    k ∈ billable ctx input db ↔ k ∈ scope ctx.companyId input.propertyId db ∧
      db.skipReason ctx.companyId input.period k.1 = none := by
  simp [billable]

/-- After a run, every contract in scope fails a check: the billed ones are
duplicates, the others fail what they failed. -/
theorem Drafted.skipReason (drafted : Drafted ctx newId input (billable ctx input db) db db₁)
    {k : Contract × DormUnit} (hk : k ∈ scope ctx.companyId input.propertyId db) :
    db₁.skipReason ctx.companyId input.period k.1 =
      match db.skipReason ctx.companyId input.period k.1 with
      | none => some .duplicate_invoice
      | some reason => some reason := by
  cases h : db.skipReason ctx.companyId input.period k.1 with
  | none =>
    have billed := (drafted.billed k.1.id).mpr (.inr ⟨k, mem_billable.mpr ⟨hk, h⟩, rfl⟩)
    exact Db.skipReason_duplicate h billed
  | some reason =>
    simp only
    rw [← h]
    refine drafted.rooms.skipReason_eq ((drafted.billed k.1.id).trans (or_iff_left ?_))
    rintro ⟨k', hk', same⟩
    obtain ⟨scope', passed⟩ := mem_billable.mp hk'
    rw [scope_inj scope' hk same, h] at passed
    cases passed

theorem Drafted.billable_nil (drafted : Drafted ctx newId input (billable ctx input db) db db₁) :
    billable ctx input db₁ = [] := by
  rw [billable, drafted.rooms.scope, List.filter_eq_nil_iff]
  intro k hk
  rw [drafted.skipReason hk]
  cases db.skipReason ctx.companyId input.period k.1 <;> simp

end drafted
end InvoiceService

/-! ## Voids -/

def voided (i : Invoice) : Invoice := InvoicePatch.apply { status := .void } i

theorem voided_of_void {i : Invoice} (h : i.status = .void) : voided i = i := by
  cases i
  cases h
  rfl

/-- `db'` is `db` with the invoices under `ids` void. -/
structure Voided (ids : List Id) (db db' : Db) : Prop where
  rooms : db.SameRooms db'
  invoices : ∀ i, i ∈ db'.invoices.rows ↔
    ∃ j ∈ db.invoices.rows, i = if j.id ∈ ids then voided j else j

/-- The requests that void some invoices, one after the other. -/
def voids (ctx : Ctx) (queueUp : Nat → Bool) (ids : List Id) : List InvoicingRequest :=
  ids.map fun id => ⟨ctx, queueUp, .void id⟩

theorem void_commit (S : Server) (ctx : Ctx) (queueUp : Nat → Bool) {db : Db} {id : Id}
    {i : Invoice} (found : db.invoice? ctx.companyId id = some i)
    (status : i.status = .draft ∨ i.status = .void) :
    Voided [id] db ((⟨ctx, queueUp, .void id⟩ : InvoicingRequest).commit S db) := by
  have rows : (⟨ctx, queueUp, .void id⟩ : InvoicingRequest).rows S db =
      if i.status = .void ∨ i.status = .paid then [] else [.invoice (voided i)] := by
    simp only [InvoicingRequest.rows, InvoiceService.void_written, InvoiceService.voidRows, found]
    rfl
  obtain ⟨stored, -⟩ := Db.invoice?_some.mp found
  have own : ∀ j ∈ db.invoices.rows, j.id = id → j = i := by
    intro j hj same
    have := Table.find?_of_mem hj
    rw [key_invoice, same, stored] at this
    exact (Option.some.inj this).symm
  have idem : i.id = id := Table.find?_key stored
  rcases status with draft | gone
  · have written : (⟨ctx, queueUp, .void id⟩ : InvoicingRequest).commit S db =
        Row.apply db (.invoice (voided i)) := by
      rw [InvoicingRequest.commit, rows, draft]
      rfl
    rw [written]
    refine ⟨⟨rfl, rfl, rfl, rfl⟩, fun x => ?_⟩
    simp only [Row.apply, Table.mem_put, List.mem_singleton]
    constructor
    · rintro (rfl | ⟨hx, other⟩)
      · exact ⟨i, Table.find?_mem stored, by rw [if_pos idem]⟩
      · have other : x.id ≠ id := fun same => other (same.trans idem.symm)
        exact ⟨x, hx, by rw [if_neg other]⟩
    · rintro ⟨j, hj, rfl⟩
      by_cases same : j.id = id
      · rw [if_pos same, own j hj same]
        exact .inl rfl
      · rw [if_neg same]
        exact .inr ⟨hj, fun h => same (h.trans idem)⟩
  · have written : (⟨ctx, queueUp, .void id⟩ : InvoicingRequest).commit S db = db := by
      rw [InvoicingRequest.commit, rows, gone]
      rfl
    rw [written]
    refine ⟨⟨rfl, rfl, rfl, rfl⟩, fun x => ?_⟩
    have stays : ∀ j ∈ db.invoices.rows, (if j.id ∈ [id] then voided j else j) = j := by
      intro j hj
      split
      · rename_i same
        exact voided_of_void (own j hj (List.mem_singleton.mp same) ▸ gone)
      · rfl
    constructor
    · intro hx
      exact ⟨x, hx, (stays x hx).symm⟩
    · rintro ⟨j, hj, rfl⟩
      rwa [stays j hj]

theorem Voided.found {ids : List Id} {db db' : Db} (h : Voided ids db db') {c id : Id}
    {i : Invoice} (found : db.invoice? c id = some i)
    (status : i.status = .draft ∨ i.status = .void) :
    ∃ i', db'.invoice? c id = some i' ∧ (i'.status = .draft ∨ i'.status = .void) := by
  obtain ⟨stored, company⟩ := Db.invoice?_some.mp found
  have id' : i.id = id := Table.find?_key stored
  have mem := (h.invoices _).mpr ⟨i, Table.find?_mem stored, rfl⟩
  refine ⟨if i.id ∈ ids then voided i else i, Db.invoice?_some.mpr ⟨?_, ?_⟩, ?_⟩
  · refine Table.find?_eq_some_iff.mpr ⟨mem, ?_⟩
    split <;> exact id'
  · split <;> exact company
  · split
    · exact .inr rfl
    · exact status

theorem Voided.cons {id : Id} {ids : List Id} {db db' db'' : Db} (first : Voided [id] db db')
    (rest : Voided ids db' db'') : Voided (id :: ids) db db'' := by
  have both : ∀ j : Invoice,
      (if (if j.id ∈ [id] then voided j else j).id ∈ ids then
        voided (if j.id ∈ [id] then voided j else j) else if j.id ∈ [id] then voided j else j) =
      if j.id ∈ id :: ids then voided j else j := by
    intro j
    have keep : (if j.id ∈ [id] then voided j else j).id = j.id := by split <;> rfl
    have again : voided (voided j) = voided j := rfl
    rw [keep]
    by_cases here : j.id = id
    · simp [here, again]
    · by_cases there : j.id ∈ ids <;> simp [here, there]
  refine ⟨first.rooms.trans rest.rooms, fun i => ?_⟩
  constructor
  · intro hi
    obtain ⟨x, hx, rfl⟩ := (rest.invoices i).mp hi
    obtain ⟨j, hj, rfl⟩ := (first.invoices x).mp hx
    exact ⟨j, hj, both j⟩
  · rintro ⟨j, hj, rfl⟩
    rw [← both j]
    exact (rest.invoices _).mpr ⟨_, (first.invoices _).mpr ⟨j, hj, rfl⟩, rfl⟩

/-- Voiding drafts, each by its own call, voids exactly these. -/
theorem voids_commit (S : Server) (ctx : Ctx) (queueUp : Nat → Bool) {ids : List Id} {db : Db}
    (drafts : ∀ id ∈ ids, ∃ i, db.invoice? ctx.companyId id = some i ∧
      (i.status = .draft ∨ i.status = .void)) :
    Voided ids db (invoiced S db (voids ctx queueUp ids)) := by
  induction ids generalizing db with
  | nil =>
    refine ⟨⟨rfl, rfl, rfl, rfl⟩, fun i => ?_⟩
    simp [invoiced, voids]
  | cons id ids ih =>
    obtain ⟨i, found, status⟩ := drafts id (by simp)
    have first := void_commit S ctx queueUp found status
    refine first.cons (ih fun id' hid' => ?_)
    obtain ⟨i', found', status'⟩ := drafts id' (by simp [hid'])
    exact first.found found' status'

namespace InvoiceService
section again
variable {ctx : Ctx} {newId : Id → Id} {input : BatchGenerateInvoicesInput} {db db₁ db₂ : Db}
  {ids : List Id}

/-- What is open after the voids: the old invoices, and the new ones not voided. -/
theorem billed_after_voids (drafted : Drafted ctx newId input (billable ctx input db) db db₁)
    (gone : Voided ids db₁ db₂) (own : ∀ id ∈ ids, ∃ k ∈ billable ctx input db, id = newId k.1.id)
    (unused : ∀ c, db.invoices.find? (newId c) = none) (contractId : Id) :
    db₂.Billed ctx.companyId input.period contractId ↔
      db.Billed ctx.companyId input.period contractId ∨
        ∃ k ∈ billable ctx input db, k.1.id = contractId ∧ newId k.1.id ∉ ids := by
  obtain ⟨made, invoices, drafts⟩ := drafted.invoices
  have old : ∀ i ∈ db.invoices.rows, i.id ∉ ids := by
    intro i hi mem
    obtain ⟨k, -, same⟩ := own _ mem
    have := Table.find?_of_mem hi
    rw [key_invoice, same, unused k.1.id] at this
    cases this
  constructor
  · rintro ⟨i, hi, company, contract, period, status⟩
    obtain ⟨j, hj, rfl⟩ := (gone.invoices i).mp hi
    by_cases mem : j.id ∈ ids
    · rw [if_pos mem] at status
      exact absurd rfl status
    · rw [if_neg mem] at company contract period status
      rcases (invoices j).mp hj with hj | hj
      · exact .inl ⟨j, hj, company, contract, period, status⟩
      · obtain ⟨k, hk, id, -, own', -⟩ := exists_source drafts hj
        exact .inr ⟨k, hk, own'.symm.trans contract, id ▸ mem⟩
  · rintro (⟨i, hi, rest⟩ | ⟨k, hk, rfl, kept⟩)
    · refine ⟨i, (gone.invoices i).mpr ⟨i, (invoices i).mpr (.inl hi), ?_⟩, rest⟩
      rw [if_neg (old i hi)]
    · obtain ⟨r, hr, id, company, contract, period, status⟩ := exists_made drafts hk
      refine ⟨r, (gone.invoices r).mpr ⟨r, (invoices r).mpr (.inr hr), ?_⟩, company, contract,
        period, by simp [status]⟩
      rw [if_neg (id ▸ kept)]

/-- The contracts that pass again are those whose new invoice was voided. -/
theorem billable_after_voids (drafted : Drafted ctx newId input (billable ctx input db) db db₁)
    (gone : Voided ids db₁ db₂) (own : ∀ id ∈ ids, ∃ k ∈ billable ctx input db, id = newId k.1.id)
    (injective : Function.Injective newId) (unused : ∀ c, db.invoices.find? (newId c) = none) :
    billable ctx input db₂ =
      (scope ctx.companyId input.propertyId db).filter fun k => newId k.1.id ∈ ids := by
  have rooms := drafted.rooms.trans gone.rooms
  rw [billable, rooms.scope]
  refine List.filter_congr fun k hk => ?_
  have billed := billed_after_voids drafted gone own unused k.1.id
  simp only [decide_eq_decide]
  cases h : db.skipReason ctx.companyId input.period k.1 with
  | none =>
    have hk' := mem_billable.mpr ⟨hk, h⟩
    by_cases mem : newId k.1.id ∈ ids
    · have open' : db₂.Billed ctx.companyId input.period k.1.id ↔
          db.Billed ctx.companyId input.period k.1.id := by
        refine billed.trans (or_iff_left ?_)
        rintro ⟨k', hk', same, kept⟩
        exact kept (same ▸ mem)
      rw [rooms.skipReason_eq open', h]
      simp [mem]
    · have dup := billed.mpr (.inr ⟨k, hk', rfl, mem⟩)
      rw [Db.skipReason_duplicate h dup]
      simp [mem]
  | some reason =>
    have mem : newId k.1.id ∉ ids := by
      intro mem
      obtain ⟨k', hk', same⟩ := own _ mem
      obtain ⟨scope', passed⟩ := mem_billable.mp hk'
      rw [← scope_inj hk scope' (injective same), h] at passed
      cases passed
    have open' : db₂.Billed ctx.companyId input.period k.1.id ↔
        db.Billed ctx.companyId input.period k.1.id := by
      refine billed.trans (or_iff_left ?_)
      rintro ⟨k', hk', same, -⟩
      obtain ⟨scope', passed⟩ := mem_billable.mp hk'
      rw [scope_inj scope' hk same, h] at passed
      cases passed
    rw [rooms.skipReason_eq open', h]
    simp [mem]

theorem itemsFor_eq (same : db.SameRooms db₂) (queueUp queueUp' : Nat → Bool)
    (k : Contract × DormUnit) :
    itemsFor ctx input queueUp' db₂ k = itemsFor ctx input queueUp db k := by
  simp only [itemsFor, meters, readings, contracts, same.scope, same.meters, same.readings]
  rfl

/-- What was billed once can be inserted again after its void. -/
theorem ready_after_voids (drafted : Drafted ctx newId input (billable ctx input db) db db₁)
    (gone : Voided ids db₁ db₂) {now now' : Instant} {queueUp queueUp' : Nat → Bool}
    {newId' : Id → Id} {k : Contract × DormUnit} (voided' : newId k.1.id ∈ ids)
    (ready : (batchInvoice ctx (newId k.1.id) now input k.1
      (itemsFor ctx input queueUp db k)).Ready db) :
    (batchInvoice ctx (newId' k.1.id) now' input k.1 (itemsFor ctx input queueUp' db₂ k)).Ready
      db₂ := by
  obtain ⟨amounts, items, free⟩ := ready
  rw [itemsFor_eq (drafted.rooms.trans gone.rooms) queueUp queueUp']
  refine ⟨amounts, items, ?_⟩
  rintro ⟨i, hi, contract, period, status⟩
  obtain ⟨made, invoices, drafts⟩ := drafted.invoices
  obtain ⟨j, hj, rfl⟩ := (gone.invoices i).mp hi
  by_cases mem : j.id ∈ ids
  · rw [if_pos mem] at status
    exact status rfl
  · rw [if_neg mem] at contract period status
    rcases (invoices j).mp hj with hj | hj
    · exact free ⟨j, hj, contract, period, status⟩
    · obtain ⟨k', hk', id, -, own', -⟩ := exists_source drafts hj
      have same : k'.1.id = k.1.id := own'.symm.trans contract
      exact mem (id ▸ same ▸ voided')

theorem mem_unbillable {s : Skip} : s ∈ unbillable ctx input db ↔
    ∃ k ∈ scope ctx.companyId input.propertyId db, ∃ reason,
      db.skipReason ctx.companyId input.period k.1 = some reason ∧
        s = ⟨k.1.unitId, k.1.id, reason⟩ := by
  simp [unbillable, eq_comm]

/-- Each contract is billed or skipped. -/
theorem billable_or_skipped (injective : Function.Injective newId) {k : Contract × DormUnit}
    (hk : k ∈ scope ctx.companyId input.propertyId db) :
    Xor (newId k.1.id ∈ (billable ctx input db).map fun k => newId k.1.id)
      (∃ s ∈ unbillable ctx input db, s.contractId = k.1.id) := by
  have generated : (newId k.1.id ∈ (billable ctx input db).map fun k => newId k.1.id) ↔
      db.skipReason ctx.companyId input.period k.1 = none := by
    rw [List.mem_map]
    constructor
    · rintro ⟨k', hk', same⟩
      obtain ⟨scope', passed⟩ := mem_billable.mp hk'
      rwa [← scope_inj scope' hk (injective same)]
    · exact fun passed => ⟨k, mem_billable.mpr ⟨hk, passed⟩, rfl⟩
  have skipped : (∃ s ∈ unbillable ctx input db, s.contractId = k.1.id) ↔
      db.skipReason ctx.companyId input.period k.1 ≠ none := by
    constructor
    · rintro ⟨s, hs, same⟩
      obtain ⟨k', scope', reason, failed, rfl⟩ := mem_unbillable.mp hs
      rw [← scope_inj scope' hk same, failed]
      simp
    · intro failed
      obtain ⟨reason, failed⟩ := Option.ne_none_iff_exists'.mp failed
      exact ⟨_, mem_unbillable.mpr ⟨k, hk, reason, failed, rfl⟩, rfl⟩
  rw [generated, skipped]
  by_cases passed : db.skipReason ctx.companyId input.period k.1 = none <;>
    simp [passed, Xor]

end again
end InvoiceService

open InvoiceService in
/-- **Batches are complete, exclusive and idempotent.** A run bills exactly the
billable contracts and skips the others with the first check they fail; the next
run bills nothing; a run after some of the new invoices are voided bills exactly
the contracts of these. -/
theorem batch_complete_exclusive_idempotent (S : Server) (ctx : Ctx) (db : Db)
    (unique : db.Unique) (input : BatchGenerateInvoicesInput) (newId : Id → Id) (now : Instant)
    (queueUp : Nat → Bool) (injective : Function.Injective newId)
    (unused : ∀ c, db.invoices.find? (newId c) = none)
    (ready : ∀ d ∈ planned ctx newId now input ⟨fun _ => db, queueUp⟩, d.Ready db) :
    let db₁ := (⟨ctx, queueUp, .createBatch newId now input⟩ : InvoicingRequest).commit S db
    (∀ k ∈ scope ctx.companyId input.propertyId db,
      (k ∈ billable ctx input db ↔ db.Billable ctx.companyId input.period k.1) ∧
      Xor (newId k.1.id ∈ (billable ctx input db).map fun k => newId k.1.id)
        (∃ s ∈ unbillable ctx input db, s.contractId = k.1.id)) ∧
    BillsOnly S ctx newId now input queueUp db (billable ctx input db) ∧
    (∀ (newId' : Id → Id) (now' : Instant) (queueUp' : Nat → Bool),
      Function.Injective newId' → (∀ c, db₁.invoices.find? (newId' c) = none) →
      BillsOnly S ctx newId' now' input queueUp' db₁ []) ∧
    ∀ (ids : List Id) (queueUp₀ : Nat → Bool),
      (∀ id ∈ ids, id ∈ (billable ctx input db).map fun k => newId k.1.id) →
      let db₂ := invoiced S db₁ (voids ctx queueUp₀ ids)
      ∀ (newId' : Id → Id) (now' : Instant) (queueUp' : Nat → Bool),
        Function.Injective newId' → (∀ c, db₂.invoices.find? (newId' c) = none) →
        BillsOnly S ctx newId' now' input queueUp' db₂
          ((scope ctx.companyId input.propertyId db).filter fun k => newId k.1.id ∈ ids) := by
  intro db₁
  have bills := createBatch_bills (S := S) unique.meters injective unused ready
  have drafted : Drafted ctx newId input (billable ctx input db) db db₁ :=
    bills.drafted (billable_sublist ctx input db) injective unused
  refine ⟨fun k hk => ⟨?_, billable_or_skipped injective hk⟩, bills, ?_, ?_⟩
  · rw [mem_billable, Db.skipReason_eq_none]
    exact and_iff_right hk
  · intro newId' now' queueUp' injective' unused'
    have meters : ∀ m ∈ db₁.meters.rows, ∀ m' ∈ db₁.meters.rows,
        m.unitId = m'.unitId → m.kind = m'.kind → m = m' := by
      rw [drafted.rooms.meters]
      exact unique.meters
    have nothing : planned ctx newId' now' input ⟨fun _ => db₁, queueUp'⟩ = _ :=
      planned_eq meters newId' now'
    rw [drafted.billable_nil, List.map_nil] at nothing
    rw [← drafted.billable_nil]
    exact createBatch_bills meters injective' unused' (by simp [nothing])
  · intro ids queueUp₀ sub db₂ newId' now' queueUp' injective' unused'
    have own : ∀ id ∈ ids, ∃ k ∈ billable ctx input db, id = newId k.1.id := by
      intro id hid
      obtain ⟨k, hk, rfl⟩ := List.mem_map.mp (sub id hid)
      exact ⟨k, hk, rfl⟩
    have drafts : ∀ id ∈ ids, ∃ i, db₁.invoice? ctx.companyId id = some i ∧
        (i.status = .draft ∨ i.status = .void) := by
      intro id hid
      obtain ⟨k, hk, rfl⟩ := own id hid
      obtain ⟨made, invoices, forms⟩ := drafted.invoices
      obtain ⟨r, hr, id, company, -, -, status⟩ := exists_made forms hk
      have found := Table.find?_of_mem ((invoices r).mpr (.inr hr))
      rw [key_invoice, id] at found
      exact ⟨r, Db.invoice?_some.mpr ⟨found, company⟩, .inl status⟩
    have gone : Voided ids db₁ db₂ := voids_commit S ctx queueUp₀ drafts
    have rooms := drafted.rooms.trans gone.rooms
    have meters : ∀ m ∈ db₂.meters.rows, ∀ m' ∈ db₂.meters.rows,
        m.unitId = m'.unitId → m.kind = m'.kind → m = m' := by
      rw [rooms.meters]
      exact unique.meters
    rw [← billable_after_voids drafted gone own injective unused]
    refine createBatch_bills meters injective' unused' fun d hd => ?_
    rw [planned_eq meters, billable_after_voids drafted gone own injective unused] at hd
    obtain ⟨k, hk, rfl⟩ := List.mem_map.mp hd
    obtain ⟨scope', mem⟩ := List.mem_filter.mp hk
    have mem : newId k.1.id ∈ ids := by simpa using mem
    obtain ⟨k', hk', same⟩ := own _ mem
    obtain rfl : k = k' := scope_inj scope' (mem_billable.mp hk').1 (injective same)
    have planned' : batchInvoice ctx (newId k.1.id) now input k.1
        (itemsFor ctx input queueUp db k) ∈ planned ctx newId now input ⟨fun _ => db, queueUp⟩ := by
      rw [planned_eq unique.meters]
      exact List.mem_map.mpr ⟨k, hk', rfl⟩
    exact ready_after_voids drafted gone mem (ready _ planned')

/-- Keys from `n` on are new where all keys are below `n`. -/
theorem unused_above {n : Nat} {db : Db} (below : ∀ i ∈ db.invoices.rows, i.id < n) (c : Id) :
    db.invoices.find? (n + c) = none := by
  cases found : db.invoices.find? (n + c) with
  | none => rfl
  | some i =>
    have low : i.id < n := below i (Table.find?_mem found)
    rw [show i.id = n + c from Table.find?_key found] at low
    exact absurd low (Nat.not_lt.mpr (Nat.le_add_right n c))

/-- Two rooms, billed, billed again and billed after the first bill is voided. -/
theorem batch_complete_exclusive_idempotent_rooms :
    let db₁ := (⟨Demo.ctx, fun _ => true, .createBatch (1000 + ·) 0 Demo.rentOnly⟩ :
      InvoicingRequest).commit Demo.server Demo.twoRooms
    let db₂ := invoiced Demo.server db₁ (voids Demo.ctx (fun _ => true) [1101])
    InvoiceService.BillsOnly Demo.server Demo.ctx (2000 + ·) 0 Demo.rentOnly (fun _ => true)
      db₁ [] ∧
      InvoiceService.BillsOnly Demo.server Demo.ctx (3000 + ·) 0 Demo.rentOnly (fun _ => true) db₂
        ((InvoiceService.scope 1 none Demo.twoRooms).filter fun k => 1000 + k.1.id ∈ [1101]) := by
  have unique : Demo.twoRooms.Unique := by
    constructor
    · rintro m ⟨⟩
    · rintro r ⟨⟩
    · rintro i ⟨⟩
  obtain ⟨-, -, second, third⟩ := batch_complete_exclusive_idempotent Demo.server Demo.ctx
    Demo.twoRooms unique Demo.rentOnly (1000 + ·) 0 (fun _ => true) (add_right_injective 1000)
    (fun _ => rfl) (by decide +kernel)
  refine ⟨second _ 0 _ (add_right_injective 2000) (unused_above ?_),
    third [1101] _ (by decide +kernel) _ 0 _ (add_right_injective 3000) (unused_above ?_)⟩
  · decide +kernel
  · decide +kernel

end Dormitory
