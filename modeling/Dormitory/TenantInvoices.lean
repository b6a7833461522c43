import Dormitory.Listing

/-!
# Invoices as a tenant sees them

`listForTenant` and `getByIdForTenant` of the invoice service: what the answers
to a tenant can depend on.
-/

namespace Dormitory

/-- `TENANT_HIDDEN_INVOICE_STATUSES`. -/
def tenantHiddenInvoiceStatuses : List InvoiceStatus := [.draft, .void]

namespace InvoiceService

/-- `list` with the tenant pinned and the hidden statuses left out. -/
def tenantListing (tenantId : Id) : Listing InvoiceRow ListInvoicesQuery where
  companyId i := i.companyId
  createdAt i := i.createdAt
  baseWhere query i := i.tenantId = tenantId &&
    (match query.status with
      | some status => decide (i.status = status)
      | none => decide (i.status ∉ tenantHiddenInvoiceStatuses)) &&
    query.period.all (i.period = ·)

section
variable (ids : UuidColumn) (otherFormat : String → Option DateTime) (ctx : Ctx)

def listForTenant (query : ListInvoicesQuery) (tenantId : Id) (invoices : Table InvoiceRow) :
    Except Failure (CursorPage InvoiceRow) :=
  if query.status.any (· ∈ tenantHiddenInvoiceStatuses) then .ok ⟨[], none⟩
  else (tenantListing tenantId).list ids otherFormat ctx query query.cursor query.limit invoices

def getByIdForTenant (id tenantId : Id) (invoices : Table InvoiceRow) :
    Except Failure InvoiceRow :=
  let row := (invoices.find? id).filter fun i =>
    i.companyId = ctx.companyId ∧ i.tenantId = tenantId
  match row with
  | none => .error (.http .notFound "" s!"Invoice {id} not found")
  | some row =>
    if row.status ∈ tenantHiddenInvoiceStatuses then
      .error (.http .notFound "" s!"Invoice {id} not found")
    else .ok row

end

/-- An invoice of the tenant that is neither a draft nor void. -/
structure Shown (ctx : Ctx) (tenantId : Id) (i : InvoiceRow) : Prop where
  company : i.companyId = ctx.companyId
  tenant : i.tenantId = tenantId
  status : i.status ∉ tenantHiddenInvoiceStatuses

/-- The tenant has the same invoices in both, its drafts and void ones apart. -/
def SameView (ctx : Ctx) (tenantId : Id) (t t' : Table InvoiceRow) : Prop :=
  ∀ i, Shown ctx tenantId i → (i ∈ t.rows ↔ i ∈ t'.rows)

section
variable {ids : UuidColumn} {otherFormat : String → Option DateTime} {ctx : Ctx} {tenantId : Id}
  {t t' : Table InvoiceRow}

/-- With a status that is not hidden, only invoices that are shown are listed. -/
theorem tenantListing_shown {query : ListInvoicesQuery}
    (open' : ¬ query.status.any (· ∈ tenantHiddenInvoiceStatuses)) {i : InvoiceRow}
    (listed : i ∈ (tenantListing tenantId).visible ctx query t) :
    i ∈ t.rows ∧ Shown ctx tenantId i := by
  obtain ⟨stored, seen⟩ := List.mem_filter.mp listed
  obtain ⟨company, base⟩ := of_decide_eq_true seen
  simp only [tenantListing, Bool.and_eq_true, decide_eq_true_eq] at base
  obtain ⟨⟨tenant, status⟩, -⟩ := base
  refine ⟨stored, company, tenant, ?_⟩
  cases asked : query.status with
  | none =>
    rw [asked] at status
    exact of_decide_eq_true status
  | some s =>
    rw [asked] at status open'
    rw [of_decide_eq_true status]
    simpa using open'

theorem listForTenant_congr (same : SameView ctx tenantId t t') (query : ListInvoicesQuery) :
    listForTenant ids otherFormat ctx query tenantId t =
      listForTenant ids otherFormat ctx query tenantId t' := by
  unfold listForTenant
  split
  · rfl
  · rename_i open'
    refine Listing.list_congr (fun i => ?_) query.cursor query.limit
    have moves : ∀ {t t' : Table InvoiceRow}, SameView ctx tenantId t t' →
        i ∈ (tenantListing tenantId).visible ctx query t →
          i ∈ (tenantListing tenantId).visible ctx query t' := by
      intro t t' same listed
      obtain ⟨stored, shown⟩ := tenantListing_shown open' listed
      exact List.mem_filter.mpr ⟨(same i shown).mp stored, (List.mem_filter.mp listed).2⟩
    exact ⟨moves same, moves fun i shown => (same i shown).symm⟩

theorem listForTenant_shown {query : ListInvoicesQuery} {p : CursorPage InvoiceRow}
    (answer : listForTenant ids otherFormat ctx query tenantId t = .ok p) :
    ∀ i ∈ p.items, Shown ctx tenantId i := by
  intro i hi
  unfold listForTenant at answer
  split at answer
  · cases answer
    cases hi
  · rename_i open'
    exact (tenantListing_shown open' (Listing.list_visible answer i hi)).2

/-- The one invoice is found exactly if it is stored and shown. -/
theorem getByIdForTenant_ok {id : Id} {i : InvoiceRow} :
    getByIdForTenant ctx id tenantId t = .ok i ↔
      i ∈ t.rows ∧ i.id = id ∧ Shown ctx tenantId i := by
  unfold getByIdForTenant
  dsimp only
  constructor
  · intro answer
    split at answer
    · cases answer
    · rename_i row found
      split at answer
      · cases answer
      · rename_i status
        cases answer
        obtain ⟨found, own⟩ := Option.filter_eq_some_iff.mp found
        obtain ⟨stored, same⟩ := Table.find?_eq_some_iff.mp found
        obtain ⟨company, tenant⟩ := of_decide_eq_true own
        exact ⟨stored, same, company, tenant, status⟩
  · rintro ⟨stored, same, company, tenant, status⟩
    have found : (t.find? id).filter (fun i => i.companyId = ctx.companyId ∧
        i.tenantId = tenantId) = some i :=
      Option.filter_eq_some_iff.mpr
        ⟨Table.find?_eq_some_iff.mpr ⟨stored, same⟩, decide_eq_true ⟨company, tenant⟩⟩
    rw [found]
    exact if_neg status

/-- Any other answer is the same one. -/
theorem getByIdForTenant_cases (ctx : Ctx) (id tenantId : Id) (t : Table InvoiceRow) :
    (∃ i, getByIdForTenant ctx id tenantId t = .ok i) ∨
      getByIdForTenant ctx id tenantId t =
        .error (.http .notFound "" s!"Invoice {id} not found") := by
  unfold getByIdForTenant
  dsimp only
  split
  · exact .inr rfl
  · split
    · exact .inr rfl
    · exact .inl ⟨_, rfl⟩

theorem getByIdForTenant_congr (same : SameView ctx tenantId t t') (id : Id) :
    getByIdForTenant ctx id tenantId t = getByIdForTenant ctx id tenantId t' := by
  have moves : ∀ {t t' : Table InvoiceRow}, SameView ctx tenantId t t' → ∀ i,
      getByIdForTenant ctx id tenantId t = .ok i → getByIdForTenant ctx id tenantId t' = .ok i := by
    intro t t' same i answer
    obtain ⟨stored, named, shown⟩ := getByIdForTenant_ok.mp answer
    exact getByIdForTenant_ok.mpr ⟨(same i shown).mp stored, named, shown⟩
  cases getByIdForTenant_cases ctx id tenantId t with
  | inl found =>
    obtain ⟨i, answer⟩ := found
    rw [answer, moves same i answer]
  | inr missing =>
    cases getByIdForTenant_cases ctx id tenantId t' with
    | inl found =>
      obtain ⟨i, answer⟩ := found
      rw [moves (fun i shown => (same i shown).symm) i answer] at missing
      cases missing
    | inr missing' => rw [missing, missing']

end

/-- **A tenant's answers depend on what it is shown.** In two databases that differ
in other tenants' invoices, drafts and void ones, all queries and ids get the same
answers, and these have the tenant's own issued invoices only. -/
theorem tenant_view_noninterference (ids : UuidColumn) (otherFormat : String → Option DateTime)
    (ctx : Ctx) (tenantId : Id) (t t' : Table InvoiceRow) (same : SameView ctx tenantId t t') :
    (∀ query, listForTenant ids otherFormat ctx query tenantId t =
        listForTenant ids otherFormat ctx query tenantId t') ∧
      (∀ id, getByIdForTenant ctx id tenantId t = getByIdForTenant ctx id tenantId t') ∧
      (∀ query p, listForTenant ids otherFormat ctx query tenantId t = .ok p →
        ∀ i ∈ p.items, Shown ctx tenantId i) ∧
      ∀ id i, getByIdForTenant ctx id tenantId t = .ok i → i.id = id ∧ Shown ctx tenantId i := by
  refine ⟨listForTenant_congr same, getByIdForTenant_congr same,
    fun query p answer => listForTenant_shown answer, fun id i answer => ?_⟩
  exact (getByIdForTenant_ok.mp answer).2

namespace Demo

def at' (createdAt : DateTime) (id tenantId : Id) (status : InvoiceStatus) : InvoiceRow :=
  { Dormitory.Demo.invoice id tenantId (Dormitory.Demo.baht 2000) status with
    createdAt := createdAt }

def bill : InvoiceRow := at' ⟨15, by decide⟩ 31 11 .issued

def draft : InvoiceRow := at' ⟨17, by decide⟩ 32 11 .draft

def neighbours : InvoiceRow := at' ⟨19, by decide⟩ 33 12 .issued

def issued : Table InvoiceRow := Table.put default bill

/-- Besides, the tenant's next draft and a bill of another tenant. -/
def more : Table InvoiceRow := (issued.put draft).put neighbours

theorem issued_more : SameView Dormitory.Demo.ctx 11 issued more := by
  intro i shown
  have before : i ∈ issued.rows ↔ i = bill := List.mem_singleton
  have after : i ∈ more.rows ↔ i ∈ [bill, draft, neighbours] := Iff.rfl
  rw [before, after]
  constructor
  · intro same
    exact same ▸ List.mem_cons_self
  · intro mem
    simp only [List.mem_cons, List.not_mem_nil, or_false] at mem
    rcases mem with same | rfl | rfl
    · exact same
    · exact absurd (by decide) shown.status
    · exact absurd shown.tenant (by decide)

end Demo

theorem tenant_view_of_one :
    SameView Dormitory.Demo.ctx 11 Demo.issued Demo.more ∧
      ∀ query, listForTenant Dormitory.Demo.uuids (fun _ => none) Dormitory.Demo.ctx query 11
          Demo.issued =
        listForTenant Dormitory.Demo.uuids (fun _ => none) Dormitory.Demo.ctx query 11 Demo.more :=
  ⟨Demo.issued_more, (tenant_view_noninterference Dormitory.Demo.uuids (fun _ => none)
    Dormitory.Demo.ctx 11 Demo.issued Demo.more Demo.issued_more).1⟩

end InvoiceService
end Dormitory
