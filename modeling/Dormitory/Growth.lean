import Dormitory.Calls

/-!
# What calls never undo

Every row a billing call commits is a new pending payment, the decision of a
pending one, or an invoice that moves to a status other than draft. So invoices
and payments stay, keep everything but their status columns, and a key keeps
the payment that first took it.
-/

namespace Dormitory
open Txn

/-! ## Lookups after a write -/

namespace Db
variable (db : Db) (c id : Id) (key : String)

@[simp] theorem payment?_invoice (r : Invoice) :
    (Row.apply db (.invoice r)).payment? c id = db.payment? c id := rfl

@[simp] theorem paymentByKey?_invoice (r : Invoice) :
    (Row.apply db (.invoice r)).paymentByKey? c key = db.paymentByKey? c key := rfl

@[simp] theorem invoice?_payment (r : Payment) :
    (Row.apply db (.payment r)).invoice? c id = db.invoice? c id := rfl

theorem payment?_payment (r : Payment) :
    (Row.apply db (.payment r)).payment? c id =
      if id = r.id then (if r.companyId = c then some r else none) else db.payment? c id := by
  have := Table.find?_put db.payments r id
  simp only [key_payment] at this
  simp only [payment?, Row.apply, this]
  split <;> simp [Option.filter]

theorem invoice?_invoice (r : Invoice) :
    (Row.apply db (.invoice r)).invoice? c id =
      if id = r.id then (if r.companyId = c then some r else none) else db.invoice? c id := by
  have := Table.find?_put db.invoices r id
  simp only [key_invoice] at this
  simp only [invoice?, Row.apply, this]
  split <;> simp [Option.filter]

variable {db c id}

theorem payment?_some {p : Payment} :
    db.payment? c id = some p ↔ db.payments.find? id = some p ∧ p.companyId = c := by
  simp [payment?, Option.filter_eq_some_iff]

theorem invoice?_some {i : Invoice} :
    db.invoice? c id = some i ↔ db.invoices.find? id = some i ∧ i.companyId = c := by
  simp [invoice?, Option.filter_eq_some_iff]

theorem payment?_id {p : Payment} (h : db.payment? c id = some p) : p.id = id :=
  Table.find?_key (payment?_some.1 h).1

theorem invoice?_id {i : Invoice} (h : db.invoice? c id = some i) : i.id = id :=
  Table.find?_key (invoice?_some.1 h).1

end Db

/-! ## The rows a call can commit -/

/-- `p'` is `p` at a later time. -/
structure Payment.Same (p p' : Payment) : Prop where
  id : p'.id = p.id
  companyId : p'.companyId = p.companyId
  invoiceId : p'.invoiceId = p.invoiceId
  tenantId : p'.tenantId = p.tenantId
  amount : p'.amount = p.amount
  idempotencyKey : p'.idempotencyKey = p.idempotencyKey

theorem Payment.Same.refl (p : Payment) : p.Same p := ⟨rfl, rfl, rfl, rfl, rfl, rfl⟩

theorem Payment.Same.trans {p q r : Payment} (h : p.Same q) (h' : q.Same r) : p.Same r where
  id := h'.id.trans h.id
  companyId := h'.companyId.trans h.companyId
  invoiceId := h'.invoiceId.trans h.invoiceId
  tenantId := h'.tenantId.trans h.tenantId
  amount := h'.amount.trans h.amount
  idempotencyKey := h'.idempotencyKey.trans h.idempotencyKey

theorem PaymentPatch.same (d : PaymentPatch) (p : Payment) : p.Same (d.apply p) :=
  ⟨rfl, rfl, rfl, rfl, rfl, rfl⟩

/-- `i'` is `i` at a later time; it is not a draft again. -/
structure Invoice.Same (i i' : Invoice) : Prop where
  id : i'.id = i.id
  companyId : i'.companyId = i.companyId
  tenantId : i'.tenantId = i.tenantId
  total : i'.total = i.total
  draft : i'.status = .draft → i.status = .draft

theorem Invoice.Same.refl (i : Invoice) : i.Same i := ⟨rfl, rfl, rfl, rfl, fun h => h⟩

theorem Invoice.Same.trans {i j k : Invoice} (h : i.Same j) (h' : j.Same k) : i.Same k where
  id := h'.id.trans h.id
  companyId := h'.companyId.trans h.companyId
  tenantId := h'.tenantId.trans h.tenantId
  total := h'.total.trans h.total
  draft := fun d => h.draft (h'.draft d)

theorem InvoicePatch.same {d : InvoicePatch} (h : d.status ≠ .draft) (i : Invoice) :
    i.Same (d.apply i) := ⟨rfl, rfl, rfl, rfl, fun e => absurd e h⟩

/-- A row that a call of company `c` can write on `db`. -/
inductive Writes (c : Id) (db : Db) : Row → Prop
  | insert (p : Payment) (i : Invoice) (company : p.companyId = c)
      (fresh : db.payments.find? p.id = none)
      (unused : db.paymentByKey? c p.idempotencyKey = none)
      (invoice : db.invoice? c p.invoiceId = some i)
      (billable : i.status ≠ .draft ∧ i.status ≠ .void) : Writes c db (.payment p)
  | decide (p : Payment) (patch : PaymentPatch) (found : db.payment? c p.id = some p)
      (pending : p.status = .pending) : Writes c db (.payment (patch.apply p))
  | move (i : Invoice) (patch : InvoicePatch) (found : db.invoice? c i.id = some i)
      (alive : i.status ≠ .void) (forward : patch.status ≠ .draft) :
      Writes c db (.invoice (patch.apply i))

/-- Rows written one after another. -/
def WritesAll (c : Id) : Db → List Row → Prop
  | _, [] => True
  | db, r :: rs => Writes c db r ∧ WritesAll c (Row.apply db r) rs

namespace PaymentService

theorem nextStatus_some {total : Numeric 10 2} {ps : List Payment} {next : InvoiceStatus}
    (h : nextStatus total ps = some next) : next = .paid ∨ next = .partially_paid := by
  unfold nextStatus at h
  simp only at h
  split at h
  · left; simpa using h.symm
  · split at h
    · right; simpa using h.symm
    · cases h

theorem refusal_none {i : Invoice} {input : CreatePaymentInput} (h : refusal i input = none) :
    i.status ≠ .draft ∧ i.status ≠ .void ∧ 0 < input.amount.units := by
  unfold refusal at h
  split at h
  · cases h
  split at h
  · cases h
  split at h
  · cases h
  · exact ⟨‹_›, ‹_›, by omega⟩

/-- The rollup writes at most the invoice. -/
theorem rollupRows_cases (c : Id) (db : Db) (invoiceId : Id) :
    rollupRows c db invoiceId = [] ∨
      ∃ i next, db.invoice? c invoiceId = some i ∧ i.status ≠ .void ∧
        (next = .paid ∨ next = .partially_paid) ∧
        rollupRows c db invoiceId = [.invoice (InvoicePatch.apply { status := next } i)] := by
  unfold rollupRows
  cases found : db.invoice? c invoiceId with
  | none => exact .inl rfl
  | some i =>
    simp only
    split
    · exact .inl rfl
    split
    · exact .inl rfl
    split
    · exact .inl rfl
    · rename_i alive _ next calls _
      exact .inr ⟨i, next, rfl, alive, nextStatus_some calls, rfl⟩

theorem writes_rollup (c : Id) (db : Db) (invoiceId : Id) :
    WritesAll c db (rollupRows c db invoiceId) := by
  rcases rollupRows_cases c db invoiceId with rows | ⟨i, next, found, alive, up, rows⟩
  · rw [rows]
    trivial
  · have forward : next ≠ .draft := by rcases up with rfl | rfl <;> decide
    rw [rows]
    exact ⟨.move i _ (Db.invoice?_id found ▸ found) alive forward, trivial⟩

theorem decidedRow_some {c : Id} {db : Db} {id : Id} {patch : PaymentPatch} {p' : Payment}
    (h : decidedRow c db id patch = some p') :
    ∃ p, db.payment? c id = some p ∧ p.status = .pending ∧
      (∀ u ∈ patch.confirmedByUserId, (db.users.find? u).isSome) ∧ p' = patch.apply p := by
  unfold decidedRow at h
  cases found : db.payment? c id with
  | none => simp [found] at h
  | some p =>
    simp only [found, Option.ite_none_right_eq_some, Option.some.injEq] at h
    exact ⟨p, rfl, h.1.1, h.1.2, h.2.symm⟩

theorem writes_decided {c : Id} {db : Db} {id : Id} {patch : PaymentPatch} {p' : Payment}
    (h : decidedRow c db id patch = some p') : Writes c db (.payment p') := by
  obtain ⟨p, found, pending, -, rfl⟩ := decidedRow_some h
  exact .decide p patch (Db.payment?_id found ▸ found) pending

/-- `create` writes at most one payment, on an invoice that can be paid. -/
theorem createdRows_cases (c : Id) (db : Db) (newId : Id) (input : CreatePaymentInput)
    (key : String) :
    createdRows c db newId input key = [] ∨
      ∃ p i, createdRows c db newId input key = [.payment p] ∧ p.companyId = c ∧
        db.payments.find? p.id = none ∧ db.paymentByKey? c p.idempotencyKey = none ∧
        db.invoice? c p.invoiceId = some i ∧ i.status ≠ .draft ∧ i.status ≠ .void := by
  unfold createdRows
  cases found : db.invoice? c input.invoiceId with
  | none => exact .inl rfl
  | some i =>
    simp only
    split
    · rename_i h
      obtain ⟨allowed, unused, fresh⟩ := h
      obtain ⟨draft, void, -⟩ := refusal_none allowed
      have id := Db.invoice?_id found
      exact .inr ⟨_, i, rfl, rfl, fresh, unused, by rw [← found, ← id]; rfl, draft, void⟩
    · exact .inl rfl

theorem writes_created (c : Id) (db : Db) (newId : Id) (input : CreatePaymentInput) (key : String) :
    WritesAll c db (createdRows c db newId input key) := by
  rcases createdRows_cases c db newId input key with
    rows | ⟨p, i, rows, company, fresh, unused, found, billable⟩
  · rw [rows]
    trivial
  · rw [rows]
    exact ⟨.insert p i company fresh unused found billable, trivial⟩

end PaymentService

theorem InvoiceService.issuePatch_issued {now : Instant} {company : Option Company}
    {total : Numeric 10 2} {patch : InvoicePatch} (h : issuePatch now company total = some patch) :
    patch.status = .issued := by
  simp only [issuePatch, Option.bind_eq_bind, Option.bind_eq_some_iff] at h
  obtain ⟨_, _, _, _, h⟩ := h
  split at h
  · cases h
  · split at h
    · cases h; rfl
    · cases h

namespace BillingCall

theorem writes (c : Id) (db : Db) (call : BillingCall) : WritesAll c db (call.rows c db) := by
  cases call with
  | create newId input key => exact PaymentService.writes_created c db newId input key
  | createForTenant newId input key tenantId =>
    simp only [rows, PaymentService.tenantCreatedRows]
    split
    · exact PaymentService.writes_created c db newId input key
    · trivial
  | confirm now id user =>
    simp only [rows, PaymentService.confirmRows]
    split
    · rename_i p decided
      exact ⟨PaymentService.writes_decided decided, PaymentService.writes_rollup c _ p.invoiceId⟩
    · trivial
  | reject id reason =>
    simp only [rows, PaymentService.rejectRows]
    split
    · rename_i p decided
      exact ⟨PaymentService.writes_decided decided, trivial⟩
    · trivial
  | issue now id =>
    simp only [rows, InvoiceService.issueRows]
    cases found : db.invoice? c id with
    | none => trivial
    | some i =>
      simp only
      split
      · rename_i draft
        split
        · rename_i patch configured
          have issued := InvoiceService.issuePatch_issued configured
          exact ⟨.move i patch (Db.invoice?_id found ▸ found) (by rw [draft]; decide)
            (by rw [issued]; decide), trivial⟩
        · trivial
      · trivial
  | void id =>
    simp only [rows, InvoiceService.voidRows]
    cases found : db.invoice? c id with
    | none => trivial
    | some i =>
      simp only
      split
      · trivial
      · rename_i h
        exact ⟨.move i _ (Db.invoice?_id found ▸ found) (fun e => h (.inl e)) (by decide), trivial⟩

end BillingCall

/-! ## Growth -/

/-- Everything company `c` has in `db` is still in `db'`. -/
structure Grows (c : Id) (db db' : Db) : Prop where
  invoice : ∀ id i, db.invoice? c id = some i → ∃ i', db'.invoice? c id = some i' ∧ i.Same i'
  payment : ∀ id p, db.payment? c id = some p → ∃ p', db'.payment? c id = some p' ∧ p.Same p'
  key : ∀ key p, db.paymentByKey? c key = some p → ∃ p', db'.paymentByKey? c key = some p' ∧
    p.Same p'

theorem Grows.refl (c : Id) (db : Db) : Grows c db db where
  invoice _ i h := ⟨i, h, .refl i⟩
  payment _ p h := ⟨p, h, .refl p⟩
  key _ p h := ⟨p, h, .refl p⟩

theorem Grows.trans {c : Id} {db db' db'' : Db} (h : Grows c db db') (h' : Grows c db' db'') :
    Grows c db db'' where
  invoice id i found := by
    obtain ⟨i', found', same⟩ := h.invoice id i found
    obtain ⟨i'', found'', same'⟩ := h'.invoice id i' found'
    exact ⟨i'', found'', same.trans same'⟩
  payment id p found := by
    obtain ⟨p', found', same⟩ := h.payment id p found
    obtain ⟨p'', found'', same'⟩ := h'.payment id p' found'
    exact ⟨p'', found'', same.trans same'⟩
  key key p found := by
    obtain ⟨p', found', same⟩ := h.key key p found
    obtain ⟨p'', found'', same'⟩ := h'.key key p' found'
    exact ⟨p'', found'', same.trans same'⟩

/-- A write of any company leaves what `c` has. -/
theorem Writes.grows {c c' : Id} {db : Db} {r : Row} (h : Writes c' db r) :
    Grows c db (Row.apply db r) := by
  cases h with
  | insert p i company fresh unused invoice billable =>
    have old : ∀ id q, db.payment? c id = some q → id ≠ p.id := by
      rintro id q found rfl
      rw [(Db.payment?_some.1 found).1] at fresh
      cases fresh
    refine ⟨fun _ i h => ⟨i, h, .refl i⟩, fun id q found => ⟨q, ?_, .refl q⟩,
      fun key q found => ⟨q, ?_, .refl q⟩⟩
    · rw [Db.payment?_payment, if_neg (old id q found), found]
    · have rows := Table.rows_put_new db.payments (r := p) fresh
      unfold Db.paymentByKey? at found ⊢
      simp only [Row.apply, rows, List.find?_append, found]
      rfl
  | decide p patch found pending =>
    have stored : db.payments.find? (Keyed.key (patch.apply p)) = some p :=
      (Db.payment?_some.1 found).1
    refine ⟨fun _ i h => ⟨i, h, .refl i⟩, fun id q hq => ?_, fun key q hq => ?_⟩
    · by_cases hid : id = p.id
      · subst hid
        obtain ⟨hq, company⟩ := Db.payment?_some.1 hq
        have : q = p := Option.some.inj (hq.symm.trans stored)
        subst this
        exact ⟨patch.apply q, by simp [Db.payment?_payment, company], patch.same q⟩
      · exact ⟨q, by simp [Db.payment?_payment, hid, hq], .refl q⟩
    · have rows := Table.find?_rows_put db.payments stored
        (fun x => x.companyId = c ∧ x.idempotencyKey = key) rfl
      unfold Db.paymentByKey? at hq ⊢
      simp only [Row.apply, rows, hq, Option.map_some]
      split
      · rename_i hk
        have : q = p := db.payments.key_inj (List.mem_of_find?_eq_some hq) (Table.find?_mem stored)
          hk
        exact ⟨_, rfl, this ▸ patch.same p⟩
      · exact ⟨q, rfl, .refl q⟩
  | move i patch found alive forward =>
    refine ⟨fun id j hj => ?_, fun _ p h => ⟨p, h, .refl p⟩, fun _ p h => ⟨p, h, .refl p⟩⟩
    by_cases hid : id = i.id
    · subst hid
      obtain ⟨hj, company⟩ := Db.invoice?_some.1 hj
      have : j = i := Option.some.inj (hj.symm.trans (Db.invoice?_some.1 found).1)
      subst this
      exact ⟨patch.apply j, by simp [Db.invoice?_invoice, company], InvoicePatch.same forward j⟩
    · exact ⟨j, by simp [Db.invoice?_invoice, hid, hj], .refl j⟩

theorem WritesAll.grows {c c' : Id} {db : Db} {rs : List Row} (h : WritesAll c' db rs) :
    Grows c db (rs.foldl Row.apply db) := by
  induction rs generalizing db with
  | nil => exact .refl c db
  | cons r rs ih => exact h.1.grows.trans (ih h.2)

theorem Request.grows (S : Server) (c : Id) (db : Db) (r : Request) :
    Grows c db (r.commit S db) := by
  rw [Request.commit, r.call.commit_eq]
  exact (r.call.writes r.ctx.companyId db).grows

/-- **No history undoes a payment or an invoice.** -/
theorem history_grows (S : Server) (c : Id) (rs : List Request) (db : Db) :
    Grows c db (history S db rs) := by
  induction rs generalizing db with
  | nil => exact .refl c db
  | cons r rs ih => exact (r.grows S c db).trans (ih _)

theorem meanwhile_grows (S : Server) (c : Id) (db : Db) (others : Nat → List Request) (n k : Nat) :
    Grows c (meanwhile S db others n) (meanwhile S db others (n + k)) := by
  induction k with
  | zero => exact .refl c _
  | succ k ih => exact ih.trans (history_grows S c (others (n + k)) _)

end Dormitory
