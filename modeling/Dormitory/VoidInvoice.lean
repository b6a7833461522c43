import Dormitory.Growth

/-!
# Payments on void invoices

`void` leaves the pending payments of its invoice pending, and `confirm` looks
at the payment only; the rollup then skips a void invoice. So a payment that is
pending when its invoice is voided can still be confirmed, unless it is
rejected first.
-/

namespace Dormitory
open Txn

open PaymentService

namespace Db

theorem find?_payment (db : Db) (r : Payment) (id : Id) :
    (Row.apply db (.payment r)).payments.find? id = if id =
    r.id then some r else db.payments.find? id :=
  Table.find?_put db.payments r id

theorem invoice?_move {db : Db} {c id : Id} {i : Invoice} (found : db.invoice? c id = some i)
    (patch : InvoicePatch) (c' id' : Id) :
    (Row.apply db (.invoice (patch.apply i))).invoice? c' id' =
      if c' = c ∧ id' = id then some (patch.apply i) else db.invoice? c' id' := by
  obtain ⟨stored, company⟩ := invoice?_some.1 found
  have hid : i.id = id := invoice?_id found
  rw [invoice?_invoice]
  simp only [InvoicePatch.apply_id, InvoicePatch.apply_companyId, hid, company]
  by_cases same : id' = id
  · subst same
    by_cases own : c' = c
    · simp [own]
    · have foreign : db.invoice? c' id' = none := by
        simp [invoice?, stored, Option.filter, company, Ne.symm own]
      simp [own, Ne.symm own, foreign]
  · simp [same]

theorem find?_decided {db : Db} {id : Id} {p : Payment} (found : db.payments.find? id = some p)
    (patch : PaymentPatch) (id' : Id) :
    (Row.apply db (.payment (patch.apply p))).payments.find? id' =
      if id' = id then some (patch.apply p) else db.payments.find? id' := by
  have hid : p.id = id := Table.find?_key found
  rw [find?_payment, PaymentPatch.apply_id, hid]

end Db

/-! ## What a request does to one payment and to one invoice -/

namespace Request

/-- The request confirms a payment of the company, for a user that exists. -/
def Confirms (db : Db) (r : Request) (c id : Id) : Prop :=
  r.ctx.companyId = c ∧ ∃ now user, r.call = .confirm now id user ∧ (db.users.find? user).isSome

def Rejects (r : Request) (c id : Id) : Prop :=
  r.ctx.companyId = c ∧ ∃ reason, r.call = .reject id reason

def Voids (r : Request) (c id : Id) : Prop := r.ctx.companyId = c ∧ r.call = .void id

variable (S : Server) (db : Db) (r : Request)

theorem commit_rows : r.commit S db = (r.call.rows r.ctx.companyId db).foldl Row.apply db :=
  r.call.commit_eq S r.queueUp r.ctx db

theorem confirm_rows {now : Instant} {id user : Id} (h : r.call = .confirm now id user) :
    r.commit S db = (confirmRows r.ctx.companyId db now id user).foldl Row.apply db := by
  rw [commit_rows, h]
  rfl

theorem reject_rows {id : Id} {reason : String} (h : r.call = .reject id reason) :
    r.commit S db = (rejectRows r.ctx.companyId db id reason).foldl Row.apply db := by
  rw [commit_rows, h]
  rfl

theorem rollup_payments (db : Db) (c invoiceId : Id) :
    ((rollupRows c db invoiceId).foldl Row.apply db).payments = db.payments := by
  rcases rollupRows_cases c db invoiceId with h | ⟨i, next, -, -, -, h⟩ <;> rw [h] <;> rfl

theorem decidedRow_pending {c id : Id} {db : Db} {patch : PaymentPatch} {p : Payment}
    (found : db.payments.find? id = some p) (company : p.companyId = c)
    (pending : p.status = .pending)
    (known : ∀ u ∈ patch.confirmedByUserId, (db.users.find? u).isSome) :
    decidedRow c db id patch = some (patch.apply p) := by
  have visible : db.payment? c id = some p := Db.payment?_some.2 ⟨found, company⟩
  simp only [decidedRow, visible, pending, true_and]
  exact if_pos known

/-- A rejection of a pending payment goes through. -/
theorem rejects_after {id : Id} {p : Payment} (found : db.payments.find? id = some p)
    (pending : p.status = .pending) (h : r.Rejects p.companyId id) :
    ∃ p', (r.commit S db).payments.find? id = some p' ∧ p'.status = .rejected := by
  obtain ⟨company, reason, call⟩ := h
  have row : decidedRow r.ctx.companyId db id (rejectPatch reason) =
    some ((rejectPatch reason).apply p) :=
    decidedRow_pending found company.symm pending (fun u hu => by cases hu)
  refine ⟨(rejectPatch reason).apply p, ?_, rfl⟩
  rw [reject_rows S db r call, rejectRows, row]
  simp [Db.find?_decided found]

/-- So does a confirmation, when the user exists. -/
theorem confirms_after {id : Id} {p : Payment} (found : db.payments.find? id = some p)
    (pending : p.status = .pending) (h : r.Confirms db p.companyId id) :
    ∃ p', (r.commit S db).payments.find? id = some p' ∧ p'.status = .confirmed := by
  obtain ⟨company, now, user, call, known⟩ := h
  have row : decidedRow r.ctx.companyId db id (confirmPatch now user) =
      some ((confirmPatch now user).apply p) :=
    decidedRow_pending found company.symm pending (fun u hu => by cases hu; exact known)
  refine ⟨(confirmPatch now user).apply p, ?_, rfl⟩
  rw [confirm_rows S db r call, confirmRows, row]
  simp [rollup_payments, Db.find?_decided found]

/-- A new payment is for an invoice that is not void. -/
theorem created_payment (c newId : Id) (input : CreatePaymentInput) (key : String) (id : Id) :
    ((createdRows c db newId input key).foldl Row.apply db).payments.find? id =
      db.payments.find? id ∨
    db.payments.find? id = none ∧ ∃ p i,
      ((createdRows c db newId input key).foldl Row.apply db).payments.find? id = some p ∧
      ((createdRows c db newId input key).foldl Row.apply db).invoice? p.companyId p.invoiceId =
        some i ∧ i.status ≠ .void := by
  rcases createdRows_cases c db newId input key with
    rows | ⟨p, i, rows, company, fresh, -, found, -, alive⟩
  · left
    rw [rows]
    rfl
  · rw [rows]
    by_cases same : id = p.id
    · right
      subst same
      refine ⟨fresh, p, i, by simp [Db.find?_payment], ?_, alive⟩
      rw [company]
      exact found
    · left
      simp [Db.find?_payment, same]

theorem created_invoice? (c newId : Id) (input : CreatePaymentInput) (key : String)
    (company id : Id) :
    ((createdRows c db newId input key).foldl Row.apply db).invoice? company id =
      db.invoice? company id := by
  rcases createdRows_cases c db newId input key with rows | ⟨p, i, rows, -⟩ <;> rw [rows] <;> rfl

/-- What becomes of one payment. -/
theorem payment_after (id : Id) :
    (r.commit S db).payments.find? id = db.payments.find? id ∨
    (db.payments.find? id = none ∧ ∃ p i, (r.commit S db).payments.find? id = some p ∧
      (r.commit S db).invoice? p.companyId p.invoiceId = some i ∧ i.status ≠ .void) ∨
    ∃ p, db.payments.find? id = some p ∧ p.status = .pending ∧
      (r.Rejects p.companyId id ∨ r.Confirms db p.companyId id) := by
  have commits := commit_rows S db r
  cases call : r.call with
  | create newId input key =>
    rw [commits, call]
    rcases created_payment db r.ctx.companyId newId input key id with h | h
    · exact .inl h
    · exact .inr (.inl h)
  | createForTenant newId input key tenantId =>
    rw [commits, call]
    simp only [BillingCall.rows, tenantCreatedRows]
    split
    · rcases created_payment db r.ctx.companyId newId input key id with h | h
      · exact .inl h
      · exact .inr (.inl h)
    · exact .inl rfl
  | confirm now id' user =>
    rw [confirm_rows S db r call, confirmRows]
    cases row : decidedRow r.ctx.companyId db id' (confirmPatch now user) with
    | none => left; rfl
    | some p' =>
      obtain ⟨p, visible, pending, known, rfl⟩ := decidedRow_some row
      obtain ⟨found, company⟩ := Db.payment?_some.1 visible
      by_cases same : id = id'
      · subst same
        exact .inr (.inr ⟨p, found, pending, .inr ⟨company.symm, now, user, call, known user rfl⟩⟩)
      · left
        simp [rollup_payments, Db.find?_decided found, same]
  | reject id' reason =>
    rw [reject_rows S db r call, rejectRows]
    cases row : decidedRow r.ctx.companyId db id' (rejectPatch reason) with
    | none => left; rfl
    | some p' =>
      obtain ⟨p, visible, pending, -, rfl⟩ := decidedRow_some row
      obtain ⟨found, company⟩ := Db.payment?_some.1 visible
      by_cases same : id = id'
      · subst same
        exact .inr (.inr ⟨p, found, pending, .inl ⟨company.symm, reason, call⟩⟩)
      · left
        simp [Db.find?_decided found, same]
  | issue now id' =>
    left
    rw [commits, call]
    simp only [BillingCall.rows, InvoiceService.issueRows]
    repeat' split
    all_goals rfl
  | void id' =>
    left
    rw [commits, call]
    simp only [BillingCall.rows, InvoiceService.voidRows]
    repeat' split
    all_goals rfl

/-- One invoice row that the request writes. -/
theorem invoice_moved {r : Request} {db : Db} {id' : Id} {i : Invoice} {patch : InvoicePatch}
    (found : db.invoice? r.ctx.companyId id' = some i) (alive : i.status ≠ .void)
    (voids : patch.status = .void → r.call = .void id' ∧ i.status ≠ .paid) (c id : Id) :
    (Row.apply db (.invoice (patch.apply i))).invoice? c id = db.invoice? c id ∨
    ∃ i₀ i', db.invoice? c id = some i₀ ∧ i₀.status ≠ .void ∧
      (Row.apply db (.invoice (patch.apply i))).invoice? c id = some i' ∧
      (i'.status = .void → r.Voids c id ∧ i₀.status ≠ .paid) := by
  rw [Db.invoice?_move found]
  by_cases same : c = r.ctx.companyId ∧ id = id'
  · obtain ⟨rfl, rfl⟩ := same
    right
    refine ⟨i, patch.apply i, found, alive, by simp, fun gone => ?_⟩
    obtain ⟨call, unpaid⟩ := voids gone
    exact ⟨⟨rfl, call⟩, unpaid⟩
  · left
    simp [same]

/-- What becomes of one invoice. -/
theorem invoice_after (c id : Id) :
    (r.commit S db).invoice? c id = db.invoice? c id ∨
    ∃ i i', db.invoice? c id = some i ∧ i.status ≠ .void ∧ (r.commit S db).invoice? c id = some i' ∧
      (i'.status = .void → r.Voids c id ∧ i.status ≠ .paid) := by
  have commits := commit_rows S db r
  cases call : r.call with
  | create newId input key =>
    left
    rw [commits, call]
    exact created_invoice? db r.ctx.companyId newId input key c id
  | createForTenant newId input key tenantId =>
    left
    rw [commits, call]
    simp only [BillingCall.rows, tenantCreatedRows]
    split
    · exact created_invoice? db r.ctx.companyId newId input key c id
    · rfl
  | confirm now id' user =>
    rw [confirm_rows S db r call, confirmRows]
    cases decidedRow r.ctx.companyId db id' (confirmPatch now user) with
    | none => exact .inl rfl
    | some p' =>
      simp only [List.foldl_cons]
      rcases rollupRows_cases r.ctx.companyId (Row.apply db (.payment p')) p'.invoiceId with
        rows | ⟨i, next, found, alive, up, rows⟩
      · rw [rows]; exact .inl rfl
      · rw [rows]
        have kept : next ≠ .void := by rcases up with rfl | rfl <;> decide
        exact invoice_moved found alive (fun gone => absurd gone kept) c id
  | reject id' reason =>
    left
    rw [reject_rows S db r call, rejectRows]
    split <;> rfl
  | issue now id' =>
    rw [commits, call]
    simp only [BillingCall.rows, InvoiceService.issueRows]
    cases found : db.invoice? r.ctx.companyId id' with
    | none => exact .inl rfl
    | some i =>
      simp only
      split
      · rename_i draft
        split
        · rename_i patch configured
          have issued := InvoiceService.issuePatch_issued configured
          refine invoice_moved found (by rw [draft]; decide) (fun gone => ?_) c id
          rw [issued] at gone
          cases gone
        · exact .inl rfl
      · exact .inl rfl
  | void id' =>
    rw [commits, call]
    simp only [BillingCall.rows, InvoiceService.voidRows]
    cases found : db.invoice? r.ctx.companyId id' with
    | none => exact .inl rfl
    | some i =>
      simp only
      split
      · exact .inl rfl
      · rename_i open'
        rw [not_or] at open'
        exact invoice_moved found open'.1 (fun _ => ⟨call, open'.2⟩) c id

/-- A `void` of an invoice that is not paid goes through. -/
theorem voids_after {c id : Id} {i : Invoice} (found : db.invoice? c id = some i)
    (unpaid : i.status ≠ .paid) (h : r.Voids c id) :
    ∃ i', (r.commit S db).invoice? c id = some i' ∧ i'.status = .void := by
  obtain ⟨rfl, call⟩ := h
  have commits := commit_rows S db r
  rw [call] at commits
  simp only [BillingCall.rows, InvoiceService.voidRows, found] at commits
  by_cases gone : i.status = .void
  · refine ⟨i, ?_, gone⟩
    rw [commits, if_pos (.inl gone)]
    exact found
  · refine ⟨InvoicePatch.apply { status := .void } i, ?_, rfl⟩
    rw [commits, if_neg (by simp [gone, unpaid])]
    simp [Db.invoice?_move found]

end Request

theorem history_users (S : Server) (rs : List Request) (db : Db) :
    (history S db rs).users = db.users := by
  induction rs generalizing db with
  | nil => rfl
  | cons r rs ih =>
    rw [history, ih, Request.commit_rows]
    have kept : ∀ (rows : List Row) (db : Db), (rows.foldl Row.apply db).users = db.users := by
      intro rows
      induction rows with
      | nil => intro db; rfl
      | cons row rows ih => intro db; rw [List.foldl_cons, ih]; cases row <;> rfl
    exact kept _ db

/-! ## Confirming against a void invoice -/

/-- The payment waits for a decision although its invoice is void. -/
def Stranded (db : Db) (c id : Id) : Prop :=
  ∃ p i, db.payments.find? id = some p ∧ p.companyId = c ∧ p.status = .pending ∧
    db.invoice? c p.invoiceId = some i ∧ i.status = .void

/-- The request moves a payment from pending to confirmed while its invoice is
void. -/
def ConfirmsAgainstVoid (S : Server) (db : Db) (r : Request) : Prop :=
  ∃ c id p', Stranded db c id ∧ (∃ now user, r.ctx.companyId = c ∧ r.call = .confirm now id user) ∧
    (r.commit S db).payments.find? id = some p' ∧ p'.status = .confirmed

/-- The request is a `void` that goes through while the payment is pending on
its invoice. -/
def VoidsUnder (db : Db) (r : Request) (c id : Id) : Prop :=
  ∃ p i, db.payments.find? id = some p ∧ p.companyId = c ∧ p.status = .pending ∧
    db.invoice? c p.invoiceId = some i ∧ i.status ≠ .paid ∧ r.Voids c p.invoiceId

theorem VoidsUnder.strands {S : Server} {db : Db} {r : Request} {c id : Id}
    (h : VoidsUnder db r c id) :
    Stranded (r.commit S db) c id := by
  obtain ⟨p, i, found, company, pending, invoice, unpaid, voids⟩ := h
  obtain ⟨i', invoice', gone⟩ := Request.voids_after S db r invoice unpaid voids
  refine ⟨p, i', ?_, company, pending, invoice', gone⟩
  rcases Request.payment_after S db r id with same | ⟨fresh, -⟩ | ⟨q, -, -, rejects | confirms⟩
  · rw [same, found]
  · rw [found] at fresh
    cases fresh
  · obtain ⟨-, reason, call⟩ := rejects
    rw [voids.2] at call
    cases call
  · obtain ⟨-, now, user, call, -⟩ := confirms
    rw [voids.2] at call
    cases call

/-- A stranded payment stays so until it is decided. -/
theorem Stranded.stays {S : Server} {db : Db} {r : Request} {c id : Id} (h : Stranded db c id)
    (undecided : ¬ r.Rejects c id) (unconfirmed : ¬ r.Confirms db c id) :
    Stranded (r.commit S db) c id := by
  obtain ⟨p, i, found, company, pending, invoice, gone⟩ := h
  have invoice' : (r.commit S db).invoice? c p.invoiceId = some i := by
    rcases Request.invoice_after S db r c p.invoiceId with same | ⟨j, -, found', alive, -⟩
    · rw [same, invoice]
    · rw [invoice] at found'
      cases found'
      exact absurd gone alive
  refine ⟨p, i, ?_, company, pending, invoice', gone⟩
  rcases Request.payment_after S db r id with same | ⟨fresh, -⟩ | ⟨q, found', -, decided⟩
  · rw [same, found]
  · rw [found] at fresh
    cases fresh
  · rw [found] at found'
    cases found'
    rw [company] at decided
    rcases decided with rejects | confirms
    · exact absurd rejects undecided
    · exact absurd confirms unconfirmed

/-- A payment becomes stranded by a `void` only. -/
theorem Stranded.before {S : Server} {db : Db} {r : Request} {c id : Id}
    (h : Stranded (r.commit S db) c id) :
    (Stranded db c id ∧ ¬ r.Rejects c id) ∨ VoidsUnder db r c id := by
  obtain ⟨p, i, found, company, pending, invoice, gone⟩ := h
  rcases Request.payment_after S db r id with same | ⟨-, q, j, found', invoice', alive⟩ |
    ⟨q, found', open', decided⟩
  · rw [same] at found
    rcases Request.invoice_after S db r c p.invoiceId with same' |
      ⟨j, j', invoice', -, after, voids⟩
    · rw [same'] at invoice
      refine .inl ⟨⟨p, i, found, company, pending, invoice, gone⟩, fun rejects => ?_⟩
      subst company
      obtain ⟨p', after, rejected⟩ := Request.rejects_after S db r found pending rejects
      rw [same, found] at after
      cases after
      rw [pending] at rejected
      cases rejected
    · rw [invoice] at after
      cases after
      obtain ⟨hvoids, unpaid⟩ := voids gone
      exact .inr ⟨p, j, found, company, pending, invoice', unpaid, hvoids⟩
  · rw [found] at found'
    cases found'
    rw [company, invoice] at invoice'
    cases invoice'
    exact absurd gone alive
  · exfalso
    rcases decided with rejects | confirms
    · obtain ⟨p', after, rejected⟩ := Request.rejects_after S db r found' open' rejects
      rw [found] at after
      cases after
      rw [pending] at rejected
      cases rejected
    · obtain ⟨p', after, confirmed⟩ := Request.confirms_after S db r found' open' confirms
      rw [found] at after
      cases after
      rw [pending] at confirmed
      cases confirmed

/-- Wherever a payment is stranded, a `void` stranded it and no rejection of it
has been served since. -/
theorem stranded_origin (S : Server) (db : Db) (clean : ∀ c id, ¬ Stranded db c id) (c id : Id)
    (rs : List Request) : Stranded (history S db rs) c id →
      ∃ before v between, rs = before ++ v :: between ∧ VoidsUnder (history S db before) v c id ∧
        ∀ x ∈ between, ¬ x.Rejects c id := by
  induction rs using List.reverseRecOn with
  | nil => intro h; exact absurd h (clean c id)
  | append_singleton rs r ih =>
    intro h
    rw [history_append] at h
    rcases h.before with ⟨earlier, kept⟩ | voids
    · obtain ⟨before, v, between, rfl, voids, unrejected⟩ := ih earlier
      refine ⟨before, v, between ++ [r], by simp, voids, ?_⟩
      intro x hx
      rcases List.mem_append.1 hx with hx | hx
      · exact unrejected x hx
      · rw [List.mem_singleton.1 hx]
        exact kept
    · exact ⟨rs, r, [], rfl, voids, fun x hx => by cases hx⟩

/-- From a stranded payment on, with no rejection of it, the first confirmation
by an existing user is one against a void invoice. -/
theorem stranded_confirmed (S : Server) {c id : Id} {r : Request} :
    ∀ (between : List Request) (db : Db), Stranded db c id → (∀ x ∈ between, ¬ x.Rejects c id) →
      r.Confirms (history S db between) c id →
      ∃ before x after, between ++ [r] = before ++ x :: after ∧
        ConfirmsAgainstVoid S (history S db before) x := by
  intro between
  induction between with
  | nil =>
    intro db h _ confirms
    refine ⟨[], r, [], rfl, c, id, ?_⟩
    obtain ⟨p, i, found, company, pending, invoice, gone⟩ := h
    obtain ⟨p', after, confirmed⟩ := Request.confirms_after S db r found pending
      (company ▸ confirms)
    obtain ⟨own, now, user, call, -⟩ := confirms
    exact ⟨p', ⟨p, i, found, company, pending, invoice, gone⟩, ⟨now, user, own, call⟩, after,
      confirmed⟩
  | cons x between ih =>
    intro db h unrejected confirms
    by_cases now : x.Confirms db c id
    · refine ⟨[], x, between ++ [r], rfl, c, id, ?_⟩
      obtain ⟨p, i, found, company, pending, invoice, gone⟩ := h
      obtain ⟨p', after, confirmed⟩ := Request.confirms_after S db x found pending (company ▸ now)
      obtain ⟨own, now, user, call, -⟩ := now
      exact ⟨p', ⟨p, i, found, company, pending, invoice, gone⟩, ⟨now, user, own, call⟩, after,
        confirmed⟩
    · have still : Stranded (x.commit S db) c id := h.stays (unrejected x (by simp)) now
      obtain ⟨before, y, after, split, bad⟩ :=
        ih (x.commit S db) still (fun y hy => unrejected y (by simp [hy])) confirms
      exact ⟨x :: before, y, after, by rw [List.cons_append, split]; rfl, bad⟩

/-- **No confirmation against a void invoice**, exactly when between a `void`
that found a payment pending and a confirmation of that payment there is always
a rejection of it. -/
theorem no_confirm_against_void (S : Server) (db : Db) (clean : ∀ c id, ¬ Stranded db c id)
    (rs : List Request) :
    (∀ before r after, rs = before ++ r :: after → ¬ ConfirmsAgainstVoid S (history S db before)
      r) ↔
    (∀ before v between r after c id, rs = before ++ v :: (between ++ r :: after) →
      VoidsUnder (history S db before) v c id → r.Confirms db c id → ∃ x ∈ between,
        x.Rejects c id) := by
  constructor
  · intro never before v between r after c id split voids confirms
    by_contra unrejected
    have known : r.Confirms (history S ((v.commit S (history S db before))) between) c id := by
      obtain ⟨own, now, user, call, known⟩ := confirms
      have users : (history S (v.commit S (history S db before)) between).users = db.users := by
        have := history_users S (before ++ v :: between) db
        rwa [history_append] at this
      exact ⟨own, now, user, call, by rw [users]; exact known⟩
    obtain ⟨mid, x, rest, split', bad⟩ := stranded_confirmed S between
      (v.commit S (history S db before))
      (voids.strands) (fun x hx rejects => unrejected ⟨x, hx, rejects⟩) known
    refine never (before ++ v :: mid) x (rest ++ after) ?_ ?_
    · have tail : between ++ r :: after = mid ++ x :: (rest ++ after) := by
        calc between ++ r :: after = (between ++ [r]) ++ after := by simp
          _ = (mid ++ x :: rest) ++ after := by rw [split']
          _ = mid ++ x :: (rest ++ after) := by simp
      rw [split, tail]
      simp
    · rw [history_append]
      exact bad
  · rintro ordered before r after rfl ⟨c, id, p', stranded, ⟨now, user, own, call⟩, found,
      confirmed⟩
    obtain ⟨first, v, between, rfl, voids, unrejected⟩ :=
      stranded_origin S db clean c id before stranded
    have confirms : r.Confirms db c id := by
      obtain ⟨p, -, found', -, pending, -⟩ := stranded
      rcases Request.payment_after S (history S db (first ++ v :: between)) r id with
        same | ⟨fresh, -⟩ | ⟨q, -, -, rejects | ⟨-, now', user', call', known⟩⟩
      · rw [same, found'] at found
        cases found
        rw [pending] at confirmed
        cases confirmed
      · rw [found'] at fresh
        cases fresh
      · obtain ⟨-, reason, call'⟩ := rejects
        rw [call] at call'
        cases call'
      · rw [history_users] at known
        exact ⟨own, now', user', call', known⟩
    obtain ⟨x, hx, rejects⟩ := ordered first v between r after c id (by simp) voids confirms
    exact unrejected x hx rejects

namespace Demo

/-- An issued invoice nobody has paid anything on. -/
def unpaid : Db := db [invoice 1 11 (baht 100) .issued] []

/-- Tenant 11 pays, the invoice is voided, the payment is confirmed. -/
def payVoid : List Request :=
  [⟨ctx, fun _ => true, .create 5 ⟨1, baht 100, .cash, none⟩ "key-of-payment-5"⟩,
    ⟨ctx, fun _ => true, .void 1⟩]

def confirm5 : Request := ⟨ctx, fun _ => true, .confirm 0 5 7⟩

theorem unpaid_clean (c id : Id) : ¬ Stranded unpaid c id := by
  rintro ⟨p, i, found, -⟩
  simp [unpaid, db, Table.find?, default] at found

end Demo

/-- The order above, and its only escape. -/
theorem no_confirm_against_void_pay_void :
    (∀ before r after, Demo.payVoid ++ [Demo.confirm5] = before ++ r :: after →
      ¬ ConfirmsAgainstVoid Demo.server (history Demo.server Demo.unpaid before) r) ↔
    (∀ before v between r after c id,
      Demo.payVoid ++ [Demo.confirm5] = before ++ v :: (between ++ r :: after) →
      VoidsUnder (history Demo.server Demo.unpaid before) v c id → r.Confirms Demo.unpaid c id →
      ∃ x ∈ between, x.Rejects c id) :=
  no_confirm_against_void Demo.server Demo.unpaid Demo.unpaid_clean
    (Demo.payVoid ++ [Demo.confirm5])

/-- The payment of a voided invoice is confirmed. -/
theorem confirm_after_void :
    ConfirmsAgainstVoid Demo.server (history Demo.server Demo.unpaid Demo.payVoid) Demo.confirm5 :=
  ⟨1, 5, _, ⟨_, _, rfl, rfl, rfl, rfl, rfl⟩, ⟨0, 7, rfl, rfl⟩, rfl, rfl⟩

end Dormitory
