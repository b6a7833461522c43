import Dormitory.Growth

/-!
# Interleaved decisions

`confirm`, `reject`, `issue` and `void` as requests that run side by side. None
of them uses a savepoint, so each follows a machine (`verbs`): what it has read
so far, and the one payment row and the one invoice row it has written. The
machine is what the invariants of interleaved runs are about.
-/

namespace Dormitory
open Txn

/-- A request that moves a payment or an invoice. -/
inductive Verb where
  | confirm (now : Instant) (id confirmedByUserId : Id)
  | reject (id : Id) (rejectionReason : String)
  | issue (now : Instant) (id : Id)
  | void (id : Id)

namespace Verb

def prog (ctx : Ctx) : Verb → Call (Payment ⊕ Invoice)
  | confirm now id user => do return .inl (← PaymentService.confirm ctx now id user)
  | reject id reason => do return .inl (← PaymentService.reject ctx id reason)
  | issue now id => do return .inr (← InvoiceService.issue ctx now id)
  | void id => do return .inr (← InvoiceService.void ctx id)

/-- The decision a verb wants to write. -/
inductive Decides : Verb → Id → PaymentPatch → Prop
  | confirm (now : Instant) (id user : Id) :
      Decides (.confirm now id user) id (PaymentService.confirmPatch now user)
  | reject (id : Id) (reason : String) :
      Decides (.reject id reason) id (PaymentService.rejectPatch reason)

end Verb

/-- How far a request is, with the rows it has written. -/
inductive Stage where
  | start (v : Verb)
  /-- The payment was pending when it was read. -/
  | deciding (id : Id) (patch : PaymentPatch)
  /-- The confirmation is written, the invoice not yet read. -/
  | rolling (q : Payment)
  | summing (q : Payment) (read : Invoice)
  | issuing (id : Id) (read : Invoice)
  /-- The invoice is to be updated; `read` is what the guard saw of it. -/
  | moving (q : Option Payment) (id : Id) (read : Invoice) (patch : InvoicePatch)
  | closing (q : Option Payment) (r : Option Invoice)

namespace Stage

def payment : Stage → Option Payment
  | rolling q | summing q _ => some q
  | moving q _ _ _ | closing q _ => q
  | _ => none

def invoice : Stage → Option Invoice
  | closing _ r => r
  | _ => none

def rows (m : Stage) : List Row := m.payment.toList.map .payment ++ m.invoice.toList.map .invoice

/-- Nothing is left to write: a rollup finds no invoice or a void one, or the status
that its sum calls for. -/
def Settled (c : Id) (s : Statement) (v : Db) : Stage → Prop
  | rolling q => s = ⟨c, .invoiceFindUnique q.invoiceId⟩ ∧
    ∀ i, v.invoice? c q.invoiceId = some i → i.status = .void
  | summing q i => s = ⟨c, .paymentFindConfirmed q.invoiceId⟩ ∧
    ∀ next, PaymentService.nextStatus i.total (v.confirmedPayments c q.invoiceId) = some next →
      next = i.status
  | moving .. => False
  | _ => True

end Stage

open PaymentService in
/-- The statements of the four verbs, on the view `v`. -/
inductive Does (c : Id) : Stage → Statement → Db → List Row → Stage → Prop
  | pending {verb id patch v p} (asks : Verb.Decides verb id patch)
      (found : v.payment? c id = some p) (status : p.status = .pending) :
      Does c (.start verb) ⟨c, .paymentFindUnique id⟩ v [] (.deciding id patch)
  | confirm {id patch v p} (found : v.payment? c id = some p)
    (confirmed : patch.status = .confirmed) :
      Does c (.deciding id patch) ⟨c, .paymentUpdate id patch⟩ v [.payment (patch.apply p)]
        (.rolling (patch.apply p))
  | reject {id patch v p} (found : v.payment? c id = some p) (rejected : patch.status = .rejected) :
      Does c (.deciding id patch) ⟨c, .paymentUpdate id patch⟩ v [.payment (patch.apply p)]
        (.closing (some (patch.apply p)) none)
  | roll {q v i} (found : v.invoice? c q.invoiceId = some i) (alive : i.status ≠ .void) :
      Does c (.rolling q) ⟨c, .invoiceFindUnique q.invoiceId⟩ v [] (.summing q i)
  | sum {q i v next} (calls : nextStatus i.total (v.confirmedPayments c q.invoiceId) = some next)
      (new : next ≠ i.status) :
      Does c (.summing q i) ⟨c, .paymentFindConfirmed q.invoiceId⟩ v []
        (.moving (some q) q.invoiceId i { status := next })
  | draft {now id v i} (found : v.invoice? c id = some i) (draft : i.status = .draft) :
      Does c (.start (.issue now id)) ⟨c, .invoiceFindUnique id⟩ v [] (.issuing id i)
  | company {id i v patch} (issued : patch.status = .issued) :
      Does c (.issuing id i) ⟨c, .companyFindUnique c⟩ v [] (.moving none id i patch)
  | alive {id v i} (found : v.invoice? c id = some i)
      (alive : i.status ≠ .void ∧ i.status ≠ .paid) :
      Does c (.start (.void id)) ⟨c, .invoiceFindUnique id⟩ v []
        (.moving none id i { status := .void })
  | move {q id i patch v j} (found : v.invoice? c id = some j) :
      Does c (.moving q id i patch) ⟨c, .invoiceUpdate id patch⟩ v [.invoice (patch.apply j)]
        (.closing q (some (patch.apply j)))
  /-- From here on the request only reads. -/
  | close {m s v} (settled : m.Settled c s v) : Does c m s v [] (.closing m.payment m.invoice)

def verbs (c : Id) : Machine billing Stage where
  step := Does c
  emits m _ m' := m' = m
  done m := ∃ q r, m = .closing q r

/-! ## The services follow the machine -/

section follows
variable (S : Server) (ctx : Ctx) {α : Type}

/-- The rule for a statement. -/
theorem follows_prisma {q : Query} {f : q.Ans → Call α} {m : Stage}
    (h : ∀ v ws a, S.run ctx.companyId q v = .ok (ws, a) →
      ∃ m', Does ctx.companyId m ⟨ctx.companyId, q⟩ v ws m' ∧
        (f a).Follows (engine S) (verbs ctx.companyId) m') :
    (prisma ctx q >>= f).Follows (engine S) (verbs ctx.companyId) m := by
  rw [prisma_bind]
  exact h

/-- A statement after which there is nothing left to write. -/
theorem follows_read {q : Query} {f : q.Ans → Call α} {m : Stage} (ans : Db → q.Ans)
    (reads : ∀ db, S.run ctx.companyId q db = .ok ([], ans db))
    (settled : ∀ v, m.Settled ctx.companyId ⟨ctx.companyId, q⟩ v)
    (rest : ∀ a, (f a).Follows (engine S) (verbs ctx.companyId) (.closing m.payment m.invoice)) :
    (prisma ctx q >>= f).Follows (engine S) (verbs ctx.companyId) m := by
  apply follows_prisma S ctx
  intro v ws a run
  rw [reads] at run
  cases run
  exact ⟨_, .close (settled v), rest _⟩

theorem follows_notification (q : Option Payment) (r : Option Invoice) (invoiceId : Id)
    (kind : PaymentService.Verdict) {f : Unit → Call α}
    (rest : (f ()).Follows (engine S) (verbs ctx.companyId) (.closing q r)) :
    (PaymentService.enqueuePaymentNotification ctx invoiceId kind >>= f).Follows (engine S)
      (verbs ctx.companyId) (.closing q r) := by
  unfold PaymentService.enqueuePaymentNotification
  rw [Prog.bind_assoc]
  refine follows_read S ctx (fun db => db.invoice? ctx.companyId invoiceId) (fun _ => rfl)
    (fun _ => trivial) fun i => ?_
  rw [Prog.bind_assoc]
  refine follows_read S ctx (fun db => db.company? ctx.companyId ctx.companyId) (fun _ => rfl)
    (fun _ => trivial) fun company => ?_
  split
  · cases kind with
    | approved =>
      simp only [NotificationService.enqueuePaymentApproved, NotificationService.enqueue_eq,
        Prog.bind_send, Prog.bind_ret]
      exact ⟨_, rfl, fun _ => rest⟩
    | rejected reason =>
      simp only [NotificationService.enqueuePaymentRejected, NotificationService.enqueue_eq,
        Prog.bind_send, Prog.bind_ret]
      exact ⟨_, rfl, fun _ => rest⟩
  · exact rest

theorem follows_rollup (q : Payment) {f : Unit → Call α}
    (rest : ∀ r, (f ()).Follows (engine S) (verbs ctx.companyId) (.closing (some q) r)) :
    (PaymentService.recomputeInvoiceStatus ctx q.invoiceId >>= f).Follows (engine S)
      (verbs ctx.companyId) (.rolling q) := by
  unfold PaymentService.recomputeInvoiceStatus
  rw [Prog.bind_assoc]
  apply follows_prisma S ctx
  intro v ws i run
  cases run
  cases found : v.invoice? ctx.companyId q.invoiceId with
  | none =>
    have settled : Stage.Settled ctx.companyId ⟨ctx.companyId, .invoiceFindUnique q.invoiceId⟩ v
        (.rolling q) := ⟨rfl, fun i stored => nomatch found.symm.trans stored⟩
    exact ⟨_, .close settled, rest none⟩
  | some i =>
    by_cases gone : i.status = .void
    · simp only [gone, if_true]
      have settled : Stage.Settled ctx.companyId ⟨ctx.companyId, .invoiceFindUnique q.invoiceId⟩ v
          (.rolling q) := ⟨rfl, fun j stored => Option.some.inj (found.symm.trans stored) ▸ gone⟩
      exact ⟨_, .close settled, rest none⟩
    · simp only [gone, if_false]
      refine ⟨_, .roll found gone, ?_⟩
      rw [Prog.bind_assoc]
      apply follows_prisma S ctx
      intro v ws ps run
      cases run
      cases calls : PaymentService.nextStatus i.total
        (v.confirmedPayments ctx.companyId q.invoiceId) with
      | none =>
        have settled : Stage.Settled ctx.companyId
            ⟨ctx.companyId, .paymentFindConfirmed q.invoiceId⟩ v (.summing q i) :=
          ⟨rfl, fun next called => nomatch calls.symm.trans called⟩
        exact ⟨_, .close settled, rest none⟩
      | some next =>
        by_cases same : next = i.status
        · simp only [same, if_true]
          have settled : Stage.Settled ctx.companyId
              ⟨ctx.companyId, .paymentFindConfirmed q.invoiceId⟩ v (.summing q i) :=
            ⟨rfl, fun next' called => Option.some.inj (called.symm.trans calls) ▸ same⟩
          exact ⟨_, .close settled, rest none⟩
        · simp only [same, if_false]
          refine ⟨_, .sum calls same, ?_⟩
          rw [Prog.bind_assoc]
          apply follows_prisma S ctx
          intro v ws j run
          simp only [Server.run] at run
          split at run
          · rename_i j found
            cases run
            exact ⟨_, .move found, rest _⟩
          · cases run

theorem follows_confirm (now : Instant) (id user : Id) {f : Payment → Call α}
    (rest : ∀ p q r, (f p).Follows (engine S) (verbs ctx.companyId) (.closing q r)) :
    (PaymentService.confirm ctx now id user >>= f).Follows (engine S) (verbs ctx.companyId)
      (.start (.confirm now id user)) := by
  unfold PaymentService.confirm PaymentService.getById
  simp only [Prog.bind_assoc]
  apply follows_prisma S ctx
  intro v ws p run
  cases run
  cases found : v.payment? ctx.companyId id with
  | none => exact ⟨_, .close trivial, trivial⟩
  | some p =>
    simp only [Prog.pure_eq, Prog.bind_ret]
    cases status : p.status with
    | confirmed => exact ⟨_, .close trivial, rest _ _ _⟩
    | rejected => exact ⟨_, .close trivial, trivial⟩
    | pending =>
      refine ⟨_, .pending (.confirm now id user) found status, ?_⟩
      simp only [Prog.bind_assoc]
      apply follows_prisma S ctx
      intro v ws p' run
      simp only [Server.run, Server.updatePayment] at run
      split at run
      · cases run
      · rename_i p found
        split at run
        · cases run
          refine ⟨_, .confirm found rfl, follows_rollup S ctx _ fun r => ?_⟩
          exact follows_notification S ctx _ _ _ _ (rest _ _ _)
        · cases run

theorem follows_reject (id : Id) (reason : String) {f : Payment → Call α}
    (rest : ∀ p q r, (f p).Follows (engine S) (verbs ctx.companyId) (.closing q r)) :
    (PaymentService.reject ctx id reason >>= f).Follows (engine S) (verbs ctx.companyId)
      (.start (.reject id reason)) := by
  unfold PaymentService.reject PaymentService.getById
  simp only [Prog.bind_assoc]
  apply follows_prisma S ctx
  intro v ws p run
  cases run
  cases found : v.payment? ctx.companyId id with
  | none => exact ⟨_, .close trivial, trivial⟩
  | some p =>
    simp only [Prog.pure_eq, Prog.bind_ret]
    cases status : p.status with
    | rejected => exact ⟨_, .close trivial, rest _ _ _⟩
    | confirmed => exact ⟨_, .close trivial, trivial⟩
    | pending =>
      refine ⟨_, .pending (.reject id reason) found status, ?_⟩
      simp only [Prog.bind_assoc]
      apply follows_prisma S ctx
      intro v ws p' run
      simp only [Server.run, Server.updatePayment] at run
      split at run
      · cases run
      · rename_i p found
        split at run
        · cases run
          refine ⟨_, .reject found rfl, ?_⟩
          exact follows_notification S ctx _ _ _ _ (rest _ _ _)
        · cases run

theorem follows_update (q : Option Payment) (id : Id) (read : Invoice) (patch : InvoicePatch)
    {f : Invoice → Call α}
    (rest : ∀ i r, (f i).Follows (engine S) (verbs ctx.companyId) (.closing q (some r))) :
    (prisma ctx (.invoiceUpdate id patch) >>= f).Follows (engine S) (verbs ctx.companyId)
      (.moving q id read patch) := by
  apply follows_prisma S ctx
  intro v ws j run
  simp only [Server.run] at run
  split at run
  · rename_i j found
    cases run
    exact ⟨_, .move found, rest _ _⟩
  · cases run

theorem follows_issue (now : Instant) (id : Id) {f : Invoice → Call α}
    (rest : ∀ i q r, (f i).Follows (engine S) (verbs ctx.companyId) (.closing q r)) :
    (InvoiceService.issue ctx now id >>= f).Follows (engine S) (verbs ctx.companyId)
      (.start (.issue now id)) := by
  unfold InvoiceService.issue InvoiceService.getById
  simp only [Prog.bind_assoc]
  apply follows_prisma S ctx
  intro v ws i run
  cases run
  cases found : v.invoice? ctx.companyId id with
  | none => exact ⟨_, .close trivial, trivial⟩
  | some i =>
    simp only [Prog.pure_eq, Prog.bind_ret]
    by_cases issued : i.status = .issued
    · simp only [issued, if_true]
      exact ⟨_, .close trivial, rest _ _ _⟩
    by_cases draft : i.status = .draft
    · simp only [draft, reduceCtorEq, if_false, ne_eq, not_true_eq_false]
      refine ⟨_, .draft found draft, ?_⟩
      rw [Prog.bind_assoc]
      apply follows_prisma S ctx
      intro v ws company run
      cases run
      split
      · exact ⟨_, .close trivial, trivial⟩
      split
      · exact ⟨_, .close trivial, trivial⟩
      split
      · exact ⟨_, .close trivial, trivial⟩
      split
      · exact ⟨_, .close trivial, trivial⟩
      · rename_i promptPayRef _
        have issued : (InvoicePatch.mk .issued (some now) (some promptPayRef)).status = .issued :=
          rfl
        refine ⟨_, .company issued, ?_⟩
        rw [Prog.bind_assoc]
        apply follows_update S ctx _ _ _ _
        intro row r
        simp only [NotificationService.enqueueInvoiceIssued, NotificationService.enqueue_eq,
          Prog.bind_send, Prog.bind_ret]
        exact ⟨_, rfl, fun _ => rest _ _ _⟩
    · simp only [issued, draft, if_false, if_true, ne_eq, not_false_eq_true]
      exact ⟨_, .close trivial, trivial⟩

theorem follows_void (id : Id) {f : Invoice → Call α}
    (rest : ∀ i q r, (f i).Follows (engine S) (verbs ctx.companyId) (.closing q r)) :
    (InvoiceService.void ctx id >>= f).Follows (engine S) (verbs ctx.companyId)
      (.start (.void id)) := by
  unfold InvoiceService.void InvoiceService.getById
  simp only [Prog.bind_assoc]
  apply follows_prisma S ctx
  intro v ws i run
  cases run
  cases found : v.invoice? ctx.companyId id with
  | none => exact ⟨_, .close trivial, trivial⟩
  | some i =>
    simp only [Prog.pure_eq, Prog.bind_ret]
    by_cases gone : i.status = .void
    · simp only [gone, if_true]
      exact ⟨_, .close trivial, rest _ _ _⟩
    by_cases paid : i.status = .paid
    · simp only [paid, reduceCtorEq, if_false, if_true]
      exact ⟨_, .close trivial, trivial⟩
    · simp only [gone, paid, if_false]
      exact ⟨_, .alive found ⟨gone, paid⟩, follows_update S ctx _ _ _ _ fun _ _ => rest _ _ _⟩

theorem Verb.follows (verb : Verb) :
    (verb.prog ctx).Follows (engine S) (verbs ctx.companyId) (.start verb) := by
  cases verb with
  | confirm now id user => exact follows_confirm S ctx now id user fun _ q r => ⟨q, r, rfl⟩
  | reject id reason => exact follows_reject S ctx id reason fun _ q r => ⟨q, r, rfl⟩
  | issue now id => exact follows_issue S ctx now id fun _ q r => ⟨q, r, rfl⟩
  | void id => exact follows_void S ctx id fun _ q r => ⟨q, r, rfl⟩

end follows

/-! ## What a live request holds -/

namespace Stage

@[simp] theorem rows_payment (m : Stage) (q : Payment) :
    .payment q ∈ m.rows ↔ m.payment = some q := by
  cases h : m.payment <;> cases h' : m.invoice <;> simp [rows, h, h', eq_comm]

@[simp] theorem rows_invoice (m : Stage) (r : Invoice) :
    .invoice r ∈ m.rows ↔ m.invoice = some r := by
  cases h : m.payment <;> cases h' : m.invoice <;> simp [rows, h, h', eq_comm]

section view
variable (m : Stage) (db : Db) (c id : Id)

theorem view_payments : (m.rows.foldl Row.apply db).payments =
    match m.payment with
    | some q => db.payments.put q
    | none => db.payments := by
  cases h : m.payment <;> cases h' : m.invoice <;> simp [rows, h, h', Row.apply]

theorem view_invoices : (m.rows.foldl Row.apply db).invoices =
    match m.invoice with
    | some r => db.invoices.put r
    | none => db.invoices := by
  cases h : m.payment <;> cases h' : m.invoice <;> simp [rows, h, h', Row.apply]

theorem view_payment? : (m.rows.foldl Row.apply db).payment? c id =
    match m.payment with
    | some q => if id = q.id then (if q.companyId = c then some q else none) else db.payment? c id
    | none => db.payment? c id := by
  have h := m.view_payments db
  cases hq : m.payment with
  | none =>
    rw [hq] at h
    simp only [Db.payment?, h]
  | some q =>
    rw [hq] at h
    have put := Db.payment?_payment db c id q
    simp only [Db.payment?, h]
    exact put

theorem view_invoice? : (m.rows.foldl Row.apply db).invoice? c id =
    match m.invoice with
    | some r => if id = r.id then (if r.companyId = c then some r else none) else db.invoice? c id
    | none => db.invoice? c id := by
  have h := m.view_invoices db
  cases hr : m.invoice with
  | none =>
    rw [hr] at h
    simp only [Db.invoice?, h]
  | some r =>
    rw [hr] at h
    have put := Db.invoice?_invoice db c id r
    simp only [Db.invoice?, h]
    exact put

end view
end Stage

/-- The request has written what its stage says, and each row it has written
is an update of the committed one, which it keeps locked. -/
structure Fits (c : Id) (db : Db) (l : Live billing Stage) : Prop where
  writes : l.writes = l.stage.rows
  payment : ∀ q, l.stage.payment = some q → ∃ p patch, db.payment? c q.id = some p ∧
    q = PaymentPatch.apply patch p
  invoice : ∀ r, l.stage.invoice = some r → ∃ i patch, db.invoice? c r.id = some i ∧
    r = InvoicePatch.apply patch i

section fits
variable {S : Server} {c : Id} {ι : Type} {w w' : World billing ι Stage} {e : Event billing ι}

theorem Fits.view {db : Db} {l : Live billing Stage} (h : Fits c db l) :
    l.view (engine S) db = l.stage.rows.foldl Row.apply db := by
  rw [Live.view, h.writes]
  rfl

theorem Fits.payment_company {db : Db} {l : Live billing Stage} (h : Fits c db l) {q : Payment}
    (hq : l.stage.payment = some q) : q.companyId = c := by
  obtain ⟨p, patch, found, rfl⟩ := h.payment q hq
  exact (Db.payment?_some.1 found).2

theorem Fits.invoice_company {db : Db} {l : Live billing Stage} (h : Fits c db l) {r : Invoice}
    (hr : l.stage.invoice = some r) : r.companyId = c := by
  obtain ⟨i, patch, found, rfl⟩ := h.invoice r hr
  exact (Db.invoice?_some.1 found).2

theorem Fits.payment_lock {db : Db} {l : Live billing Stage} (h : Fits c db l) {q : Payment}
    (hq : l.stage.payment = some q) : .payment q.id ∈ l.held (engine S) := by
  have : Row.payment q ∈ l.writes := by simpa [h.writes] using hq
  exact List.mem_flatMap.2 ⟨_, this, by simp [engine, Row.locks]⟩

theorem Fits.invoice_lock {db : Db} {l : Live billing Stage} (h : Fits c db l) {r : Invoice}
    (hr : l.stage.invoice = some r) : .invoice r.id ∈ l.held (engine S) := by
  have : Row.invoice r ∈ l.writes := by simpa [h.writes] using hr
  exact List.mem_flatMap.2 ⟨_, this, by simp [engine, Row.locks]⟩

/-- A commit changes no payment but in its decision, adds none and drops none. -/
theorem Fits.before {db : Db} {l : Live billing Stage} (h : Fits c db l) {x : Payment}
    (hx : x ∈ (l.stage.rows.foldl Row.apply db).payments.rows) :
    ∃ y ∈ db.payments.rows, y.Same x := by
  rw [Stage.view_payments] at hx
  cases own : l.stage.payment with
  | none =>
    rw [own] at hx
    exact ⟨x, hx, .refl x⟩
  | some q =>
    rw [own] at hx
    rcases Table.mem_put.1 hx with rfl | ⟨hx, -⟩
    · obtain ⟨p, patch, found, rfl⟩ := h.payment x own
      exact ⟨p, Table.find?_mem (Db.payment?_some.1 found).1, patch.same p⟩
    · exact ⟨x, hx, .refl x⟩

theorem Fits.after {db : Db} {l : Live billing Stage} (h : Fits c db l) {y : Payment}
    (hy : y ∈ db.payments.rows) :
    ∃ x ∈ (l.stage.rows.foldl Row.apply db).payments.rows, y.Same x := by
  rw [Stage.view_payments]
  cases own : l.stage.payment with
  | none => exact ⟨y, hy, .refl y⟩
  | some q =>
    by_cases same : y.id = q.id
    · obtain ⟨p, patch, found, rfl⟩ := h.payment q own
      have : p = y := db.payments.key_inj (Table.find?_mem (Db.payment?_some.1 found).1)
        hy same.symm
      subst this
      exact ⟨_, Table.mem_put.2 (.inl rfl), patch.same p⟩
    · exact ⟨y, Table.mem_put.2 (.inr ⟨hy, same⟩), .refl y⟩

/-- A commit keeps the totals. -/
theorem Fits.total {db : Db} {l : Live billing Stage} (h : Fits c db l) {id : Id} {j : Invoice}
    (found : db.invoice? c id = some j) :
    ∃ j', (l.stage.rows.foldl Row.apply db).invoice? c id = some j' ∧ j'.total = j.total := by
  rw [Stage.view_invoice?]
  cases own : l.stage.invoice with
  | none => exact ⟨j, found, rfl⟩
  | some r =>
    by_cases same : id = r.id
    · obtain ⟨i, patch, stored, rfl⟩ := h.invoice r own
      rw [← same, found] at stored
      cases stored
      simp only [same, if_true, h.invoice_company own]
      exact ⟨_, rfl, rfl⟩
    · simp only [same, if_false]
      exact ⟨j, found, rfl⟩

/-- Every live request fits the committed state. -/
def AllFit (c : Id) (w : World billing ι Stage) : Prop := ∀ t l, w.live t = some l → Fits c w.db l

/-- A commit of `t` leaves the payment row that another request has written. -/
theorem AllFit.other_payment (fits : AllFit c w) (hx : w.Exclusive (engine S))
    {t u : ι} (hu : u ≠ t)
    {l r : Live billing Stage} (hl : w.live t = some l) (hr : w.live u = some r) {q : Payment}
    (hq : r.stage.payment = some q) :
    (l.stage.rows.foldl Row.apply w.db).payment? c q.id = w.db.payment? c q.id := by
  rw [Stage.view_payment?]
  cases own : l.stage.payment with
  | none => rfl
  | some q' =>
    apply if_neg
    intro same
    have lock : .payment q.id ∈ r.held (engine S) := (fits u r hr).payment_lock hq
    have lock' : .payment q'.id ∈ l.held (engine S) := (fits t l hl).payment_lock own
    exact hx u t r l hu hr hl _ lock (same ▸ lock')

theorem AllFit.other_invoice (fits : AllFit c w) (hx : w.Exclusive (engine S))
    {t u : ι} (hu : u ≠ t)
    {l r : Live billing Stage} (hl : w.live t = some l) (hr : w.live u = some r) {i : Invoice}
    (hi : r.stage.invoice = some i) :
    (l.stage.rows.foldl Row.apply w.db).invoice? c i.id = w.db.invoice? c i.id := by
  rw [Stage.view_invoice?]
  cases own : l.stage.invoice with
  | none => rfl
  | some i' =>
    apply if_neg
    intro same
    have lock : .invoice i.id ∈ r.held (engine S) := (fits u r hr).invoice_lock hi
    have lock' : .invoice i'.id ∈ l.held (engine S) := (fits t l hl).invoice_lock own
    exact hx u t r l hu hr hl _ lock (same ▸ lock')

/-- A statement keeps its request fitting. -/
theorem Fits.exec {db : Db} {l : Live billing Stage} (h : Fits c db l)
    {s : Statement} {ws : List Row}
    {m : Stage} (does : Does c l.stage s (l.view (engine S) db) ws m) (tr : Seen) :
    Fits c db ⟨m, l.writes ++ ws, tr⟩ := by
  obtain ⟨writes, payment, invoice⟩ := h
  obtain ⟨stage, ws', tr'⟩ := l
  simp only at writes payment invoice does ⊢
  subst writes
  cases does with
  | pending | draft | company | alive =>
    exact ⟨rfl, fun q hq => by simp [Stage.payment] at hq,
      fun r hr => by simp [Stage.invoice] at hr⟩
  | confirm found | reject found =>
    refine ⟨rfl, fun q hq => ?_, fun r hr => by simp [Stage.invoice] at hr⟩
    simp only [Stage.payment, Option.some.injEq] at hq
    subst hq
    exact ⟨_, _, Db.payment?_id found ▸ found, rfl⟩
  | roll | sum =>
    exact ⟨by simp [Stage.rows, Stage.payment, Stage.invoice], payment, fun r hr => by
      simp [Stage.invoice] at hr⟩
  | move found =>
    refine ⟨by simp [Stage.rows, Stage.payment, Stage.invoice], payment, fun r hr => ?_⟩
    simp only [Stage.invoice, Option.some.injEq] at hr
    subst hr
    have found : Db.invoice? (List.foldl Row.apply db (Stage.rows _)) c _ = some _ := found
    rw [Stage.view_invoice?] at found
    exact ⟨_, _, Db.invoice?_id found ▸ found, rfl⟩
  | close =>
    exact ⟨by simp [Stage.rows, Stage.payment, Stage.invoice], payment, invoice⟩

theorem start_fits (db : Db) (verb : ι → Verb) :
    AllFit c (World.start db fun t => .start (verb t)) := by
  intro t l hl
  cases hl
  exact ⟨rfl, fun q hq => (by cases hq), fun r hr => (by cases hr)⟩

variable [DecidableEq ι]

theorem step_fits (hx : w.Exclusive (engine S)) (fits : AllFit c w)
    (h : World.Step (engine S) (verbs c) w e w') : AllFit c w' := by
  refine h.live (σ := billing) (P := Fits c) fits
    (fun t l s ws m here _ does => (fits t l here).exec does _)
    (fun t l j m here does => ?_) fun t l u r here _ hu hr _ => ?_
  · cases does
    exact fits t l here
  · rw [(fits t l here).view]
    refine ⟨(fits u r hr).writes, fun q hq => ?_, fun i hi => ?_⟩
    · rw [fits.other_payment hx hu here hr hq]
      exact (fits u r hr).payment q hq
    · rw [fits.other_invoice hx hu here hr hi]
      exact (fits u r hr).invoice i hi

end fits

/-! ## What the stages remember -/

/-- The patches of `confirm` and `reject`. -/
def PaymentPatch.Decision (patch : PaymentPatch) : Prop :=
  patch.status = .confirmed ∧ patch.rejectionReason = none ∨
    patch.status = .rejected ∧ patch.confirmedAt = none

def Stage.Coherent : Stage → Prop
  | .deciding _ patch => patch.Decision
  | .rolling q => q.status = .confirmed
  | .summing q i => q.status = .confirmed ∧ i.id = q.invoiceId ∧ i.status ≠ .void
  | .issuing id i => i.id = id ∧ i.status = .draft
  | .moving (some q) id i patch => q.status = .confirmed ∧ id = q.invoiceId ∧ i.id = id ∧
    i.status ≠ .void ∧ (patch.status = .paid ∨ patch.status = .partially_paid) ∧
    patch.status ≠ i.status
  | .moving none id i patch => i.id = id ∧
    (i.status = .draft ∧ patch.status = .issued ∨
      (i.status ≠ .void ∧ i.status ≠ .paid) ∧ patch.status = .void)
  | .closing (some q) (some r) => q.status = .confirmed ∧ r.id = q.invoiceId ∧
    (r.status = .paid ∨ r.status = .partially_paid)
  | .closing none (some r) => r.status = .issued ∨ r.status = .void
  | .start _ | .closing _ none => True

theorem Does.coherent {c : Id} {m m' : Stage} {s : Statement} {v : Db} {ws : List Row}
    (h : Does c m s v ws m') (hm : m.Coherent) : m'.Coherent := by
  cases h with
  | pending asks found status =>
    cases asks with
    | confirm => exact .inl ⟨rfl, rfl⟩
    | reject => exact .inr ⟨rfl, rfl⟩
  | confirm found confirmed => exact confirmed
  | reject found rejected => trivial
  | roll found alive => exact ⟨hm, Db.invoice?_id found, alive⟩
  | sum calls new => exact ⟨hm.1, rfl, hm.2.1, hm.2.2, PaymentService.nextStatus_some calls, new⟩
  | draft found draft => exact ⟨Db.invoice?_id found, draft⟩
  | company issued => exact ⟨hm.1, .inl ⟨hm.2, issued⟩⟩
  | alive found alive => exact ⟨Db.invoice?_id found, .inr ⟨alive, rfl⟩⟩
  | @move q id i patch v j found =>
    cases q with
    | none => exact hm.2.imp (fun h => h.2) (fun h => h.2)
    | some q =>
      obtain ⟨confirmed, own, -, -, rolled, -⟩ := hm
      exact ⟨confirmed, (Db.invoice?_id found).trans own, rolled⟩
  | close =>
    cases m with
    | closing q r => exact hm
    | moving q => cases q <;> trivial
    | _ => trivial

/-- Every live request is at a coherent stage. -/
def AllCoherent {ι : Type} (w : World billing ι Stage) : Prop :=
  ∀ t l, w.live t = some l → l.stage.Coherent

theorem step_coherent {S : Server} {c : Id} {ι : Type} [DecidableEq ι]
    {w w' : World billing ι Stage}
    {e : Event billing ι} (coherent : AllCoherent w) (h : World.Step (engine S) (verbs c) w e w') :
    AllCoherent w' := by
  refine h.live (σ := billing) (P := fun _ (l : Live billing Stage) => l.stage.Coherent) coherent
    (fun t l s ws m here _ does => does.coherent (coherent t l here))
    (fun t l j m here does => ?_) fun t l u r _ _ _ hr _ => coherent u r hr
  cases does
  exact coherent t l here

theorem start_coherent {ι : Type} (db : Db) (verb : ι → Verb) :
    AllCoherent (World.start db fun t => .start (verb t)) := by
  intro t l hl
  cases hl
  trivial

end Dormitory
