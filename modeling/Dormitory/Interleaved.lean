import Dormitory.BillingParts
import Dormitory.Isolation

/-!
# Companies at the same time

The requests that write the books, of several companies and interleaved statement
by statement. They run exactly as the requests of every company do on its own rows:
nobody reads, keeps up or locks out another company.
-/

namespace Dormitory
open Txn

/-! ## The requests -/

/-- What a handler hands over. -/
inductive Written where
  | payment (p : Payment)
  | invoice (i : Invoice)
  | batch (r : BatchGenerateInvoicesResult)
  | announcement (a : Announcement)
  deriving DecidableEq

def BillingCall.handler (ctx : Ctx) : BillingCall → Call Written
  | create newId input key => do return .payment (← PaymentService.create ctx newId input key)
  | createForTenant newId input key tenantId =>
    do return .payment (← PaymentService.createForTenant ctx newId input key tenantId)
  | confirm now id user => do return .payment (← PaymentService.confirm ctx now id user)
  | reject id reason => do return .payment (← PaymentService.reject ctx id reason)
  | issue now id => do return .invoice (← InvoiceService.issue ctx now id)
  | void id => do return .invoice (← InvoiceService.void ctx id)

/-- The requests that write the books. -/
inductive BooksCall where
  | billing (call : BillingCall)
  | createInvoice (newId : Id) (now : Instant) (input : CreateInvoiceInput)
  | createBatch (newId : Id → Id) (now : Instant) (input : BatchGenerateInvoicesInput)
  | createBroadcast (newId : Id) (input : CreateAnnouncementInput) (idempotencyKey : String)
      (actorUserId : Id)

namespace BooksCall

def handler (ctx : Ctx) : BooksCall → Call Written
  | billing call => call.handler ctx
  | createInvoice newId now input =>
    do return .invoice (← InvoiceService.create ctx newId now input)
  | createBatch newId now input =>
    do return .batch (← InvoiceService.createBatch ctx newId now input)
  | createBroadcast newId input key user =>
    do return .announcement (← AnnouncementService.createBroadcast ctx newId input key user)

/-- The ids that the call draws are the company's. -/
def Drawn (home : Id → Id) (c : Id) : BooksCall → Prop
  | billing call => call.Drawn home c
  | createInvoice newId now input => (InvoicingCall.create newId now input).Drawn home c
  | createBatch newId now input => (InvoicingCall.createBatch newId now input).Drawn home c
  | createBroadcast newId _ _ actorUserId => home newId = c ∧ home actorUserId = c

end BooksCall

/-- An authenticated request for one of these calls. -/
structure BooksRequest where
  http : HttpRequest
  user : Claims
  authenticated : http.user = some user
  auditId : Id
  does : BooksCall

namespace BooksRequest

def company (m : BooksRequest) : Id := m.user.companyId

/-- The whole request, inside its transaction. -/
def prog (m : BooksRequest) : Call Written :=
  AuditLogInterceptor.intercept m.http m.auditId (m.does.handler ⟨m.company⟩)

structure Drawn (home : Id → Id) (m : BooksRequest) : Prop where
  does : m.does.Drawn home m.company
  auditId : home m.auditId = m.company
  admin : ∀ sub c, m.user = .admin sub c → home sub = c

end BooksRequest

/-! ## Each stays in its company -/

section stays
variable {home : Id → Id} {S : Server} {ctx : Ctx}

theorem return_own {α : Type} {c : Id} {p : Call α} (own : p.Own home S c fun _ => True)
    (make : α → Written) :
    Call.Own home S c (fun _ => True) (do return make (← p)) :=
  own.bind fun _ _ => trivial

theorem BillingCall.handler_own {call : BillingCall} (drawn : call.Drawn home ctx.companyId) :
    (call.handler ctx).Own home S ctx.companyId fun _ => True := by
  cases call with
  | create newId input key => exact return_own (PaymentService.createPayment_own drawn) .payment
  | createForTenant newId input key tenantId =>
    exact return_own (PaymentService.createForTenant_own drawn) .payment
  | confirm now id user => exact return_own (PaymentService.confirm_own drawn) .payment
  | reject id reason => exact return_own (PaymentService.reject_own id reason) .payment
  | issue now id => exact return_own (InvoiceService.issue_own now id) .invoice
  | void id => exact return_own (InvoiceService.void_own id) .invoice

theorem BooksCall.handler_own {call : BooksCall} (drawn : call.Drawn home ctx.companyId) :
    (call.handler ctx).Own home S ctx.companyId fun _ => True := by
  cases call with
  | billing call => exact call.handler_own drawn
  | createInvoice newId now input =>
    exact return_own (InvoiceService.create_own drawn.1 drawn.2) .invoice
  | createBatch newId now input => exact return_own (InvoiceService.createBatch_own drawn) .batch
  | createBroadcast newId input key user =>
    exact return_own (AnnouncementService.createBroadcast_own drawn.1 drawn.2) .announcement

theorem BooksRequest.prog_own {m : BooksRequest} (drawn : m.Drawn home) :
    m.prog.Own home S m.company fun _ => True := by
  refine AuditLogInterceptor.intercept_own (BooksCall.handler_own drawn.does) fun u known => ?_
  obtain rfl := Option.some.inj (m.authenticated.symm.trans known)
  refine ⟨rfl, drawn.auditId, fun actor names => ?_⟩
  cases who : m.user with
  | admin sub c =>
    rw [who] at names
    obtain rfl : sub = actor := Option.some.inj names
    exact (drawn.admin sub c who).trans (congrArg Claims.companyId who).symm
  | liff sub c lineUserId =>
    rw [who] at names
    cases names

/-- The company of a row or of an index entry. -/
def Lock.company (home : Id → Id) : Lock → Id
  | invoice id | payment id | announcement id | auditLog id => home id
  | invoiceSlot contractId _ => home contractId
  | paymentKey companyId _ | announcementKey companyId _ => companyId

theorem Row.Own.locks {c : Id} {w : Row} (own : w.Own home c) {l : Lock} (locked : l ∈ w.locks) :
    l.company home = c := by
  cases w with
  | invoice r =>
    obtain ⟨mine, here, refers⟩ := own
    rcases List.mem_cons.mp locked with rfl | slot
    · exact here
    split at slot
    · cases slot
    · obtain rfl := List.mem_singleton.mp slot
      exact refers.contract.trans mine
  | payment r | announcement r =>
    obtain ⟨mine, here, -⟩ := own
    rcases List.mem_cons.mp locked with rfl | entry
    · exact here
    · obtain rfl := List.mem_singleton.mp entry
      exact mine
  | auditLog r =>
    obtain rfl := List.mem_singleton.mp locked
    exact own.2.1

end stays

/-! ## All requests -/

section runs
variable {ι : Type} [DecidableEq ι] [Fintype ι]

/-- The requests, about to start. -/
def BooksRequest.start (ms : ι → BooksRequest) (db : Db) : Config billing ι Written :=
  Config.start db fun t => (ms t).prog

/-- The actions of the company's requests. -/
def BooksRequest.actions (ms : ι → BooksRequest) (c : Id) (as : List (Action ι)) :
    List (Action ι) :=
  Txn.actions (fun t => (ms t).company = c) as

open BooksRequest in
/-- **Companies run beside each other as if each were alone.** Cut down to the rows
of a company, an interleaved run of all requests is a run of the company's own: the
same actions, answers and jobs, and its rows end the same. And whenever every
company's own requests can run on its own rows, all of them can run together: no
company waits for another. -/
theorem companies_interleave (home : Id → Id) (S : Server) (ms : ι → BooksRequest)
    (drawn : ∀ t, (ms t).Drawn home) (db : Db) (housed : db.Housed home) (as : List (Action ι)) :
    (∀ all, (start ms db).run (engine S) as = some all →
      ∀ c, ∃ own, (start ms (db.part c)).run (engine S) (actions ms c as) = some own ∧
        own.db = all.db.part c ∧
        (∀ t, (ms t).company = c → own.txs t = (all.txs t).within (Db.part c)) ∧
        own.jobs = all.jobs.filter fun j => (ms j.1).company = c) ∧
    ((∀ a ∈ as, a.request ≠ none) →
      (∀ c, ∃ own, (start ms (db.part c)).run (engine S) (actions ms c as) = some own) →
      ∃ all, (start ms db).run (engine S) as = some all) := by
  have confined (t : ι) := billing_confined home S (ms t).company
  have inside (t : ι) := billing_inside home S (ms t).company
  have outside (t : ι) (c : Id) (apart : (ms t).company ≠ c) := billing_outside home S apart
  have parted : (start ms db).Parted (engine S) (Db.Housed home)
      (fun t => Statement.Own home (ms t).company) (fun t => Row.Own home (ms t).company)
      fun _ _ => True := Config.start_parted housed fun t => (ms t).prog_own (drawn t)
  have cut (c : Id) : (start ms db).Cut (engine S) (Db.part c) (fun t => (ms t).company = c)
      (start ms (db.part c)) := Config.start_cut (engine S) (Db.part c) db _
  constructor
  · intro all ran c
    obtain ⟨own, ran', cut'⟩ := (cut c).run confined (fun t here => here ▸ inside t)
      (fun t other => outside t c other) parted ran
    exact ⟨own, ran', cut'.db, cut'.txs, cut'.jobs⟩
  · intro requests alone
    refine Config.Cut.runs confined inside outside ?_ parted cut requests alone
    intro t u apart w w' own own' l locked locked'
    exact apart ((own.locks locked).symm.trans (own'.locks locked'))

namespace Demo

/-- An issued invoice and a pending payment of two companies each: ids of the first
are odd, of the second even. -/
def twoBooks : Db where
  companies := (Table.put default ⟨1, "acme", none⟩).put ⟨2, "siam", none⟩
  users := (Table.put default ⟨3, 1⟩).put ⟨4, 2⟩
  tenants := (Table.put default ⟨7, 1, none, .active⟩).put ⟨8, 2, none, .active⟩
  invoices := (Table.put default (invoice 5 7 (baht 100) .issued)).put
    { invoice 6 8 (baht 100) .issued with companyId := 2 }
  payments := (Table.put default (payment 9 5 7 (baht 100) "key-of-a-payment")).put
    { payment 10 6 8 (baht 100) "key-of-a-payment" with companyId := 2 }

def parity (id : Id) : Id := if id % 2 = 1 then 1 else 2

theorem twoBooks_housed : twoBooks.Housed parity where
  users := (Table.housed_default.put rfl trivial).put rfl trivial
  tenants := (Table.housed_default.put rfl trivial).put rfl trivial
  units := Table.housed_default
  contracts := Table.housed_default
  meters := Table.housed_default
  readings := Table.housed_default
  invoices := (Table.housed_default.put rfl ⟨rfl, rfl, rfl, fun _ no => (nomatch no)⟩).put rfl
    ⟨rfl, rfl, rfl, fun _ no => (nomatch no)⟩
  payments := (Table.housed_default.put rfl ⟨rfl, rfl, fun _ no => (nomatch no)⟩).put rfl
    ⟨rfl, rfl, fun _ no => (nomatch no)⟩
  announcements := Table.housed_default
  auditLogs := Table.housed_default

/-- Both companies confirm their payment. -/
def bothConfirm : Fin 2 → BooksRequest
  | 0 => ⟨⟨"POST", "/payments/9/confirm", none, none, none, none, some (.admin 3 1)⟩, .admin 3 1,
      rfl, 11, .billing (.confirm 0 9 3)⟩
  | 1 => ⟨⟨"POST", "/payments/10/confirm", none, none, none, none, some (.admin 4 2)⟩, .admin 4 2,
      rfl, 12, .billing (.confirm 0 10 4)⟩

theorem bothConfirm_drawn (t : Fin 2) : (bothConfirm t).Drawn parity := by
  match t with
  | 0 => exact ⟨rfl, rfl, by rintro sub c ⟨⟩; rfl⟩
  | 1 => exact ⟨rfl, rfl, by rintro sub c ⟨⟩; rfl⟩

/-- Statement by statement in turn, to both COMMITs. -/
def inStep : List (Action (Fin 2)) := (List.replicate 10 [.advance 0, .advance 1]).flatten

end Demo

open Demo in
/-- Both payments are confirmed, and both invoices paid. -/
theorem companies_interleave_confirm :
    ∃ all, (BooksRequest.start bothConfirm twoBooks).run (engine server) inStep = some all ∧
      (all.db.invoices.rows.map Invoice.status = [.paid, .paid] ∧
        all.db.auditLogs.rows.length = 2) ∧
      ∀ c, ∃ own, (BooksRequest.start bothConfirm (twoBooks.part c)).run (engine server)
          (BooksRequest.actions bothConfirm c inStep) = some own ∧ own.db = all.db.part c := by
  have run : ((BooksRequest.start bothConfirm twoBooks).run (engine server) inStep).map
      (fun all => (all.db.invoices.rows.map Invoice.status, all.db.auditLogs.rows.length)) =
        some ([.paid, .paid], 2) := by decide
  obtain ⟨all, ran, outcome⟩ := Option.map_eq_some_iff.mp run
  refine ⟨all, ran, Prod.mk.inj outcome, fun c => ?_⟩
  obtain ⟨own, ran', same, -⟩ := (companies_interleave parity server bothConfirm bothConfirm_drawn
    twoBooks twoBooks_housed inStep).1 all ran c
  exact ⟨own, ran', same⟩

end runs
end Dormitory
