import Dormitory.Growth
import Dormitory.Totals

/-!
# Invoicing, call after call

The calls of the invoice service that write, each executed alone, and what a
sequence of them leaves in the database.
-/

namespace Dormitory
open Txn

inductive InvoicingCall where
  | create (newId : Id) (now : Instant) (input : CreateInvoiceInput)
  | createBatch (newId : Id → Id) (now : Instant) (input : BatchGenerateInvoicesInput)
  | issue (now : Instant) (id : Id)
  | void (id : Id)

/-- A call with the company it is made in and the luck its jobs have. -/
structure InvoicingRequest where
  ctx : Ctx
  queueUp : Nat → Bool
  call : InvoicingCall

namespace InvoicingRequest
variable (S : Server) (db : Db)

/-- What the schemas accept; the others take an id only. -/
def Accepted (r : InvoicingRequest) : Prop :=
  match r.call with
  | .create _ _ input => input.Accepted
  | .createBatch _ _ input => input.Accepted
  | .issue _ _ | .void _ => True

/-- The rows the call commits. -/
def rows (r : InvoicingRequest) : List Row :=
  match r.call with
  | .create newId now input =>
    (Prog.serve (engine S) r.queueUp db (InvoiceService.create r.ctx newId now input)).written
  | .createBatch newId now input =>
    (Prog.serve (engine S) r.queueUp db (InvoiceService.createBatch r.ctx newId now input)).written
  | .issue now id =>
    (Prog.serve (engine S) r.queueUp db (InvoiceService.issue r.ctx now id)).written
  | .void id => (Prog.serve (engine S) r.queueUp db (InvoiceService.void r.ctx id)).written

def commit (r : InvoicingRequest) : Db := (r.rows S db).foldl Row.apply db

end InvoicingRequest

/-- The committed state after the requests, one at a time. -/
def invoiced (S : Server) (db : Db) (rs : List InvoicingRequest) : Db :=
  rs.foldl (fun db r => r.commit S db) db

/-- Every request of the sequence meets `P` where it is made. -/
def EachRequest (S : Server) (P : Db → InvoicingRequest → Prop) :
    Db → List InvoicingRequest → Prop
  | _, [] => True
  | db, r :: rs => P db r ∧ EachRequest S P (r.commit S db) rs

/-- **Runs keep what their steps keep.** -/
theorem invoiced_invariant (S : Server) {I : Db → Prop} {P : Db → InvoicingRequest → Prop}
    (keep : ∀ db r, I db → P db r → I (r.commit S db)) {db : Db} (start : I db)
    {rs : List InvoicingRequest} (each : EachRequest S P db rs) : I (invoiced S db rs) := by
  induction rs generalizing db with
  | nil => exact start
  | cons r rs ih => exact ih (keep db r start each.1) each.2

theorem EachRequest.mono {S : Server} {P Q : Db → InvoicingRequest → Prop}
    (sub : ∀ db r, P db r → Q db r) {db : Db} {rs : List InvoicingRequest}
    (each : EachRequest S P db rs) : EachRequest S Q db rs := by
  induction rs generalizing db with
  | nil => exact each
  | cons r rs ih => exact ⟨sub db r each.1, ih each.2⟩

/-- An invoice of the new state is one of the old or one that was written. -/
theorem mem_written_invoices {rows : List Row} (own : ∀ w ∈ rows, ∃ r, w = .invoice r) {db : Db}
    {i : Invoice} (h : i ∈ (rows.foldl Row.apply db).invoices.rows) :
    i ∈ db.invoices.rows ∨ .invoice i ∈ rows := by
  induction rows generalizing db with
  | nil => exact .inl h
  | cons w ws ih =>
    obtain ⟨r, rfl⟩ := own w (by simp)
    rcases ih (fun w hw => own w (by simp [hw])) h with h | h
    · rcases Table.mem_put.mp h with rfl | ⟨h, -⟩
      · exact .inr (by simp)
      · exact .inl h
    · exact .inr (by simp [h])

/-- The invoices that each call writes. -/
inductive Wrote (S : Server) (db : Db) (ctx : Ctx) (queueUp : Nat → Bool) :
    InvoicingCall → Invoice → Prop
  | created {newId now input row}
      (answer : (Prog.serve (engine S) queueUp db
        (InvoiceService.create ctx newId now input)).answer = .ok row) :
      Wrote S db ctx queueUp (.create newId now input) row
  | planned {newId now input d db' row}
      (plan : d ∈ InvoiceService.planned ctx newId now input ⟨fun _ => db, queueUp⟩)
      (made : S.createInvoice d db' = .ok ([.invoice row], row))
      (fits : ∀ d ∈ InvoiceService.planned ctx newId now input ⟨fun _ => db, queueUp⟩,
        d.AmountsFit) :
      Wrote S db ctx queueUp (.createBatch newId now input) row
  | issued {now id i patch} (stored : i ∈ db.invoices.rows) (draft : i.status = .draft)
      (patched : InvoiceService.issuePatch now (db.company? ctx.companyId ctx.companyId) i.total =
        some patch) :
      Wrote S db ctx queueUp (.issue now id) (patch.apply i)
  | voided {id i} (stored : i ∈ db.invoices.rows) :
      Wrote S db ctx queueUp (.void id) (InvoicePatch.apply { status := .void } i)

theorem InvoicingRequest.rows_wrote {S : Server} {db : Db} {r : InvoicingRequest} {w : Row}
    (h : w ∈ r.rows S db) : ∃ i, w = .invoice i ∧ Wrote S db r.ctx r.queueUp r.call i := by
  obtain ⟨ctx, queueUp, call⟩ := r
  cases call with
  | create newId now input =>
    simp only [rows] at h
    cases answer : (Prog.serve (engine S) queueUp db
        (InvoiceService.create ctx newId now input)).answer with
    | error err => simp [Ending.written, answer] at h
    | ok row =>
      obtain ⟨contract, found, inserted⟩ := (InvoiceService.create_ok_iff S ctx newId now input
        ⟨fun _ => db, queueUp⟩ row).mp answer
      obtain ⟨tr, run⟩ := InvoiceService.create_inserted S ctx newId now input
        ⟨fun _ => db, queueUp⟩ found inserted
      rw [Prog.serve, run] at h
      exact ⟨row, List.mem_singleton.mp h, .created answer⟩
  | createBatch newId now input =>
    obtain ⟨d, plan, db', row, made, same⟩ := InvoiceService.createBatch_writes h
    exact ⟨row, same, .planned plan made (InvoiceService.createBatch_fits h)⟩
  | issue now id =>
    simp only [rows, InvoiceService.issue_written, InvoiceService.issueRows] at h
    split at h
    · rename_i i found
      split at h
      · rename_i draft
        split at h
        · rename_i patch patched
          exact ⟨_, List.mem_singleton.mp h,
            .issued (Table.find?_mem (Db.invoice?_some.mp found).1) draft patched⟩
        · cases h
      · cases h
    · cases h
  | void id =>
    simp only [rows, InvoiceService.void_written, InvoiceService.voidRows] at h
    split at h
    · rename_i i found
      split at h
      · cases h
      · exact ⟨_, List.mem_singleton.mp h,
          .voided (Table.find?_mem (Db.invoice?_some.mp found).1)⟩
    · cases h

/-- An invoice after a call is one from before it, or one that it wrote. -/
theorem InvoicingRequest.mem_commit {S : Server} {db : Db} {r : InvoicingRequest} {i : Invoice}
    (h : i ∈ (r.commit S db).invoices.rows) :
    i ∈ db.invoices.rows ∨ Wrote S db r.ctx r.queueUp r.call i := by
  have own : ∀ w ∈ r.rows S db, ∃ i, w = .invoice i := fun w hw =>
    let ⟨i, same, _⟩ := rows_wrote hw
    ⟨i, same⟩
  rcases mem_written_invoices own h with old | new
  · exact .inl old
  · obtain ⟨i', same, wrote⟩ := rows_wrote new
    cases same
    exact .inr wrote

end Dormitory
