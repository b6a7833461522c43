import Dormitory.InvoiceService

/-!
# What one call commits

The billing calls, each executed alone: `BillingCall.writes` says in one
expression which rows a call commits on a database, and `serve_written` that
the service's program commits exactly those. `create` is also run against a
changing database, for the lookups that another request's commit can reach.
-/

namespace Dormitory
open Txn

/-- A savepoint stack of the sessions below. -/
abbrev Saves := List (String × List Row)

abbrev Seen := List (Statement × Db)

namespace PaymentService

section create
variable (S : Server) (ctx : Ctx) (env : Env billing) (newId : Id) (input : CreatePaymentInput)
  (idempotencyKey : String) (n : Nat) (tr : Seen)

theorem create_missing (missing : (env.db n).invoice? ctx.companyId input.invoiceId = none) :
    ∃ tr', (create ctx newId input idempotencyKey).runIn (engine S) env n ⟨[], [], false, tr⟩ =
      ⟨.error (invalidInvoiceId input.invoiceId), ⟨[], [], false, tr'⟩, n + 1⟩ := by
  unfold create
  rw [runIn_prisma S ctx _ env _ n rfl]
  simp only [List.foldl_nil, List.append_nil, missing]
  exact ⟨_, rfl⟩

theorem create_refused {inv : Invoice} {err : Failure}
    (found : (env.db n).invoice? ctx.companyId input.invoiceId = some inv)
    (refused : refusal inv input = some err) :
    ∃ tr', (create ctx newId input idempotencyKey).runIn (engine S) env n ⟨[], [], false, tr⟩ =
      ⟨.error err, ⟨[], [], false, tr'⟩, n + 1⟩ := by
  unfold create
  rw [runIn_prisma S ctx _ env _ n rfl]
  simp only [List.foldl_nil, List.append_nil, found, refused]
  exact ⟨_, rfl⟩

variable {inv : Invoice} (found : (env.db n).invoice? ctx.companyId input.invoiceId = some inv)
  (allowed : refusal inv input = none)

include found allowed in
theorem create_replay {r : Payment}
    (known : (env.db (n + 1)).paymentByKey? ctx.companyId idempotencyKey = some r) :
    ∃ tr', (create ctx newId input idempotencyKey).runIn (engine S) env n ⟨[], [], false, tr⟩ =
      ⟨.ok r, ⟨[], [], false, tr'⟩, n + 2⟩ := by
  unfold create
  rw [runIn_prisma S ctx _ env _ n rfl]
  simp only [List.foldl_nil, found, allowed]
  rw [runIn_prisma S ctx _ env _ (n + 1) rfl]
  simp only [List.append_nil, List.foldl_nil, known]
  exact ⟨_, rfl⟩

include found allowed in
/-- Past the lookup, `create` is its guarded INSERT. -/
theorem create_unknown
    (unknown : (env.db (n + 1)).paymentByKey? ctx.companyId idempotencyKey = none) :
    ∃ tr', (create ctx newId input idempotencyKey).runIn (engine S) env n ⟨[], [], false, tr⟩ =
      (insertOnce ctx (pendingRow ctx newId inv input idempotencyKey)).runIn (engine S) env (n + 2)
        ⟨[], [("idempotent_payment_create", [])], false, tr'⟩ := by
  unfold create
  rw [runIn_prisma S ctx _ env _ n rfl]
  simp only [List.foldl_nil, found, allowed]
  rw [runIn_prisma S ctx _ env _ (n + 1) rfl]
  simp only [List.append_nil, List.foldl_nil, unknown]
  exact ⟨_, rfl⟩

end create

section insertOnce
variable (S : Server) (ctx : Ctx) (env : Env billing) (row : Payment) (n : Nat) (tr : Seen)

theorem insertOnce_accepted
    (accepted : S.createPayment row (env.db n) = .ok ([.payment row], row)) :
    ∃ tr', (insertOnce ctx row).runIn (engine S) env n
        ⟨[], [("idempotent_payment_create", [])], false, tr⟩ =
      ⟨.ok row, ⟨[.payment row], [], false, tr'⟩, n + 1⟩ := by
  have hr : S.run ctx.companyId (.paymentCreate row) (([] : List Row).foldl Row.apply (env.db n)) =
    .ok ([.payment row], row) := accepted
  unfold insertOnce
  rw [Prog.runIn_attempt, runIn_prisma S ctx _ env _ n hr]
  exact ⟨_, rfl⟩

/-- A refused INSERT goes back to the savepoint, which mends the transaction. -/
theorem insertOnce_refused {err : Failure} (refused : S.createPayment row (env.db n) = .error err) :
    ∃ tr', (insertOnce ctx row).runIn (engine S) env n
        ⟨[], [("idempotent_payment_create", [])], false, tr⟩ =
      (existingOrRethrow ctx row.idempotencyKey err).runIn (engine S) env (n + 1)
        ⟨[], [("idempotent_payment_create", [])], false, tr'⟩ := by
  have hr : S.run ctx.companyId (.paymentCreate row) (([] : List Row).foldl Row.apply (env.db n)) =
    .error err := refused
  unfold insertOnce
  rw [Prog.runIn_attempt, runIn_prisma_error S ctx _ env _ n hr]
  exact ⟨_, rfl⟩

/-- The last lookup of a lost race. -/
theorem existingOrRethrow_answer (idempotencyKey : String) (err : Failure) (sv : Saves) :
    ∃ tr' m, (existingOrRethrow ctx idempotencyKey err).runIn (engine S) env n ⟨[], sv, false, tr⟩ =
      ⟨if isUniqueConstraintError err ["company_id", "idempotency_key"] then
          match (env.db n).paymentByKey? ctx.companyId idempotencyKey with
          | some existing => .ok existing
          | none => .error err
        else .error err, ⟨[], sv, false, tr'⟩, m⟩ := by
  unfold existingOrRethrow
  split
  · rw [runIn_prisma S ctx _ env _ n rfl]
    simp only [List.foldl_nil, List.append_nil]
    cases (env.db n).paymentByKey? ctx.companyId idempotencyKey <;> exact ⟨_, _, rfl⟩
  · exact ⟨_, _, rfl⟩

end insertOnce

theorem recognised {S : Server} (h : S.Reports ["company_id", "idempotency_key"]) :
    isUniqueConstraintError (.prisma "P2002" (S.report ["company_id", "idempotency_key"]))
      ["company_id", "idempotency_key"] = true := by
  rcases h with h | h <;> rw [h] <;> decide

/-- The notification reads and sends; it writes nothing. -/
theorem runIn_enqueuePaymentNotification {α : Type} (S : Server) (ctx : Ctx) (env : Env billing)
    (invoiceId : Id) (kind : Verdict) (f : Unit → Call α) (n : Nat) (ws : List Row) (sv : Saves)
    (tr : Seen) :
    ∃ tr' m, (enqueuePaymentNotification ctx invoiceId kind >>= f).runIn (engine S) env n
        ⟨ws, sv, false, tr⟩ =
      (f ()).runIn (engine S) env m ⟨ws, sv, false, tr'⟩ := by
  unfold enqueuePaymentNotification
  rw [Prog.bind_assoc, runIn_prisma S ctx _ env _ n rfl, Prog.bind_assoc,
    runIn_prisma S ctx _ env _ (n + 1) rfl]
  simp only [List.append_nil]
  split
  · cases kind with
    | approved =>
      simp only [NotificationService.enqueuePaymentApproved, NotificationService.enqueue_eq,
        Prog.bind_send, Prog.bind_ret, Prog.runIn_send]
      exact ⟨_, _, rfl⟩
    | rejected reason =>
      simp only [NotificationService.enqueuePaymentRejected, NotificationService.enqueue_eq,
        Prog.bind_send, Prog.bind_ret, Prog.runIn_send]
      exact ⟨_, _, rfl⟩
  · exact ⟨_, _, rfl⟩

/-- The invoice row that the rollup writes on a database, if any. -/
def rollupRows (c : Id) (db : Db) (invoiceId : Id) : List Row :=
  match db.invoice? c invoiceId with
  | none => []
  | some invoice =>
    if invoice.status = .void then []
    else match nextStatus invoice.total (db.confirmedPayments c invoiceId) with
      | none => []
      | some next =>
        if next = invoice.status then []
        else [.invoice (InvoicePatch.apply { status := next } invoice)]

theorem runIn_recomputeInvoiceStatus {α : Type} (S : Server) (ctx : Ctx) (queueUp : Nat → Bool)
    (db : Db) (invoiceId : Id) (f : Unit → Call α) (n : Nat) (ws : List Row) (sv : Saves)
    (tr : Seen) :
    ∃ tr' m, (recomputeInvoiceStatus ctx invoiceId >>= f).runIn (engine S) ⟨fun _ => db, queueUp⟩ n
        ⟨ws, sv, false, tr⟩ =
      (f ()).runIn (engine S) ⟨fun _ => db, queueUp⟩ m
        ⟨ws ++ rollupRows ctx.companyId (ws.foldl Row.apply db) invoiceId, sv, false, tr'⟩ := by
  unfold recomputeInvoiceStatus rollupRows
  rw [Prog.bind_assoc, runIn_prisma S ctx _ _ _ n rfl]
  simp only [List.append_nil]
  cases found : (ws.foldl Row.apply db).invoice? ctx.companyId invoiceId with
  | none =>
    simp only [List.append_nil]
    exact ⟨_, _, rfl⟩
  | some invoice =>
    by_cases gone : invoice.status = .void
    · simp only [gone, if_true, List.append_nil]
      exact ⟨_, _, rfl⟩
    · simp only [gone, if_false]
      rw [Prog.bind_assoc, runIn_prisma S ctx _ _ _ (n + 1) rfl]
      simp only [List.append_nil]
      cases calls : nextStatus invoice.total
          ((ws.foldl Row.apply db).confirmedPayments ctx.companyId invoiceId) with
      | none =>
        simp only [List.append_nil]
        exact ⟨_, _, rfl⟩
      | some next =>
        by_cases same : next = invoice.status
        · simp only [same, if_true, List.append_nil]
          exact ⟨_, _, rfl⟩
        · simp only [same, if_false]
          have hr : S.run ctx.companyId (.invoiceUpdate invoiceId { status := next })
              (ws.foldl Row.apply db) =
              .ok ([.invoice (InvoicePatch.apply { status := next } invoice)],
                InvoicePatch.apply { status := next } invoice) := by
            simp [Server.run, found]
          rw [Prog.bind_assoc, runIn_prisma S ctx _ _ _ (n + 2) hr]
          exact ⟨_, _, rfl⟩

/-- The payment row that `confirm` or `reject` writes, when it writes. -/
def decidedRow (c : Id) (db : Db) (id : Id) (patch : PaymentPatch) : Option Payment :=
  match db.payment? c id with
  | some p =>
    if p.status = .pending ∧ ∀ u ∈ patch.confirmedByUserId, (db.users.find? u).isSome then
      some (patch.apply p)
    else none
  | none => none

def confirmPatch (now : Instant) (confirmedByUserId : Id) : PaymentPatch :=
  { status := .confirmed, confirmedAt := some now, confirmedByUserId := some confirmedByUserId }

def rejectPatch (rejectionReason : String) : PaymentPatch :=
  { status := .rejected, rejectionReason := some rejectionReason }

theorem run_paymentUpdate (S : Server) {c id : Id} {db : Db} {patch : PaymentPatch} {p : Payment}
    (found : db.payment? c id = some p)
    (known : ∀ u ∈ patch.confirmedByUserId, (db.users.find? u).isSome) :
    S.run c (.paymentUpdate id patch) db = .ok ([.payment (patch.apply p)], patch.apply p) := by
  simp only [Server.run, Server.updatePayment, found]
  exact if_pos known

theorem run_paymentUpdate_error (S : Server) {c id : Id} {db : Db} {patch : PaymentPatch}
    {p : Payment} (found : db.payment? c id = some p)
    (unknown : ¬ ∀ u ∈ patch.confirmedByUserId, (db.users.find? u).isSome) :
    S.run c (.paymentUpdate id patch) db = .error .foreignKey := by
  simp only [Server.run, Server.updatePayment, found]
  exact if_neg unknown

section serve
variable (S : Server) (queueUp : Nat → Bool) (ctx : Ctx) (db : Db)

/-- The rows that a decision and the rollup after it write. -/
def confirmRows (c : Id) (db : Db) (now : Instant) (id confirmedByUserId : Id) : List Row :=
  match decidedRow c db id (confirmPatch now confirmedByUserId) with
  | some p => .payment p :: rollupRows c (Row.apply db (.payment p)) p.invoiceId
  | none => []

def rejectRows (c : Id) (db : Db) (id : Id) (rejectionReason : String) : List Row :=
  match decidedRow c db id (rejectPatch rejectionReason) with
  | some p => [.payment p]
  | none => []

theorem confirm_written (now : Instant) (id confirmedByUserId : Id) :
    (Prog.serve (engine S) queueUp db (confirm ctx now id confirmedByUserId)).written =
      confirmRows ctx.companyId db now id confirmedByUserId := by
  unfold Prog.serve confirm getById confirmRows decidedRow
  rw [Prog.bind_assoc, runIn_prisma S ctx _ _ _ 0 rfl]
  simp only [List.foldl_nil, List.append_nil]
  cases found : db.payment? ctx.companyId id with
  | none => rfl
  | some p =>
    simp only [Prog.pure_eq, Prog.bind_ret]
    cases status : p.status with
    | confirmed => simp [Ending.written]
    | rejected => simp [Ending.written, Prog.throw]
    | pending =>
      simp only [true_and]
      change Ending.written (Prog.runIn (engine S) _
        (prisma ctx (.paymentUpdate id (confirmPatch now confirmedByUserId)) >>= _) _ _) = _
      by_cases known : ∀ u ∈ (confirmPatch now confirmedByUserId).confirmedByUserId,
          (db.users.find? u).isSome
      · have hr := @run_paymentUpdate S ctx.companyId id (([] : List Row).foldl Row.apply db)
          _ p found known
        rw [runIn_prisma S ctx _ ⟨fun _ => db, queueUp⟩ _ (0 + 1) hr]
        obtain ⟨tr, m, rollup⟩ := runIn_recomputeInvoiceStatus S ctx queueUp db
          ((confirmPatch now confirmedByUserId).apply p).invoiceId
          (fun _ => do
            enqueuePaymentNotification ctx ((confirmPatch now confirmedByUserId).apply p).invoiceId
              .approved
            Prog.ret ((confirmPatch now confirmedByUserId).apply p))
          (0 + 1 + 1) ([] ++ [.payment ((confirmPatch now confirmedByUserId).apply p)]) [] _
        rw [rollup]
        obtain ⟨tr', m', sent⟩ := runIn_enqueuePaymentNotification S ctx ⟨fun _ => db, queueUp⟩
          ((confirmPatch now confirmedByUserId).apply p).invoiceId .approved
          (fun _ => Prog.ret ((confirmPatch now confirmedByUserId).apply p)) m _ [] tr
        rw [sent, if_pos known]
        rfl
      · have hr := @run_paymentUpdate_error S ctx.companyId id (([] : List Row).foldl Row.apply db)
          _ p
          found known
        rw [runIn_prisma_error S ctx _ ⟨fun _ => db, queueUp⟩ _ (0 + 1) hr, if_neg known]
        rfl

theorem reject_written (id : Id) (rejectionReason : String) :
    (Prog.serve (engine S) queueUp db (reject ctx id rejectionReason)).written =
      rejectRows ctx.companyId db id rejectionReason := by
  unfold Prog.serve reject getById rejectRows decidedRow
  rw [Prog.bind_assoc, runIn_prisma S ctx _ _ _ 0 rfl]
  simp only [List.foldl_nil, List.append_nil]
  cases found : db.payment? ctx.companyId id with
  | none => rfl
  | some p =>
    simp only [Prog.pure_eq, Prog.bind_ret]
    cases status : p.status with
    | confirmed => simp [Ending.written, Prog.throw]
    | rejected => simp [Ending.written]
    | pending =>
      have known : ∀ u ∈ (rejectPatch rejectionReason).confirmedByUserId,
          (db.users.find? u).isSome := by
        intro u hu
        cases hu
      simp only [true_and]
      change Ending.written (Prog.runIn (engine S) _
        (prisma ctx (.paymentUpdate id (rejectPatch rejectionReason)) >>= _) _ _) = _
      have hr := @run_paymentUpdate S ctx.companyId id (([] : List Row).foldl Row.apply db)
        _ p found known
      rw [runIn_prisma S ctx _ ⟨fun _ => db, queueUp⟩ _ (0 + 1) hr]
      obtain ⟨tr, m, sent⟩ := runIn_enqueuePaymentNotification S ctx ⟨fun _ => db, queueUp⟩
        ((rejectPatch rejectionReason).apply p).invoiceId (.rejected rejectionReason)
        (fun _ => Prog.ret ((rejectPatch rejectionReason).apply p)) (0 + 1 + 1)
        ([] ++ [.payment ((rejectPatch rejectionReason).apply p)]) [] _
      rw [sent, if_pos known]
      rfl

/-- The payment row that `create` inserts, when it inserts. -/
def createdRows (c : Id) (db : Db) (newId : Id) (input : CreatePaymentInput)
    (idempotencyKey : String) : List Row :=
  match db.invoice? c input.invoiceId with
  | some inv =>
    if refusal inv input = none ∧ db.paymentByKey? c idempotencyKey = none ∧
        db.payments.find? newId = none then
      [.payment (pendingRow ⟨c⟩ newId inv input idempotencyKey)]
    else []
  | none => []

theorem createPayment_eq (row : Payment) :
    S.createPayment row db =
      if (db.payments.find? row.id).isNone ∧
          (db.paymentByKey? row.companyId row.idempotencyKey).isNone
      then .ok ([.payment row], row)
      else if (db.payments.find? row.id).isSome then .error (.prisma "P2002" (S.report ["id"]))
      else .error (.prisma "P2002" (S.report ["company_id", "idempotency_key"])) := by
  unfold Server.createPayment
  cases db.payments.find? row.id <;> cases db.paymentByKey? row.companyId row.idempotencyKey <;>
    simp

theorem create_written (newId : Id) (input : CreatePaymentInput) (idempotencyKey : String) (n : Nat)
    (tr : Seen) :
    ((create ctx newId input idempotencyKey).runIn (engine S) ⟨fun _ => db, queueUp⟩ n
      ⟨[], [], false, tr⟩).written = createdRows ctx.companyId db newId input idempotencyKey := by
  unfold createdRows
  cases found : db.invoice? ctx.companyId input.invoiceId with
  | none =>
    obtain ⟨_, run⟩ := create_missing S ctx ⟨fun _ => db, queueUp⟩ newId input idempotencyKey n tr
      found
    rw [run]
    rfl
  | some inv =>
    cases allowed : refusal inv input with
    | some err =>
      obtain ⟨_, run⟩ := create_refused S ctx ⟨fun _ => db, queueUp⟩ newId input idempotencyKey n
        tr found allowed
      simp [run, allowed, Ending.written]
    | none =>
      cases known : db.paymentByKey? ctx.companyId idempotencyKey with
      | some r =>
        obtain ⟨_, run⟩ := create_replay S ctx ⟨fun _ => db, queueUp⟩ newId input idempotencyKey n
          tr found allowed known
        simp [run, Ending.written]
      | none =>
        obtain ⟨tr₁, run⟩ := create_unknown S ctx ⟨fun _ => db, queueUp⟩
          newId input idempotencyKey n
          tr found allowed known
        rw [run]
        have insert := createPayment_eq S db (pendingRow ctx newId inv input idempotencyKey)
        have key : db.paymentByKey? (pendingRow ctx newId inv input idempotencyKey).companyId
          (pendingRow ctx newId inv input idempotencyKey).idempotencyKey = none := known
        have id : (pendingRow ctx newId inv input idempotencyKey).id = newId := rfl
        cases fresh : db.payments.find? newId with
        | none =>
          have accepted : S.createPayment (pendingRow ctx newId inv input idempotencyKey) db =
              .ok ([.payment (pendingRow ctx newId inv input idempotencyKey)],
                pendingRow ctx newId inv input idempotencyKey) := by
            simp [insert, key, id, fresh]
          obtain ⟨_, run⟩ := insertOnce_accepted S ctx ⟨fun _ => db, queueUp⟩ _ (n + 2) tr₁ accepted
          simp [run, allowed, Ending.written]
        | some taken =>
          have refused : S.createPayment (pendingRow ctx newId inv input idempotencyKey) db =
              .error (.prisma "P2002" (S.report ["id"])) := by
            simp [insert, id, fresh]
          obtain ⟨tr₂, run⟩ := insertOnce_refused S ctx ⟨fun _ => db, queueUp⟩ _ (n + 2) tr₁ refused
          obtain ⟨_, m, last⟩ := existingOrRethrow_answer S ctx ⟨fun _ => db, queueUp⟩
            (n + 2 + 1) tr₂ idempotencyKey (.prisma "P2002" (S.report ["id"]))
            [("idempotent_payment_create", [])]
          have hkey : (pendingRow ctx newId inv input idempotencyKey).idempotencyKey =
            idempotencyKey := rfl
          rw [run, hkey, last]
          simp only [Ending.written]
          split <;> simp

/-- The rows of a tenant's `create`: none unless the invoice is the tenant's. -/
def tenantCreatedRows (c : Id) (db : Db) (newId : Id) (input : CreatePaymentInput)
    (idempotencyKey : String) (tenantId : Id) : List Row :=
  match (db.invoice? c input.invoiceId).filter fun i => i.tenantId = tenantId with
  | some _ => createdRows c db newId input idempotencyKey
  | none => []

theorem createForTenant_written (newId : Id) (input : CreatePaymentInput) (idempotencyKey : String)
    (tenantId : Id) :
    (Prog.serve (engine S) queueUp db
      (createForTenant ctx newId input idempotencyKey tenantId)).written =
      tenantCreatedRows ctx.companyId db newId input idempotencyKey tenantId := by
  unfold Prog.serve createForTenant tenantCreatedRows
  rw [runIn_prisma S ctx _ _ _ 0 rfl]
  simp only [List.foldl_nil, List.append_nil]
  cases (db.invoice? ctx.companyId input.invoiceId).filter fun i => i.tenantId = tenantId with
  | none => rfl
  | some inv => exact create_written S queueUp ctx db newId input idempotencyKey _ _

end serve
end PaymentService

namespace InvoiceService

section serve
variable (S : Server) (queueUp : Nat → Bool) (ctx : Ctx) (db : Db)

theorem run_invoiceUpdate {c id : Id} {db : Db} {i : Invoice} (patch : InvoicePatch)
    (found : db.invoice? c id = some i) :
    S.run c (.invoiceUpdate id patch) db = .ok ([.invoice (patch.apply i)], patch.apply i) := by
  simp [Server.run, found]

/-- The columns `issue` sets on a draft, when the company can be paid. -/
def issuePatch (now : Instant) (company : Option Company) (total : Numeric 10 2) :
    Option InvoicePatch := do
  let promptPayId ← (← company).promptPayId
  if promptPayId = "" then none
  else match PromptPay.generatePromptPayPayload promptPayId (some total.toDecimal) with
    | .ok promptPayRef =>
      some { status := .issued, issueDate := some now, promptPayRef := some promptPayRef }
    | .error _ => none

def issueRows (c : Id) (db : Db) (now : Instant) (id : Id) : List Row :=
  match db.invoice? c id with
  | some i =>
    if i.status = .draft then
      match issuePatch now (db.company? c c) i.total with
      | some patch => [.invoice (patch.apply i)]
      | none => []
    else []
  | none => []

def voidRows (c : Id) (db : Db) (id : Id) : List Row :=
  match db.invoice? c id with
  | some i =>
    if i.status = .void ∨ i.status = .paid then []
    else [.invoice (InvoicePatch.apply { status := .void } i)]
  | none => []

theorem issue_written (now : Instant) (id : Id) :
    (Prog.serve (engine S) queueUp db (issue ctx now id)).written =
      issueRows ctx.companyId db now id := by
  unfold Prog.serve issue getById issueRows
  rw [Prog.bind_assoc, runIn_prisma S ctx _ _ _ 0 rfl]
  simp only [List.foldl_nil, List.append_nil]
  cases found : db.invoice? ctx.companyId id with
  | none => rfl
  | some i =>
    simp only [Prog.pure_eq, Prog.bind_ret]
    by_cases issued : i.status = .issued
    · simp [issued, Ending.written]
    · by_cases draft : i.status = .draft
      · simp only [draft, reduceCtorEq, if_false, ne_eq, not_true_eq_false, if_true]
        rw [runIn_prisma S ctx _ _ _ (0 + 1) rfl]
        simp only [List.foldl_nil, List.append_nil, issuePatch]
        cases db.company? ctx.companyId ctx.companyId with
        | none => rfl
        | some company =>
          cases configured : company.promptPayId with
          | none => simp [configured, Ending.written, Prog.throw]
          | some promptPayId =>
            by_cases empty : promptPayId = ""
            · simp [configured, empty, Ending.written, Prog.throw]
            · simp only [configured, empty, if_false, Option.bind_eq_bind, Option.bind_some]
              cases PromptPay.generatePromptPayPayload promptPayId (some i.total.toDecimal) with
              | error message => rfl
              | ok promptPayRef =>
                have hr := @run_invoiceUpdate S ctx.companyId id
                  (([] : List Row).foldl Row.apply db) i
                  { status := .issued, issueDate := some now, promptPayRef := some promptPayRef }
                    found
                simp only
                rw [runIn_prisma S ctx _ ⟨fun _ => db, queueUp⟩ _ (0 + 1 + 1) hr]
                simp only [NotificationService.enqueueInvoiceIssued, NotificationService.enqueue_eq,
                  Prog.bind_send, Prog.bind_ret, Prog.runIn_send]
                rfl
      · simp [issued, draft, Ending.written, Prog.throw]

theorem void_written (id : Id) :
    (Prog.serve (engine S) queueUp db (void ctx id)).written = voidRows ctx.companyId db id := by
  unfold Prog.serve void getById voidRows
  rw [Prog.bind_assoc, runIn_prisma S ctx _ _ _ 0 rfl]
  simp only [List.foldl_nil, List.append_nil]
  cases found : db.invoice? ctx.companyId id with
  | none => rfl
  | some i =>
    simp only [Prog.pure_eq, Prog.bind_ret]
    by_cases gone : i.status = .void
    · simp [gone, Ending.written]
    · by_cases paid : i.status = .paid
      · simp [paid, Ending.written, Prog.throw]
      · have hr := @run_invoiceUpdate S ctx.companyId id (([] : List Row).foldl Row.apply db) i
          { status := .void } found
        simp only [gone, paid, if_false, or_self]
        rw [← Prog.bind_pure (prisma ctx _),
          runIn_prisma S ctx _ ⟨fun _ => db, queueUp⟩ _ (0 + 1) hr]
        rfl

end serve
end InvoiceService

/-! ## Histories -/

/-- A call of the billing services, by anyone of the company. -/
inductive BillingCall where
  | create (newId : Id) (input : CreatePaymentInput) (idempotencyKey : String)
  | createForTenant (newId : Id) (input : CreatePaymentInput) (idempotencyKey : String)
    (tenantId : Id)
  | confirm (now : Instant) (id confirmedByUserId : Id)
  | reject (id : Id) (rejectionReason : String)
  | issue (now : Instant) (id : Id)
  | void (id : Id)

namespace BillingCall

/-- The committed state after the call, executed alone. -/
def commit (S : Server) (queueUp : Nat → Bool) (ctx : Ctx) (db : Db) : BillingCall → Db
  | create newId input key =>
    (Prog.serve (engine S) queueUp db (PaymentService.create ctx newId input key)).commit (engine S)
    db
  | createForTenant newId input key tenantId =>
    (Prog.serve (engine S) queueUp db
      (PaymentService.createForTenant ctx newId input key tenantId)).commit (engine S) db
  | confirm now id user =>
    (Prog.serve (engine S) queueUp db (PaymentService.confirm ctx now id user)).commit (engine S) db
  | reject id reason =>
    (Prog.serve (engine S) queueUp db (PaymentService.reject ctx id reason)).commit (engine S) db
  | issue now id =>
    (Prog.serve (engine S) queueUp db (InvoiceService.issue ctx now id)).commit (engine S) db
  | void id => (Prog.serve (engine S) queueUp db (InvoiceService.void ctx id)).commit (engine S) db

/-- The rows a call commits. -/
def rows (c : Id) (db : Db) : BillingCall → List Row
  | create newId input key => PaymentService.createdRows c db newId input key
  | createForTenant newId input key tenantId =>
    PaymentService.tenantCreatedRows c db newId input key tenantId
  | confirm now id user => PaymentService.confirmRows c db now id user
  | reject id reason => PaymentService.rejectRows c db id reason
  | issue now id => InvoiceService.issueRows c db now id
  | void id => InvoiceService.voidRows c db id

/-- **Each call commits its rows**, whatever the queue does. -/
theorem commit_eq (S : Server) (queueUp : Nat → Bool) (ctx : Ctx) (db : Db) (call : BillingCall) :
    call.commit S queueUp ctx db = (call.rows ctx.companyId db).foldl Row.apply db := by
  cases call with
  | create newId input key =>
    exact congrArg (List.foldl Row.apply db)
      (PaymentService.create_written S queueUp ctx db newId input key 0 [])
  | createForTenant newId input key tenantId =>
    exact congrArg (List.foldl Row.apply db)
      (PaymentService.createForTenant_written S queueUp ctx db newId input key tenantId)
  | confirm now id user =>
    exact congrArg (List.foldl Row.apply db)
      (PaymentService.confirm_written S queueUp ctx db now id user)
  | reject id reason =>
    exact congrArg (List.foldl Row.apply db)
      (PaymentService.reject_written S queueUp ctx db id reason)
  | issue now id =>
    exact congrArg (List.foldl Row.apply db) (InvoiceService.issue_written S queueUp ctx db now id)
  | void id =>
    exact congrArg (List.foldl Row.apply db) (InvoiceService.void_written S queueUp ctx db id)

end BillingCall

/-- A call with the company it is made in and the luck its jobs have. -/
structure Request where
  ctx : Ctx
  queueUp : Nat → Bool
  call : BillingCall

def Request.commit (S : Server) (db : Db) (r : Request) : Db := r.call.commit S r.queueUp r.ctx db

/-- The committed state after the requests, one at a time. -/
def history (S : Server) (db : Db) : List Request → Db
  | [] => db
  | r :: rs => history S (r.commit S db) rs

theorem history_append (S : Server) (db : Db) (rs rs' : List Request) :
    history S db (rs ++ rs') = history S (history S db rs) rs' := by
  induction rs generalizing db with
  | nil => rfl
  | cons r rs ih => exact ih _

/-- The committed states that a call meets when the requests `others n` are
served between its `n`-th and its next operation. -/
def meanwhile (S : Server) (db : Db) (others : Nat → List Request) : Nat → Db
  | 0 => db
  | n + 1 => history S (meanwhile S db others n) (others n)

end Dormitory
