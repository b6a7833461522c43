import Dormitory.Growth

/-!
# Idempotency keys

What a second POST under a used key gets. `create` looks its key up only after
the guards on the invoice, and hands back whatever payment it finds there: the
key's payment is never looked at to see whose it is or what it was for.
-/

namespace Dormitory
open Txn

namespace PaymentService

/-- What a `create` that returned found and left, on a quiet database. -/
theorem create_returned (S : Server) (queueUp : Nat → Bool) (ctx : Ctx) {db : Db} {newId : Id}
    {input : CreatePaymentInput} {key : String} {p : Payment}
    (h : (Prog.serve (engine S) queueUp db (create ctx newId input key)).answer = .ok p) :
    ∃ inv, db.invoice? ctx.companyId input.invoiceId = some inv ∧ refusal inv input = none ∧
      (db.paymentByKey? ctx.companyId key = some p ∧
        createdRows ctx.companyId db newId input key = [] ∨
        db.payments.find? newId = none ∧ db.paymentByKey? ctx.companyId key = none ∧
          p = pendingRow ctx newId inv input key ∧
          createdRows ctx.companyId db newId input key = [.payment p]) := by
  unfold Prog.serve at h
  cases found : db.invoice? ctx.companyId input.invoiceId with
  | none =>
    obtain ⟨_, run⟩ := create_missing S ctx ⟨fun _ => db, queueUp⟩ newId input key 0 [] found
    rw [run] at h
    cases h
  | some inv =>
    cases allowed : refusal inv input with
    | some err =>
      obtain ⟨_, run⟩ := create_refused S ctx ⟨fun _ => db, queueUp⟩
        newId input key 0 [] found allowed
      rw [run] at h
      cases h
    | none =>
      refine ⟨inv, rfl, allowed, ?_⟩
      cases known : db.paymentByKey? ctx.companyId key with
      | some r =>
        obtain ⟨_, run⟩ := create_replay S ctx ⟨fun _ => db, queueUp⟩ newId input key 0 [] found
          allowed known
        rw [run] at h
        cases h
        left
        simp [createdRows, found, known]
      | none =>
        right
        obtain ⟨tr, run⟩ := create_unknown S ctx ⟨fun _ => db, queueUp⟩ newId input key 0 [] found
          allowed known
        rw [run] at h
        have insert := createPayment_eq S db (pendingRow ctx newId inv input key)
        have unused : db.paymentByKey? (pendingRow ctx newId inv input key).companyId
          (pendingRow ctx newId inv input key).idempotencyKey = none := known
        have id : (pendingRow ctx newId inv input key).id = newId := rfl
        cases fresh : db.payments.find? newId with
        | none =>
          have accepted : S.createPayment (pendingRow ctx newId inv input key) db =
              .ok ([.payment (pendingRow ctx newId inv input key)],
                pendingRow ctx newId inv input key) := by
            simp [insert, unused, id, fresh]
          obtain ⟨_, run⟩ := insertOnce_accepted S ctx ⟨fun _ => db, queueUp⟩ _ (0 + 2) tr accepted
          rw [run] at h
          cases h
          simp [createdRows, found, allowed, known, fresh]
        | some taken =>
          have refused : S.createPayment (pendingRow ctx newId inv input key) db =
              .error (.prisma "P2002" (S.report ["id"])) := by
            simp [insert, id, fresh]
          obtain ⟨tr', run⟩ := insertOnce_refused S ctx ⟨fun _ => db, queueUp⟩ _ (0 + 2) tr refused
          obtain ⟨_, m, last⟩ := existingOrRethrow_answer S ctx ⟨fun _ => db, queueUp⟩ (0 + 2 + 1)
            tr'
            key (.prisma "P2002" (S.report ["id"])) [("idempotent_payment_create", [])]
          have hkey : (pendingRow ctx newId inv input key).idempotencyKey = key := rfl
          rw [run, hkey, last] at h
          simp [known] at h

/-- Once a `create` has returned `p`, the key leads to `p` and the invoice is
past its draft. -/
theorem create_settles (S : Server) (queueUp : Nat → Bool) (ctx : Ctx) {db : Db} {newId : Id}
    {input : CreatePaymentInput} {key : String} {p : Payment}
    (h : (Prog.serve (engine S) queueUp db (create ctx newId input key)).answer = .ok p) :
    let db' := (Prog.serve (engine S) queueUp db (create ctx newId input key)).commit (engine S) db
    db'.paymentByKey? ctx.companyId key = some p ∧ 0 < input.amount.units ∧
      ∃ inv, db'.invoice? ctx.companyId input.invoiceId = some inv ∧ inv.status ≠ .draft := by
  intro db'
  obtain ⟨inv, found, allowed, path⟩ := create_returned S queueUp ctx h
  obtain ⟨draft, -, amount⟩ := refusal_none allowed
  have written : db' = (createdRows ctx.companyId db newId input key).foldl Row.apply db :=
    congrArg (List.foldl Row.apply db) (create_written S queueUp ctx db newId input key 0 [])
  rcases path with ⟨known, nothing⟩ | ⟨fresh, unused, rfl, inserted⟩
  · rw [written, nothing]
    exact ⟨known, amount, inv, found, draft⟩
  · rw [written, inserted]
    refine ⟨?_, amount, inv, found, draft⟩
    have rows := Table.rows_put_new db.payments (r := pendingRow ctx newId inv input key) fresh
    unfold Db.paymentByKey? at unused ⊢
    simp only [List.foldl_cons, List.foldl_nil, Row.apply, rows, List.find?_append, unused]
    simp [pendingRow]

end PaymentService

namespace Demo

def oneInvoice : Db := db [invoice 1 11 (baht 100) .issued] []

/-- 100 baht in cash for invoice 1. -/
def cash : CreatePaymentInput := ⟨1, baht 100, .cash, none⟩

end Demo

/-! ## Replaying a POST -/

open PaymentService in
/-- **Replay stability.** After any history, the same `create` under the same
key hands back the same payment and inserts nothing, exactly when the invoice
has not been voided in the meantime. -/
theorem replay_stable (S : Server) (queueUp queueUp' : Nat → Bool) (ctx : Ctx) (db : Db)
    (newId newId' : Id) (input : CreatePaymentInput) (key : String) (p : Payment)
    (first : (Prog.serve (engine S) queueUp db (create ctx newId input key)).answer = .ok p)
    (others : List Request) :
    let db' := history S
      ((Prog.serve (engine S) queueUp db (create ctx newId input key)).commit (engine S) db) others
    let second := Prog.serve (engine S) queueUp' db' (create ctx newId' input key)
    (∃ q, second.answer = .ok q ∧ q.id = p.id ∧ second.written = []) ↔
      ∀ inv, db'.invoice? ctx.companyId input.invoiceId = some inv → inv.status ≠ .void := by
  intro db' second
  obtain ⟨stored, amount, inv, found, issued⟩ := create_settles S queueUp ctx first
  have grows := history_grows S ctx.companyId others
    ((Prog.serve (engine S) queueUp db (create ctx newId input key)).commit (engine S) db)
  obtain ⟨q, stored', same⟩ := grows.key key p stored
  obtain ⟨inv', found', later⟩ := grows.invoice input.invoiceId inv found
  have issued' : inv'.status ≠ .draft := fun e => issued (later.draft e)
  by_cases void : inv'.status = .void
  · have refused : refusal inv' input =
        some (.http .conflict "InvoiceVoid" "Cannot pay a voided invoice") := by
      simp [refusal, void]
    obtain ⟨_, run⟩ := create_refused S ctx ⟨fun _ => db', queueUp'⟩ newId' input key 0 [] found'
      refused
    have failed : second.answer = .error (.http .conflict "InvoiceVoid"
      "Cannot pay a voided invoice") :=
      congrArg Ending.answer run
    constructor
    · rintro ⟨q, answer, -⟩
      rw [failed] at answer
      cases answer
    · intro alive
      exact absurd void (alive inv' found')
  · have allowed : refusal inv' input = none := by
      have positive : ¬ input.amount.units ≤ 0 := by omega
      simp [refusal, issued', void, positive]
    obtain ⟨_, run⟩ := create_replay S ctx ⟨fun _ => db', queueUp'⟩ newId' input key 0 [] found'
      allowed stored'
    have replayed : second = _ := run
    constructor
    · intro _ i hi
      rw [found'] at hi
      cases hi
      exact void
    · intro _
      rw [replayed]
      exact ⟨q, rfl, same.id, rfl⟩

/-- A retry the next day, with the payment confirmed in between. -/
theorem replay_stable_confirmed :
    let first := Prog.serve (engine Demo.server) (fun _ => true) Demo.oneInvoice
      (PaymentService.create Demo.ctx 5 Demo.cash "key-of-payment-5")
    let db' := history Demo.server (first.commit (engine Demo.server) Demo.oneInvoice)
      [⟨Demo.ctx, fun _ => true, .confirm 0 5 7⟩]
    let second := Prog.serve (engine Demo.server) (fun _ => true) db'
      (PaymentService.create Demo.ctx 6 Demo.cash "key-of-payment-5")
    ∃ q, second.answer = .ok q ∧ q.id = 5 ∧ second.written = [] :=
  (replay_stable Demo.server (fun _ => true) (fun _ => true) Demo.ctx Demo.oneInvoice 5 6 Demo.cash
    "key-of-payment-5" _ rfl [⟨Demo.ctx, fun _ => true, .confirm 0 5 7⟩]).2 (by decide)

/-- The same retry after the invoice was voided raises `InvoiceVoid`. -/
theorem replay_after_void_raises :
    let first := Prog.serve (engine Demo.server) (fun _ => true) Demo.oneInvoice
      (PaymentService.create Demo.ctx 5 Demo.cash "key-of-payment-5")
    let db' := history Demo.server (first.commit (engine Demo.server) Demo.oneInvoice)
      [⟨Demo.ctx, fun _ => true, .void 1⟩]
    let second := Prog.serve (engine Demo.server) (fun _ => true) db'
      (PaymentService.create Demo.ctx 6 Demo.cash "key-of-payment-5")
    first.response.map Payment.id = some 5 ∧
      second.answer = .error (.http .conflict "InvoiceVoid" "Cannot pay a voided invoice") := by
  decide

/-! ## Whose payment a key leads to -/

namespace PaymentService

/-- A tenant's `create` passes its guards: the invoice is the tenant's when the
first statement reads it, and billable when the second one does. -/
def Admitted (c : Id) (db db' : Db) (input : CreatePaymentInput) (tenantId : Id) : Prop :=
  ∃ i i', db.invoice? c input.invoiceId = some i ∧ i.tenantId = tenantId ∧
    db'.invoice? c input.invoiceId = some i' ∧ refusal i' input = none

theorem createForTenant_runIn (S : Server) (ctx : Ctx) (env : Env billing) (newId : Id)
    (input : CreatePaymentInput) (key : String) (tenantId : Id) {i : Invoice}
    (found : (env.db 0).invoice? ctx.companyId input.invoiceId = some i)
    (own : i.tenantId = tenantId) :
    ∃ tr, (createForTenant ctx newId input key tenantId).runIn (engine S) env 0 {} =
      (create ctx newId input key).runIn (engine S) env 1 ⟨[], [], false, tr⟩ := by
  unfold createForTenant
  rw [runIn_prisma S ctx _ env _ 0 rfl]
  simp only [List.foldl_nil, List.append_nil, found, Option.filter, own, decide_true, if_true]
  exact ⟨_, rfl⟩

theorem createForTenant_foreign (S : Server) (ctx : Ctx) (env : Env billing) (newId : Id)
    (input : CreatePaymentInput) (key : String) (tenantId : Id)
    (foreign : ∀ i, (env.db 0).invoice? ctx.companyId input.invoiceId = some i →
      i.tenantId ≠ tenantId) :
    ((createForTenant ctx newId input key tenantId).runIn (engine S) env 0 {}).answer =
      .error (invalidInvoiceId input.invoiceId) := by
  unfold createForTenant
  rw [runIn_prisma S ctx _ env _ 0 rfl]
  simp only [List.foldl_nil, List.append_nil]
  cases found : (env.db 0).invoice? ctx.companyId input.invoiceId with
  | none => rfl
  | some i =>
    simp only [Option.filter, foreign i found, decide_false, Bool.false_eq_true, if_false]
    rfl

/-- A key that is taken when the INSERT runs decides the answer. -/
theorem create_known (S : Server) (reports : S.Reports ["company_id", "idempotency_key"])
    (ctx : Ctx) (env : Env billing) (newId : Id) (input : CreatePaymentInput) (key : String)
    (n : Nat)
    (tr : Seen) {i : Invoice} (found : (env.db n).invoice? ctx.companyId input.invoiceId = some i)
    (allowed : refusal i input = none) (fresh : (env.db (n + 2)).payments.find? newId = none)
    (lookup : Grows ctx.companyId (env.db (n + 1)) (env.db (n + 2)))
    (later : Grows ctx.companyId (env.db (n + 2)) (env.db (n + 3))) {r : Payment}
    (known : (env.db (n + 2)).paymentByKey? ctx.companyId key = some r) :
    ∃ q, ((create ctx newId input key).runIn (engine S) env n ⟨[], [], false, tr⟩).answer = .ok q ∧
      q.tenantId = r.tenantId ∧ q.invoiceId = r.invoiceId := by
  cases before : (env.db (n + 1)).paymentByKey? ctx.companyId key with
  | some q =>
    obtain ⟨_, run⟩ := create_replay S ctx env newId input key n tr found allowed before
    obtain ⟨r', known', same⟩ := lookup.key key q before
    rw [known] at known'
    cases known'
    exact ⟨q, by rw [run], same.tenantId.symm, same.invoiceId.symm⟩
  | none =>
    obtain ⟨tr₁, run⟩ := create_unknown S ctx env newId input key n tr found allowed before
    have refused : S.createPayment (pendingRow ctx newId i input key) (env.db (n + 2)) =
        .error (.prisma "P2002" (S.report ["company_id", "idempotency_key"])) := by
      have unused : (env.db (n + 2)).payments.find? (pendingRow ctx newId i input key).id = none :=
        fresh
      have taken : (env.db (n + 2)).paymentByKey? (pendingRow ctx newId i input key).companyId
        (pendingRow ctx newId i input key).idempotencyKey = some r := known
      simp [createPayment_eq, unused, taken]
    obtain ⟨tr₂, run'⟩ := insertOnce_refused S ctx env _ (n + 2) tr₁ refused
    obtain ⟨r', known', same⟩ := later.key key r known
    obtain ⟨_, m, last⟩ := existingOrRethrow_answer S ctx env (n + 2 + 1) tr₂ key
      (.prisma "P2002" (S.report ["company_id", "idempotency_key"]))
        [("idempotent_payment_create", [])]
    have hkey : (pendingRow ctx newId i input key).idempotencyKey = key := rfl
    refine ⟨r', ?_, same.tenantId, same.invoiceId⟩
    rw [run, run', hkey, last]
    simp [recognised reports, known']

/-- A key that is free when the INSERT runs leads to the new row. -/
theorem create_own (S : Server) (ctx : Ctx) (env : Env billing) (newId : Id)
    (input : CreatePaymentInput) (key : String) (n : Nat) (tr : Seen) {i : Invoice}
    (found : (env.db n).invoice? ctx.companyId input.invoiceId = some i)
    (allowed : refusal i input = none) (fresh : (env.db (n + 2)).payments.find? newId = none)
    (lookup : Grows ctx.companyId (env.db (n + 1)) (env.db (n + 2)))
    (unused : (env.db (n + 2)).paymentByKey? ctx.companyId key = none) :
    ((create ctx newId input key).runIn (engine S) env n ⟨[], [], false, tr⟩).answer =
      .ok (pendingRow ctx newId i input key) := by
  have before : (env.db (n + 1)).paymentByKey? ctx.companyId key = none := by
    cases known : (env.db (n + 1)).paymentByKey? ctx.companyId key with
    | none => rfl
    | some q =>
      obtain ⟨_, known', -⟩ := lookup.key key q known
      rw [unused] at known'
      cases known'
  obtain ⟨tr₁, run⟩ := create_unknown S ctx env newId input key n tr found allowed before
  have accepted : S.createPayment (pendingRow ctx newId i input key) (env.db (n + 2)) =
      .ok ([.payment (pendingRow ctx newId i input key)], pendingRow ctx newId i input key) := by
    have free : (env.db (n + 2)).payments.find? (pendingRow ctx newId i input key).id = none :=
      fresh
    have unused' : (env.db (n + 2)).paymentByKey? (pendingRow ctx newId i input key).companyId
      (pendingRow ctx newId i input key).idempotencyKey = none := unused
    simp [createPayment_eq, free, unused']
  obtain ⟨_, run'⟩ := insertOnce_accepted S ctx env _ (n + 2) tr₁ accepted
  rw [run, run']

end PaymentService

open PaymentService in
/-- **A tenant gets a payment of its own**, exactly when the call is refused or
the payment that holds the key is the tenant's, for that invoice. Any requests
may be served before the call and between its statements. -/
theorem tenant_create_returns_own (S : Server)
    (reports : S.Reports ["company_id", "idempotency_key"])
    (queueUp : Nat → Bool) (ctx : Ctx) (db : Db) (others : Nat → List Request) (newId : Id)
    (input : CreatePaymentInput) (key : String) (tenantId : Id)
    (fresh : (meanwhile S db others 3).payments.find? newId = none) :
    let env : Env billing := ⟨meanwhile S db others, queueUp⟩
    (∀ p,
      ((createForTenant ctx newId input key tenantId).runIn (engine S) env 0 {}).answer = .ok p →
      p.tenantId = tenantId ∧ p.invoiceId = input.invoiceId) ↔
    (¬ Admitted ctx.companyId (env.db 0) (env.db 1) input tenantId ∨
      ∀ r, (env.db 3).paymentByKey? ctx.companyId key = some r →
        r.tenantId = tenantId ∧ r.invoiceId = input.invoiceId) := by
  intro env
  have grows : ∀ n k, Grows ctx.companyId (env.db n) (env.db (n + k)) :=
    meanwhile_grows S ctx.companyId db others
  by_cases admitted : Admitted ctx.companyId (env.db 0) (env.db 1) input tenantId
  · obtain ⟨i, i', found, own, found', allowed⟩ := admitted
    obtain ⟨tr, run⟩ := createForTenant_runIn S ctx env newId input key tenantId found own
    have admitted : Admitted ctx.companyId (env.db 0) (env.db 1) input tenantId :=
      ⟨i, i', found, own, found', allowed⟩
    simp only [admitted, not_true_eq_false, false_or, run]
    cases holder : (env.db 3).paymentByKey? ctx.companyId key with
    | some r =>
      obtain ⟨q, answer, tenant, invoice⟩ := create_known S reports ctx env newId input key 1 tr
        found'
        allowed fresh (grows 2 1) (grows 3 1) holder
      rw [answer]
      simp [tenant, invoice]
    | none =>
      have answer := create_own S ctx env newId input key 1 tr found' allowed fresh (grows 2 1)
        holder
      rw [answer]
      obtain ⟨j, found'', same⟩ := (grows 0 1).invoice _ i found
      rw [found'] at found''
      cases found''
      have tenant : i'.tenantId = tenantId := same.tenantId.trans own
      simp [pendingRow, tenant, Db.invoice?_id found']
  · simp only [admitted, not_false_eq_true, true_or, iff_true]
    intro p answer
    exfalso
    by_cases own : ∃ i, (env.db 0).invoice? ctx.companyId input.invoiceId = some i ∧
        i.tenantId = tenantId
    · obtain ⟨i, found, own⟩ := own
      obtain ⟨tr, run⟩ := createForTenant_runIn S ctx env newId input key tenantId found own
      obtain ⟨i', found', -⟩ := (grows 0 1).invoice _ i found
      rw [run] at answer
      cases refused : refusal i' input with
      | none => exact admitted ⟨i, i', found, own, found', refused⟩
      | some err =>
        obtain ⟨_, run'⟩ := create_refused S ctx env newId input key 1 tr found' refused
        rw [run'] at answer
        cases answer
    · rw [createForTenant_foreign S ctx env newId input key tenantId
        fun i found e => own ⟨i, found, e⟩] at answer
      cases answer

/-- A tenant's first payment under a key of its own. -/
theorem tenant_create_returns_own_unused :
    let e := (PaymentService.createForTenant Demo.ctx 6 Demo.cash "key-of-payment-6" 11).runIn
      (engine Demo.server) ⟨meanwhile Demo.server Demo.oneInvoice fun _ => [], fun _ => true⟩ 0 {}
    e.response.map Payment.id = some 6 ∧
      ∀ p, e.answer = .ok p → p.tenantId = 11 ∧ p.invoiceId = 1 :=
  ⟨rfl, (tenant_create_returns_own Demo.server (.inl rfl) (fun _ => true) Demo.ctx Demo.oneInvoice
    (fun _ => []) 6 Demo.cash "key-of-payment-6" 11 rfl).2 (.inr (by decide))⟩

/-- Tenant 12 pays its invoice under the key tenant 11 has used: it is handed
tenant 11's payment. -/
theorem shared_key_returns_foreign_payment :
    let db := history Demo.server
      (Demo.db [Demo.invoice 1 11 (Demo.baht 100) .issued, Demo.invoice 2 12 (Demo.baht 80) .issued]
        [])
      [⟨Demo.ctx, fun _ => true, .createForTenant 5 Demo.cash "key-of-payment-5" 11⟩]
    let e := Prog.serve (engine Demo.server) (fun _ => true) db
      (PaymentService.createForTenant Demo.ctx 6 { Demo.cash with invoiceId := 2 }
        "key-of-payment-5" 12)
    e.response.map (fun p => (p.id, p.tenantId, p.invoiceId)) = some (5, 11, 1) := by
  decide

end Dormitory
