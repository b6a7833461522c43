import Dormitory.AnnouncementService
import Dormitory.Growth
import Dormitory.Pipeline
import Dormitory.Txn.Jobs

/-!
# Pushes and commits

`issue`, `confirm`, `reject` and `createBroadcast` add their jobs from inside
the request's transaction, before the audit insert and the COMMIT. What a job
announces is then in a committed state as long as no request that has added a
job fails, and no worker takes a job of an open request.
-/

namespace Dormitory
open Txn NotificationService

/-- The calls that notify. -/
inductive Notifier where
  | issue (now : Instant) (id : Id)
  | confirm (now : Instant) (id confirmedByUserId : Id)
  | reject (id : Id) (rejectionReason : String)
  | createBroadcast (newId : Id) (input : CreateAnnouncementInput) (idempotencyKey : String)
      (actorUserId : Id)

def Db.announcement? (db : Db) (company id : Id) : Option Announcement :=
  (db.announcements.find? id).filter fun a => a.companyId = company

namespace Notifier

def handler (ctx : Ctx) : Notifier → Call (Payment ⊕ Invoice ⊕ Announcement)
  | issue now id => do return .inr (.inl (← InvoiceService.issue ctx now id))
  | confirm now id user => do return .inl (← PaymentService.confirm ctx now id user)
  | reject id reason => do return .inl (← PaymentService.reject ctx id reason)
  | createBroadcast newId input key user =>
    do return .inr (.inr (← AnnouncementService.createBroadcast ctx newId input key user))

/-- The change that the call's job `j` announces is in `db`. -/
def Announces (c : Id) : Notifier → Job → Db → Prop
  | issue _ id, j, db => ∃ i slug, db.invoice? c id = some i ∧ i.status = .issued ∧
    j = .invoice_issued c slug i.tenantId id i.period i.total.toString i.dueDate.isoDate
  | confirm _ id _, j, db => ∃ p slug tenantId period, db.payment? c id = some p ∧
    p.status = .confirmed ∧ j = .payment_approved c slug tenantId p.invoiceId period
  | reject id reason, j, db => ∃ p slug tenantId period, db.payment? c id = some p ∧
    p.status = .rejected ∧ p.rejectionReason = some reason ∧
    j = .payment_rejected c slug tenantId p.invoiceId period reason
  | createBroadcast newId _ key _, j, db => ∃ a slug tenantId n, db.announcement? c newId = some a ∧
    a.idempotencyKey = key ∧ j = .announcement c slug tenantId a.id a.title a.body n

theorem Announces.auditLog {c : Id} {v : Notifier} {j : Job} {db : Db} (h : v.Announces c j db)
    (r : AuditLog) : v.Announces c j (Row.apply db (.auditLog r)) := by
  cases v <;> exact h

end Notifier

/-- An authenticated request for one of these calls. -/
structure Mutation where
  http : HttpRequest
  user : Claims
  authenticated : http.user = some user
  auditId : Id
  does : Notifier

/-- The whole request, inside its transaction. -/
def Mutation.prog (m : Mutation) : Call (Payment ⊕ Invoice ⊕ Announcement) :=
  AuditLogInterceptor.intercept m.http m.auditId (m.does.handler ⟨m.user.companyId⟩)

/-! ## What one request owes -/

section owes
variable {S : Server} {P : Job → Db → Prop} {α β : Type} {ws : List Row} {sv : Saves} {tr : Seen}

/-- A statement of a program that has added no job yet: only its success needs
to be followed. -/
theorem ends_prisma (ctx : Ctx) (q : Query) {f : q.Ans → Call α}
    (rest : ∀ db ws' a tr', S.run ctx.companyId q (ws.foldl Row.apply db) = .ok (ws', a) →
      (f a).Ends (engine S) (Owes (engine S) P) ⟨ws ++ ws', sv, false, tr'⟩ []) :
    (prisma ctx q >>= f).Ends (engine S) (Owes (engine S) P) ⟨ws, sv, false, tr⟩ [] := by
  rw [prisma_bind]
  intro db _
  cases ran : S.run ctx.companyId q (ws.foldl Row.apply db) with
  | error e =>
    rw [exec_error S ctx q db (x := ⟨ws, sv, false, tr⟩) rfl ran]
    exact rfl
  | ok r =>
    rw [exec_ok S ctx q db (x := ⟨ws, sv, false, tr⟩) rfl ran]
    exact rest db r.1 r.2 _ ran

theorem ends_read (ctx : Ctx) (q : Query) {f : q.Ans → Call α}
    (reads : ∀ db, ∃ a, S.run ctx.companyId q db = .ok ([], a))
    (rest : ∀ a tr', (f a).Ends (engine S) (Owes (engine S) P) ⟨ws, sv, false, tr'⟩ []) :
    (prisma ctx q >>= f).Ends (engine S) (Owes (engine S) P) ⟨ws, sv, false, tr⟩ [] := by
  refine ends_prisma ctx q fun db ws' a tr' ran => ?_
  obtain ⟨b, read⟩ := reads (ws.foldl Row.apply db)
  rw [read] at ran
  cases ran
  rw [List.append_nil]
  exact rest _ tr'

theorem ends_enqueue {Q : Except Failure α → Session billing → List Job → Prop} {j : Job}
    {js : List Job} {x : Session billing} {f : Unit → Call α}
    (added : (f ()).Ends (engine S) Q x (js ++ [j])) (lost : (f ()).Ends (engine S) Q x js) :
    (enqueue j >>= f).Ends (engine S) Q x js := by
  rw [enqueue_eq]
  exact ⟨added, lost⟩

/-- Whatever is committed below them, the writes show `R`. -/
def Show (R : Db → Prop) (ws : List Row) : Prop := ∀ db, R (ws.foldl Row.apply db)

theorem Show.append {R : Db → Prop} (h : Show R ws) {ws' : List Row}
    (keep : ∀ db, R db → R (ws'.foldl Row.apply db)) : Show R (ws ++ ws') := by
  intro db
  rw [List.foldl_append]
  exact keep _ (h db)

/-- The rollup writes at most the invoice. -/
theorem ends_recomputeInvoiceStatus {R : Db → Prop} (ctx : Ctx) (invoiceId : Id)
    {f : Unit → Call α} (keep : ∀ db r, R db → R (Row.apply db (.invoice r)))
    (rest : ∀ ws' tr', Show R ws' →
      (f ()).Ends (engine S) (Owes (engine S) P) ⟨ws', sv, false, tr'⟩ [])
    (h : Show R ws) :
    (PaymentService.recomputeInvoiceStatus ctx invoiceId >>= f).Ends (engine S)
      (Owes (engine S) P) ⟨ws, sv, false, tr⟩ [] := by
  unfold PaymentService.recomputeInvoiceStatus
  rw [Prog.bind_assoc]
  refine ends_read ctx _ (fun _ => ⟨_, rfl⟩) fun invoice tr' => ?_
  split
  · exact rest ws _ h
  · split
    · exact rest ws _ h
    · rw [Prog.bind_assoc]
      refine ends_read ctx _ (fun _ => ⟨_, rfl⟩) fun confirmed tr' => ?_
      split
      · exact rest ws _ h
      · split
        · exact rest ws _ h
        · rw [Prog.bind_assoc]
          refine ends_prisma ctx _ fun db ws' i tr' ran => ?_
          simp only [Server.run] at ran
          split at ran
          · cases ran
            exact rest _ _ (h.append fun db => keep db _)
          · cases ran

/-- The notification of a decision sends one job at most. -/
theorem ends_enqueuePaymentNotification {R : Db → Prop} (ctx : Ctx) (invoiceId : Id)
    (kind : PaymentService.Verdict) {f : Unit → Call α}
    (told : ∀ slug tenantId period db, R db → P (match kind with
      | .approved => .payment_approved ctx.companyId slug tenantId invoiceId period
      | .rejected reason =>
        .payment_rejected ctx.companyId slug tenantId invoiceId period reason) db)
    (rest : ∀ tr' js, (∀ j ∈ js, Show (P j) ws) →
      (f ()).Ends (engine S) (Owes (engine S) P) ⟨ws, sv, false, tr'⟩ js)
    (h : Show R ws) :
    (PaymentService.enqueuePaymentNotification ctx invoiceId kind >>= f).Ends (engine S)
      (Owes (engine S) P) ⟨ws, sv, false, tr⟩ [] := by
  unfold PaymentService.enqueuePaymentNotification
  rw [Prog.bind_assoc]
  refine ends_read ctx _ (fun _ => ⟨_, rfl⟩) fun invoice tr' => ?_
  rw [Prog.bind_assoc]
  refine ends_read ctx _ (fun _ => ⟨_, rfl⟩) fun company tr' => ?_
  have lost : ∀ j ∈ ([] : List Job), Show (P j) ws := fun _ hj => by cases hj
  split
  · cases kind with
    | approved =>
      refine ends_enqueue (rest _ _ fun j hj db => ?_) (rest _ _ lost)
      cases List.mem_singleton.1 hj
      exact told _ _ _ _ (h db)
    | rejected reason =>
      refine ends_enqueue (rest _ _ fun j hj db => ?_) (rest _ _ lost)
      cases List.mem_singleton.1 hj
      exact told _ _ _ _ (h db)
  · exact rest _ _ lost

/-- One job for each of the recipients that are left. -/
theorem ends_enqueueAll {x : Session billing} {a : α} (job : Id → Job) (sound : x.broken = false)
    (told : ∀ t, Show (P (job t)) x.writes) (ids : List Id) :
    ∀ js, (∀ j ∈ js, Show (P j) x.writes) →
      ((ids.foldr (fun t rest => do enqueue (job t); rest) (pure ()) : Call Unit) >>=
        fun _ => Prog.ret a).Ends (engine S) (Owes (engine S) P) x js := by
  induction ids with
  | nil => exact fun js before _ => ⟨sound, fun j hj db => before j hj db⟩
  | cons t ids ih =>
    intro js before
    rw [List.foldr_cons, Prog.bind_assoc]
    refine ends_enqueue (ih _ fun j hj => ?_) (ih js before)
    rcases List.mem_append.1 hj with hj | hj
    · exact before j hj
    · cases List.mem_singleton.1 hj
      exact told t

/-- The audit insert neither takes a job back nor the change it announces. -/
theorem ends_intercept (req : HttpRequest) (auditId : Id) {handle : Call α}
    (keep : ∀ j db r, P j db → P j (Row.apply db (.auditLog r))) {x : Session billing}
    (h : handle.Ends (engine S) (Owes (engine S) P) x []) :
    (AuditLogInterceptor.intercept req auditId handle).Ends (engine S)
      (Owes (engine S) P) x [] := by
  unfold AuditLogInterceptor.intercept
  split
  · exact h
  · split
    · exact h
    · refine Prog.Ends.bind (fun a x js owes => ?_) (fun e x js owes => owes) handle h
      rw [AuditLogInterceptor.record_eq]
      intro db succeeds sent
      obtain ⟨ws, r, ran, after⟩ := Session.exec_isOk (succeeds sent)
      obtain ⟨-, told⟩ := owes sent
      rw [after]
      refine ⟨rfl, fun j hj => ?_⟩
      have written : ∃ row, ws = [.auditLog row] := by
        simp only [engine, Server.run, Server.createAuditLog] at ran
        split at ran
        · split at ran
          · cases ran
          · cases ran
            exact ⟨_, rfl⟩
        · cases ran
      obtain ⟨row, rfl⟩ := written
      exact Show.append (told j hj) fun db => keep j db row

end owes

/-! ## The four calls -/

section handlers
variable (S : Server) (ctx : Ctx) {α : Type} {sv : Saves} {tr : Seen}

theorem Db.announcement?_announcement (db : Db) (a : Announcement) :
    (Row.apply db (.announcement a)).announcement? a.companyId a.id = some a := by
  have := Table.find?_put db.announcements a a.id
  simp only [key_announcement, if_true] at this
  simp [announcement?, Row.apply, this]

theorem invoiceUpdate_ok {S : Server} {c id : Id} {patch : InvoicePatch} {db : Db} {ws : List Row}
    {row : Invoice} (ran : S.run c (.invoiceUpdate id patch) db = .ok (ws, row)) :
    ws = [.invoice row] ∧ row.id = id ∧ row.companyId = c ∧ row.status = patch.status := by
  simp only [Server.run] at ran
  split at ran
  · rename_i i found
    cases ran
    have own := Db.invoice?_id found
    exact ⟨rfl, own, (Db.invoice?_some.1 found).2, rfl⟩
  · cases ran

theorem paymentUpdate_ok {S : Server} {c id : Id} {patch : PaymentPatch} {db : Db} {ws : List Row}
    {row : Payment} (ran : S.run c (.paymentUpdate id patch) db = .ok (ws, row)) :
    ws = [.payment row] ∧ row.id = id ∧ row.companyId = c ∧ row.status = patch.status ∧
      ∀ reason, patch.rejectionReason = some reason → row.rejectionReason = some reason := by
  simp only [Server.run, Server.updatePayment] at ran
  split at ran
  · cases ran
  · rename_i p found
    split at ran
    · cases ran
      have own := Db.payment?_id found
      refine ⟨rfl, own, (Db.payment?_some.1 found).2, rfl, fun reason given => ?_⟩
      simp [PaymentPatch.apply, given]
    · cases ran

theorem ends_issue (now : Instant) (id : Id) {β : Type} (f : Invoice → β) :
    (InvoiceService.issue ctx now id >>= fun i => Prog.ret (f i)).Ends (engine S)
      (Owes (engine S) ((Notifier.issue now id).Announces ctx.companyId)) {} [] := by
  unfold InvoiceService.issue InvoiceService.getById
  rw [Prog.bind_assoc, Prog.bind_assoc]
  refine ends_read ctx _ (fun _ => ⟨_, rfl⟩) fun existing tr => ?_
  cases existing with
  | none => exact rfl
  | some existing =>
    simp only [Prog.pure_eq, Prog.bind_ret]
    split
    · exact fun sent => absurd rfl sent
    · split
      · exact rfl
      · rw [Prog.bind_assoc]
        refine ends_read ctx _ (fun _ => ⟨_, rfl⟩) fun company tr => ?_
        split
        · exact rfl
        · split
          · exact rfl
          · split
            · exact rfl
            · split
              · exact rfl
              · rw [Prog.bind_assoc]
                refine ends_prisma ctx _ fun db ws row tr ran => ?_
                obtain ⟨rfl, own, company, issued⟩ := invoiceUpdate_ok ran
                have shown : ∀ db, (Row.apply db (.invoice row)).invoice? ctx.companyId id =
                  some row := by
                  intro db
                  rw [Db.invoice?_invoice, if_pos own.symm, if_pos company]
                rw [Prog.bind_assoc]
                refine ends_enqueue (fun _ => ⟨rfl, fun j hj db => ?_⟩) fun sent => absurd rfl sent
                cases List.mem_singleton.1 hj
                exact ⟨row, _, shown db, issued, by rw [own]⟩

theorem show_payment {c id : Id} {q : Payment} (own : q.id = id) (company : q.companyId = c) :
    Show (fun db => db.payment? c id = some q) [.payment q] := by
  intro db
  change (Row.apply db (.payment q)).payment? c id = some q
  rw [Db.payment?_payment, if_pos own.symm, if_pos company]

theorem ends_confirm (now : Instant) (id user : Id) {β : Type} (f : Payment → β) :
    (PaymentService.confirm ctx now id user >>= fun p => Prog.ret (f p)).Ends (engine S)
      (Owes (engine S) ((Notifier.confirm now id user).Announces ctx.companyId)) {} [] := by
  unfold PaymentService.confirm PaymentService.getById
  rw [Prog.bind_assoc, Prog.bind_assoc]
  refine ends_read ctx _ (fun _ => ⟨_, rfl⟩) fun existing tr => ?_
  cases existing with
  | none => exact rfl
  | some existing =>
    simp only [Prog.pure_eq, Prog.bind_ret]
    split
    · exact fun sent => absurd rfl sent
    · exact rfl
    · rw [Prog.bind_assoc]
      refine ends_prisma ctx _ fun db ws q tr ran => ?_
      obtain ⟨rfl, own, company, confirmed, -⟩ := paymentUpdate_ok ran
      rw [Prog.bind_assoc]
      refine ends_recomputeInvoiceStatus ctx _ (fun _ _ shown => shown) (fun ws tr shown => ?_)
        (show_payment own company)
      rw [Prog.bind_assoc]
      refine ends_enqueuePaymentNotification ctx _ .approved
        (fun slug tenantId period db stored => ?_)
        (fun tr js told _ => ⟨rfl, told⟩) shown
      exact ⟨q, slug, tenantId, period, stored, confirmed, rfl⟩

theorem ends_reject (id : Id) (reason : String) {β : Type} (f : Payment → β) :
    (PaymentService.reject ctx id reason >>= fun p => Prog.ret (f p)).Ends (engine S)
      (Owes (engine S) ((Notifier.reject id reason).Announces ctx.companyId)) {} [] := by
  unfold PaymentService.reject PaymentService.getById
  rw [Prog.bind_assoc, Prog.bind_assoc]
  refine ends_read ctx _ (fun _ => ⟨_, rfl⟩) fun existing tr => ?_
  cases existing with
  | none => exact rfl
  | some existing =>
    simp only [Prog.pure_eq, Prog.bind_ret]
    split
    · exact fun sent => absurd rfl sent
    · exact rfl
    · rw [Prog.bind_assoc]
      refine ends_prisma ctx _ fun db ws q tr ran => ?_
      obtain ⟨rfl, own, company, rejected, reasoned⟩ := paymentUpdate_ok ran
      rw [Prog.bind_assoc]
      refine ends_enqueuePaymentNotification ctx _ (.rejected reason)
        (fun slug tenantId period db stored => ?_) (fun tr js told _ => ⟨rfl, told⟩)
        (show_payment own company)
      exact ⟨q, slug, tenantId, period, stored, rejected, reasoned reason rfl, rfl⟩

/-- A row that is new is the row asked for, and shown. -/
def Inserted (row : Announcement) :
    Except Failure (Announcement × Bool) → Session billing → List Job → Prop
  | .ok (a, fresh), x, js => js = [] ∧ (fresh = true → x.broken = false ∧ a = row ∧
      Show (fun db => db.announcement? row.companyId row.id = some row) x.writes)
  | .error _, _, js => js = []

theorem announcementCreate_ok {c : Id} {row a : Announcement} {db : Db} {ws : List Row}
    (ran : S.run c (.announcementCreate row) db = .ok (ws, a)) :
    ws = [.announcement row] ∧ a = row := by
  simp only [Server.run, Server.createAnnouncement] at ran
  split at ran
  · cases ran
  · split at ran
    · cases ran
    · split at ran
      · cases ran
      · cases ran
        exact ⟨rfl, rfl⟩

/-- A lost race for the key is looked up in a broken transaction, and throws. -/
theorem ends_insertOrFind (row : Announcement) :
    (AnnouncementService.insertOrFind ctx row).Ends (engine S) (Inserted row)
      ⟨[], sv, false, tr⟩ [] := by
  intro db _
  cases ran : S.run ctx.companyId (.announcementCreate row) db with
  | error e =>
    rw [exec_error S ctx (.announcementCreate row) db (x := ⟨[], sv, false, tr⟩) rfl ran]
    simp only [Prog.uncaught, Prog.bind, Prog.attempt]
    split
    · intro db _
      rw [exec_broken S ctx _ db rfl]
      exact rfl
    · exact rfl
  | ok r =>
    obtain ⟨written, same⟩ := announcementCreate_ok S ran
    rw [exec_ok S ctx (.announcementCreate row) db (x := ⟨[], sv, false, tr⟩) rfl ran]
    refine ⟨rfl, fun _ => ⟨rfl, same, fun db => ?_⟩⟩
    rw [written]
    exact Db.announcement?_announcement db row

theorem ends_createBroadcast (newId : Id) (input : CreateAnnouncementInput) (key : String)
    (user : Id) {β : Type} (f : Announcement → β) :
    (AnnouncementService.createBroadcast ctx newId input key user >>= fun a => Prog.ret (f a)).Ends
      (engine S) (Owes (engine S) ((Notifier.createBroadcast newId input key user).Announces
        ctx.companyId)) {} [] := by
  unfold AnnouncementService.createBroadcast
  rw [Prog.bind_assoc]
  refine ends_read ctx _ (fun _ => ⟨_, rfl⟩) fun existing tr => ?_
  split
  · exact fun sent => absurd rfl sent
  · split
    · exact rfl
    · split
      · exact rfl
      · rw [Prog.bind_assoc]
        refine ends_read ctx _ (fun _ => ⟨_, rfl⟩) fun channel tr => ?_
        split
        · exact rfl
        · rw [Prog.bind_assoc]
          refine ends_read ctx _ (fun _ => ⟨_, rfl⟩) fun recipients tr => ?_
          dsimp only
          split
          · exact rfl
          · rw [Prog.bind_assoc]
            refine ends_read ctx _ (fun _ => ⟨_, rfl⟩) fun company tr => ?_
            cases company with
            | none => exact rfl
            | some company =>
              rw [Prog.bind_assoc]
              apply Prog.Ends.bind (Q := Inserted _) ?_ ?_ _ (ends_insertOrFind S ctx _)
              · rintro ⟨a, fresh⟩ x js ⟨rfl, new⟩
                cases fresh with
                | false => exact fun sent => absurd rfl sent
                | true =>
                  obtain ⟨sound, rfl, shown⟩ := new rfl
                  simp only [if_true]
                  rw [Prog.bind_assoc]
                  refine ends_enqueueAll _ sound (fun tenantId db => ?_) _ []
                    fun _ hj => by cases hj
                  exact ⟨_, company.slug, tenantId, _, shown db, rfl, rfl⟩
              · exact fun e x js quiet => quiet

theorem Notifier.ends (v : Notifier) :
    (v.handler ctx).Ends (engine S) (Owes (engine S) (v.Announces ctx.companyId)) {} [] := by
  cases v with
  | issue now id => exact ends_issue S ctx now id _
  | confirm now id user => exact ends_confirm S ctx now id user _
  | reject id reason => exact ends_reject S ctx id reason _
  | createBroadcast newId input key user => exact ends_createBroadcast S ctx newId input key user _

end handlers

/-- **No push before its commit** in every run of `issue`, `confirm`, `reject`
and `createBroadcast` requests in which a request that has added a job neither
crashes nor has its audit insert refused, and workers take the jobs of finished
requests only: a taken job's request has committed, what it announces is in a
committed state, and no job belongs to a request that was rolled back. -/
theorem no_push_before_commit {ι : Type} [Fintype ι] [DecidableEq ι] (S : Server) (m : ι → Mutation)
    (db : Db) (as : List (Action ι)) (c : Config billing ι (Payment ⊕ Invoice ⊕ Announcement))
    (run : (Config.start db fun t => (m t).prog).run (engine S) as = some c)
    (timely : (Config.start db fun t => (m t).prog).Along (engine S)
      (Config.Timely (engine S)) as) :
    (∀ n ∈ c.taken, ∃ t j, c.jobs[n]? = some (t, j) ∧ (∃ a, c.txs t = .committed a) ∧
      ∃ d ∈ c.db :: c.past, (m t).does.Announces (m t).user.companyId j d) ∧
    ∀ t j, (t, j) ∈ c.jobs → c.txs t ≠ .crashed ∧ ∀ answer, c.txs t ≠ .rolledBack answer := by
  have ends : ∀ t, (m t).prog.Ends (engine S)
      (Owes (engine S) ((m t).does.Announces (m t).user.companyId)) {} [] := fun t =>
    ends_intercept _ _ (fun _ _ row announced => announced.auditLog row)
      ((m t).does.ends S ⟨(m t).user.companyId⟩)
  have announced := Config.Announced.run_announced ends as run timely
  refine ⟨announced.taken, fun t j added => ?_⟩
  have stands := announced.stands t
  have sent : j ∈ c.jobsOf t := Config.mem_jobsOf.2 added
  constructor
  · intro crashed
    rw [crashed] at stands
    rw [stands] at sent
    cases sent
  · intro answer rolledBack
    rw [rolledBack] at stands
    rw [stands] at sent
    cases sent

namespace Demo

/-- An admin rejects payment 5. -/
def rejection : Config billing (Fin 1) (Payment ⊕ Invoice ⊕ Announcement) :=
  Config.start onePayment fun _ =>
    Mutation.prog ⟨rejectRequest "Mozilla/5.0", .admin 7 1, rfl, 900, .reject 5 "blurred slip"⟩

/-- The worker waits for the COMMIT. -/
def takenAfter : List (Action (Fin 1)) := List.replicate 7 (.advance 0) ++ [.take 0]

/-- The worker takes the job at once, and then the connection is lost. -/
def takenBefore : List (Action (Fin 1)) := List.replicate 5 (.advance 0) ++ [.take 0, .crash 0]

/-- The jobs taken, and the payment's status in the committed states, newest
first. -/
def pushes (c : Config billing (Fin 1) (Payment ⊕ Invoice ⊕ Announcement)) :
    List (Option Job) × List (Option PaymentStatus) :=
  (c.taken.map fun n => (c.jobs[n]?).map Prod.snd,
    (c.db :: c.past).map fun d => (d.payment? 1 5).map Payment.status)

end Demo

/-- A rejection is committed, and then pushed. -/
theorem no_push_before_commit_waiting :
    (Demo.rejection.run (engine Demo.server) Demo.takenAfter).map Demo.pushes =
      some ([some (.payment_rejected 1 "acme" 11 1 Demo.april "blurred slip")],
        [some .rejected, some .pending]) ∧
    ∀ c, Demo.rejection.run (engine Demo.server) Demo.takenAfter = some c →
      ∀ n ∈ c.taken, ∃ t j, c.jobs[n]? = some (t, j) ∧ (∃ a, c.txs t = .committed a) ∧
        ∃ d ∈ c.db :: c.past, (Notifier.reject 5 "blurred slip").Announces 1 j d :=
  ⟨by decide +kernel, fun c run =>
    (no_push_before_commit Demo.server
      (fun _ : Fin 1 => ⟨Demo.rejectRequest "Mozilla/5.0", .admin 7 1, rfl, 900,
        .reject 5 "blurred slip"⟩)
      Demo.onePayment Demo.takenAfter c run (by decide +kernel)).1⟩

/-- A rejection is pushed and then rolled back: the payment stays pending. -/
theorem push_of_rolled_back_rejection :
    (Demo.rejection.run (engine Demo.server) Demo.takenBefore).map Demo.pushes =
      some ([some (.payment_rejected 1 "acme" 11 1 Demo.april "blurred slip")],
        [some .pending]) := by
  decide +kernel

end Dormitory
