import Dormitory.Interceptors
import Dormitory.PaymentService

/-!
# What a success response is worth

The audit insert shares the handler's transaction. When it is accepted, the
handler's writes are committed with it. When it is refused, the transaction is
broken, the interceptor drops the error, the client gets the handler's value,
and COMMIT writes nothing.
-/

namespace Dormitory
open Txn

namespace AuditLogInterceptor

/-- The audit insert goes through on top of what the session `x` wrote. -/
def Accepted (S : Server) (row : AuditLog) (db : Db) (x : Session billing) : Prop :=
  S.AuditFits row (x.view (engine S) db) ∧
    (x.view (engine S) db).auditLogs.find? row.id = none

variable {α : Type} (S : Server) (env : Env billing) (row : AuditLog) (value : α) (n : Nat)
  {x : Session billing}

theorem record_eq :
    record row value = @Prog.sql billing α ⟨row.companyId, .auditLogCreate row⟩
      fun _ => Prog.ret value := by
  unfold record prisma Prog.query
  simp only [Prog.bind_sql, Prog.attempt]
  congr 1
  funext r
  cases r <;> rfl

/-- However the insert ends, the value is passed on. -/
theorem record_answer :
    ((record row value).runIn (engine S) env n x).answer = .ok value := by
  rw [record_eq]
  rfl

theorem record_accepted (hx : x.broken = false) (h : Accepted S row (env.db n) x) :
    ((record row value).runIn (engine S) env n x).written = x.writes ++ [.auditLog row] := by
  obtain ⟨fits, fresh⟩ := h
  have hr : S.run row.companyId (.auditLogCreate row) (x.view (engine S) (env.db n)) =
      .ok ([.auditLog row], row) := by
    simp [Server.run, Server.createAuditLog, fits, fresh]
  have he := exec_ok S ⟨row.companyId⟩ (.auditLogCreate row) (env.db n) hx hr
  rw [record_eq, Prog.runIn_sql, he]
  simp [Ending.written, hx]

theorem record_refused (hx : x.broken = false) (h : ¬ Accepted S row (env.db n) x) :
    ((record row value).runIn (engine S) env n x).written = [] := by
  have refused : ∃ e, S.run row.companyId (.auditLogCreate row) (x.view (engine S) (env.db n)) =
      .error e := by
    simp only [Server.run, Server.createAuditLog]
    by_cases fits : S.AuditFits row (x.view (engine S) (env.db n))
    · have taken : ((x.view (engine S) (env.db n)).auditLogs.find? row.id).isSome := by
        rw [Option.isSome_iff_ne_none]
        exact fun fresh => h ⟨fits, fresh⟩
      exact ⟨.prisma "P2002" (S.report ["id"]), by simp [fits, taken]⟩
    · exact ⟨.tooLong, by simp [fits]⟩
  obtain ⟨e, hr⟩ := refused
  have he := exec_error S ⟨row.companyId⟩ (.auditLogCreate row) (env.db n) hx hr
  rw [record_eq, Prog.runIn_sql, he]
  rfl

/-- A mutating request whose handler returned goes on with the audit insert. -/
theorem intercept_answered {req : HttpRequest} {user : Claims} (newId : Id) {handle : Call α}
    (mutating : req.method ∈ mutatingMethods) (authenticated : req.user = some user) {a : α}
    (answer : (handle.runIn (engine S) env 0 {}).answer = .ok a) :
    (intercept req newId handle).runIn (engine S) env 0 {} =
      (record (auditRow req user newId) a).runIn (engine S) env
        (handle.runIn (engine S) env 0 {}).clock (handle.runIn (engine S) env 0 {}).session := by
  have unfolded : intercept req newId handle = handle >>= record (auditRow req user newId) := by
    simp [intercept, mutating, authenticated]
  rw [unfolded, Prog.runIn_bind, answer]

theorem intercept_failed {req : HttpRequest} {user : Claims} (newId : Id) {handle : Call α}
    (mutating : req.method ∈ mutatingMethods) (authenticated : req.user = some user) {e : Failure}
    (answer : (handle.runIn (engine S) env 0 {}).answer = .error e) :
    ((intercept req newId handle).runIn (engine S) env 0 {}).answer = .error e := by
  have unfolded : intercept req newId handle = handle >>= record (auditRow req user newId) := by
    simp [intercept, mutating, authenticated]
  rw [unfolded, Prog.runIn_bind, answer]

end AuditLogInterceptor

open AuditLogInterceptor

/-- **A success response means the writes are committed**, exactly when the
audit insert is accepted or there is nothing to lose. The handler is any program
whose statements left the transaction unbroken, run against any sequence of
committed states; `h` is how it ends and `r` how the request around it ends. -/
theorem success_response_committed {α : Type} (S : Server) (env : Env billing) (req : HttpRequest)
    (user : Claims) (newId : Id) (handle : Call α) (mutating : req.method ∈ mutatingMethods)
    (authenticated : req.user = some user)
    (succeeded : (handle.runIn (engine S) env 0 {}).session.broken = false) :
    let h := handle.runIn (engine S) env 0 {}
    let r := (intercept req newId handle).runIn (engine S) env 0 {}
    (∀ a, r.response = some a → h.session.writes <+: r.written) ↔
      (h.response = none ∨ h.session.writes = [] ∨
        Accepted S (auditRow req user newId) (env.db h.clock) h.session) := by
  intro h r
  cases answer : h.answer with
  | error e =>
    have none_h : h.response = none := by simp [Ending.response, answer]
    have none_r : r.response = none := by
      have failed : r.answer = .error e :=
        intercept_failed S env newId mutating authenticated answer
      simp [Ending.response, failed]
    simp [none_h, none_r]
  | ok a =>
    have some_h : h.response = some a := by simp [Ending.response, answer]
    have tail : r = (record (auditRow req user newId) a).runIn (engine S) env h.clock h.session :=
      intercept_answered S env newId mutating authenticated answer
    have some_r : r.response = some a := by
      rw [Ending.response, tail, record_answer]
    by_cases accepted : Accepted S (auditRow req user newId) (env.db h.clock) h.session
    · have kept : h.session.writes <+: r.written := by
        rw [tail, record_accepted S env _ a h.clock succeeded accepted]
        exact List.prefix_append _ _
      simp [kept, accepted]
    · have lost : r.written = [] := by
        rw [tail]
        exact record_refused S env _ a h.clock succeeded accepted
      simp [some_h, some_r, lost, accepted]

namespace Demo

/-- An admin's request to reject a payment. -/
def rejectRequest (userAgent : String) : HttpRequest where
  method := "POST"
  url := "/c/acme/payments/5/reject"
  routeUrl := some "/c/:slug/payments/:id/reject"
  xForwardedFor := none
  userAgent := some userAgent
  ip := some "10.0.0.1"
  user := some (.admin 7 1)

def onePayment : Db := db [invoice 1 11 (baht 100) .issued]
    [payment 5 1 11 (baht 100) "key-of-payment-5"]

/-- Its handler, alone on the database. -/
def rejectHandler : Call Payment := PaymentService.reject ctx 5 "blurred slip"

def quiet : Env billing := ⟨fun _ => onePayment, fun _ => true⟩

end Demo

/-- An ordinary browser's request keeps its rejection. -/
theorem success_response_committed_short_agent :
    let h := Demo.rejectHandler.runIn (engine Demo.server) Demo.quiet 0 {}
    let r := (intercept (Demo.rejectRequest "Mozilla/5.0") 900 Demo.rejectHandler).runIn
      (engine Demo.server) Demo.quiet 0 {}
    (∀ a, r.response = some a → h.session.writes <+: r.written) ∧ h.session.writes ≠ [] := by
  have accepted : Accepted Demo.server
      (auditRow (Demo.rejectRequest "Mozilla/5.0") (.admin 7 1) 900)
      Demo.onePayment (Demo.rejectHandler.runIn (engine Demo.server) Demo.quiet 0 {}).session := by
    constructor <;> decide +kernel
  exact ⟨(success_response_committed Demo.server Demo.quiet (Demo.rejectRequest "Mozilla/5.0")
    (.admin 7 1) 900 Demo.rejectHandler (by decide) rfl (by decide)).2 (.inr (.inr accepted)),
    by decide⟩

/-- A user agent of 513 characters: the admin is told that the payment is
rejected, and nothing is written. -/
theorem long_user_agent_loses_writes :
    let agent := String.ofList (List.replicate 513 'x')
    let h := Demo.rejectHandler.runIn (engine Demo.server) Demo.quiet 0 {}
    let r := (intercept (Demo.rejectRequest agent) 900 Demo.rejectHandler).runIn
      (engine Demo.server) Demo.quiet 0 {}
    h.session.writes ≠ [] ∧ r.response.map Payment.status = some .rejected ∧ r.written = [] := by
  intro agent h r
  have width : agent.length = 513 := by
    rw [String.length_ofList, List.length_replicate]
  have refused : ¬ Accepted Demo.server (auditRow (Demo.rejectRequest agent) (.admin 7 1) 900)
      (Demo.quiet.db h.clock) h.session := by
    rintro ⟨⟨-, -, fits, -, -⟩, -⟩
    have := fits agent rfl
    omega
  obtain ⟨p, answer, status⟩ : ∃ p, h.answer = .ok p ∧ p.status = .rejected := ⟨_, rfl, rfl⟩
  have tail : r = (record (auditRow (Demo.rejectRequest agent) (.admin 7 1) 900) p).runIn
      (engine Demo.server) Demo.quiet h.clock h.session :=
    intercept_answered Demo.server Demo.quiet 900 (by decide) rfl answer
  refine ⟨by decide, ?_, ?_⟩
  · rw [tail, Ending.response, record_answer, Option.map_some, status]
  · rw [tail]
    exact record_refused Demo.server Demo.quiet _ p h.clock (by decide) refused

end Dormitory
