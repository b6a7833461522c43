import Dormitory.Bindings

/-!
# Bind conflicts

A redemption for a LINE account that another tenant of the company holds. The
failed update of the tenant has aborted the transaction, so the statements of
the handler that follow it fail in their turn, and all is rolled back.
-/

namespace Dormitory.Tenancy
open Txn TenantInviteService

/-- The call redeems the pending invite `i` in time, for an account that another
tenant of the company has. -/
def InviteCall.Conflicts (sha256Hex : String → String) (db : Db) (i : TenantInvite) :
    InviteCall → Prop
  | redeem _ now _ code lineUserId =>
    (∃ found ∈ db.candidate? sha256Hex code, found.1 = i) ∧ i.status = .pending ∧
      now < i.expiresAt ∧ db.LineTaken i.companyId lineUserId i.tenantId
  | _ => False

instance (sha256Hex : String → String) (db : Db) (i : TenantInvite) (call : InviteCall) :
    Decidable (call.Conflicts sha256Hex db i) :=
  match call with
  | .redeem .. => inferInstanceAs (Decidable (_ ∧ _))
  | .generate .. | .revoke .. | .peek .. | .updateTenant .. => .isFalse id

/-- The conflict is answered as such, leaves the invite and its tenant as they
were, and is on record. -/
structure Step.Reports (s : Step) (i : TenantInvite) : Prop where
  answer : s.answer = .error bindConflict
  invite : s.after.invites.find? i.id = s.before.invites.find? i.id
  tenant : s.after.tenants.find? i.tenantId = s.before.tenants.find? i.tenantId
  record : ∃ a ∈ s.after.auditLogs.rows, a ∉ s.before.auditLogs.rows ∧
    a.action = "TENANT_INVITE_BIND_CONFLICT" ∧ a.resourceId = some (toString i.id)

section conflict
variable {S : Server} {sha256Hex : String → String} {queueUp : Nat → Bool} {db d : Db}
  {auditId : Id} {now now' : Instant} {code lineUserId : String} {i : TenantInvite} {c : Company}
  {r : Except ApiError Answer}

/-- The account's holder keeps the tenant of the invite from being updated. -/
theorem updateTenant_taken (S : Server) (taken : db.LineTaken i.companyId lineUserId i.tenantId) :
    ∃ e, updateTenant S (some i.companyId) db i.tenantId { lineUserId := some lineUserId } =
      .error e ∧ e ≠ bindConflict := by
  unfold updateTenant
  cases found : db.tenant? (some i.companyId) i.tenantId with
  | none => exact ⟨_, rfl, by simp [missing, bindConflict]⟩
  | some t =>
    obtain ⟨stored, sees⟩ := Option.filter_eq_some_iff.1 found
    have company : t.companyId = i.companyId := by simpa [Sees, eq_comm] using sees
    have id : t.id = i.tenantId := Table.find?_key stored
    have held : ∃ l ∈ some lineUserId, db.LineTaken t.companyId l t.id :=
      ⟨lineUserId, rfl, by rwa [company, id]⟩
    simp only [if_pos held]
    split
    · exact ⟨_, rfl, by simp [tooLong, bindConflict]⟩
    · exact ⟨_, rfl, by simp [uniqueViolation, bindConflict]⟩

/-- The transaction of the redemption is rolled back, with another answer. -/
theorem redeemPending_conflict (taken : db.LineTaken i.companyId lineUserId i.tenantId)
    (stored : db.invites.find? i.id = some i) (pending : i.status = .pending)
    (h : (redeemPending i c.slug auditId now' lineUserId).Serves (engine S) queueUp db r d) :
    d = db ∧ r ≠ .error bindConflict := by
  have swapped := updateMany_stored stored pending (redeemedPatch now' lineUserId)
  refine h.leads (Q := fun r d => d = db ∧ r ≠ .error bindConflict)
    (Prog.leads_query rfl (fun ws count ran => ?_) fun e ran => ?_)
  · have ran := swapped.symm.trans ran
    split at ran
    · cases ran
      simp only [ne_eq, not_true_eq_false, if_false]
      rw [bindTenant_bind]
      -- The update of the tenant sees the tenants of `db`.
      have still : (Row.apply db (.invite ((redeemedPatch now' lineUserId).apply i))).LineTaken
          i.companyId lineUserId i.tenantId := taken
      obtain ⟨e, fails, other⟩ := updateTenant_taken S still
      refine Prog.leads_sql rfl (fun ws profile ran => ?_) fun e' ran => ?_
      · cases fails.symm.trans ran
      · cases fails.symm.trans ran
        simp only
        split
        · rw [Prog.bind_assoc]
          exact Prog.leads_broken rfl ⟨rfl, by simp [engine, bindConflict]⟩
        · exact Prog.leads_fail ⟨rfl, by simpa using other⟩
    · cases ran
  · have ran := swapped.symm.trans ran
    split at ran
    · cases ran
    · cases ran
      exact ⟨rfl, by simp [tooLong, bindConflict]⟩

theorem redeem_conflict (known : db.candidate? sha256Hex code = some (i, c))
    (pending : i.status = .pending) (valid : now < i.expiresAt)
    (taken : db.LineTaken i.companyId lineUserId i.tenantId)
    (h : (redeem sha256Hex auditId now now' code lineUserId).Serves (engine S) queueUp db r d) :
    d = db ∧ r ≠ .error bindConflict := by
  refine h.leads (Q := fun r d => d = db ∧ r ≠ .error bindConflict)
    (Prog.leads_query rfl (fun ws candidate ran => ?_) fun e ran => by cases ran)
  have looked : candidate = db.candidate? sha256Hex code := by
    cases ran
    rfl
  obtain rfl : ws = [] := by
    cases ran
    rfl
  rw [known] at looked
  subst looked
  refine Prog.leads_ret rfl fun r d served => ?_
  have open' : redeemFound i c.slug auditId now now' lineUserId =
      redeemPending i c.slug auditId now' lineUserId := by
    unfold redeemFound redeemFound.rest
    simp [pending, not_le.2 valid]
    cases i.redeemedAt <;> rfl
  rw [open'] at served
  exact redeemPending_conflict taken (candidate_stored known) pending served

end conflict

/-- **A bind conflict is never reported**: in every run, a redemption that meets
one changes nothing, answers something else and leaves no record. -/
theorem conflicts_never_reported (S : Server) (sha256Hex : String → String) (db : Db)
    (steps : List Step) (run : IsRun S sha256Hex db steps) :
    ∀ s ∈ steps, ∀ i, s.call.Conflicts sha256Hex s.before i →
      s.after = s.before ∧ ¬ s.Reports i := by
  intro s hs i conflicts
  obtain ⟨-, served⟩ := run.served s hs
  obtain ⟨before, call, answer, after⟩ := s
  cases call with
  | redeem auditId now now' code lineUserId =>
    obtain ⟨⟨⟨_, c⟩, known, rfl⟩, pending, valid, taken⟩ := conflicts
    obtain ⟨same, other⟩ := redeem_conflict known pending valid taken served
    exact ⟨same, fun reports => other reports.answer⟩
  | generate | revoke | peek | updateTenant => exact conflicts.elim

namespace Demo

/-- A server that names the fields of the violated index. -/
def fieldServer : Server where
  report _ := .columns ["companyId", "lineUserId"]
  inet _ := true

example : isUniqueConstraintError (uniqueViolation fieldServer ["company_id", "line_user_id"])
    "lineUserId" := by decide

/-- Two tenants, one of them bound. -/
def neighbours : Db :=
  { unbound with
    tenants := ⟨[⟨⟨21, 1, none, .active⟩, "Somchai", none⟩,
      ⟨⟨22, 1, some "U1", .active⟩, "Malee", none⟩], by decide⟩ }

/-- The account of one tenant redeems the invite of the other. -/
def takenAccount : List InviteCall :=
  [inviteTenant 31 "K7M3XQ2P", .redeem 301 10 10 "K7M3XQ2P" "U1"]

end Demo

/-- The redemption ends in the error of the aborted transaction, and nothing is
on record. -/
theorem taken_account_unreported : ∃ steps,
    IsRun Demo.fieldServer Demo.sha256Hex Demo.neighbours steps ∧
    ∃ s ∈ steps, ∃ i, s.call.Conflicts Demo.sha256Hex s.before i ∧
      s.answer = .error (.prisma "25P02" .null) ∧ ¬ s.Reports i := by
  have run : ∃ steps ∈ serveAll Demo.fieldServer Demo.sha256Hex Demo.neighbours Demo.takenAccount,
      (∀ s ∈ steps, s.call.Fresh s.before) ∧
      ∃ s ∈ steps, ∃ i ∈ s.before.invites.rows, s.call.Conflicts Demo.sha256Hex s.before i ∧
        s.answer = .error (.prisma "25P02" .null) := by decide +kernel
  obtain ⟨steps, served, fresh, s, hs, i, -, conflicts, answer⟩ := run
  refine ⟨steps, serveAll_isRun served fresh, s, hs, i, conflicts, answer, fun reports => ?_⟩
  have other := answer.symm.trans reports.answer
  simp [bindConflict] at other

theorem conflicts_never_reported_taken : ∃ steps : List Step,
    (∃ s ∈ steps, ∃ i, s.call.Conflicts Demo.sha256Hex s.before i) ∧
    ∀ s ∈ steps, ∀ i, s.call.Conflicts Demo.sha256Hex s.before i →
      s.after = s.before ∧ ¬ s.Reports i := by
  have run : ∃ steps ∈ serveAll Demo.fieldServer Demo.sha256Hex Demo.neighbours Demo.takenAccount,
      (∀ s ∈ steps, s.call.Fresh s.before) ∧
      ∃ s ∈ steps, ∃ i ∈ s.before.invites.rows, s.call.Conflicts Demo.sha256Hex s.before i := by
    decide +kernel
  obtain ⟨steps, served, fresh, s, hs, i, -, conflicts⟩ := run
  exact ⟨steps, ⟨s, hs, i, conflicts⟩, conflicts_never_reported Demo.fieldServer Demo.sha256Hex
    Demo.neighbours steps (serveAll_isRun served fresh)⟩

end Dormitory.Tenancy
