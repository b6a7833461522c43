import Dormitory.Tenancy

/-!
# LineNotificationProcessor

`modules/notification/line-notification.processor.ts`, and BullMQ as its source
relies on it: a job is processed until `process` returns or its last attempt has
thrown, and every throw is followed by the `failed` event. What the rendered
text says is left out; whether LINE takes it is up to the outside.
-/

namespace Dormitory.LineNotificationProcessor
open Txn
open Tenancy (Sees)

inductive Outcome where
  | delivered | failed
  deriving DecidableEq, Repr

/-! ## Statements -/

inductive Query where
  | tenantFindUnique (id : Id)
  | companyLineChannelFindUnique (companyId : Id)
  /-- `{ increment: 1 }` on the counter of the outcome; selects both counters. -/
  | announcementIncrement (id : Id) (outcome : Outcome)
  | announcementUpdateMany (id : Id) (where' status : AnnouncementStatus) (sentAt : Instant)
  /-- What the other services do to tenants and channels. -/
  | surroundings (tenants : Table Tenant) (channels : Table CompanyLineChannel)

@[reducible] def Query.Ans : Query → Type
  | tenantFindUnique _ => Option Tenant
  | companyLineChannelFindUnique _ => Option CompanyLineChannel
  | announcementIncrement _ _ => Nat × Nat
  | announcementUpdateMany _ _ _ _ => Nat
  | surroundings _ _ => Unit

structure Statement where
  scope' : Option Id
  query : Query

inductive Row where
  | announcement (r : Announcement)
  | surroundings (tenants : Table Tenant) (channels : Table CompanyLineChannel)

def Row.apply (db : Db) : Row → Db
  | announcement r => { db with announcements := db.announcements.put r }
  | surroundings tenants channels => { db with tenants := tenants, channels := channels }

/-- The locks that matter here are those of the announcements. -/
def Row.locks : Row → List Id
  | announcement r => [r.id]
  | surroundings _ _ => []

def increment (outcome : Outcome) (r : Announcement) : Announcement :=
  match outcome with
  | .delivered => { r with deliveredCount := r.deliveredCount + 1 }
  | .failed => { r with failedCount := r.failedCount + 1 }

section statements
variable (scope' : Option Id) (db : Db)

def announcement? (id : Id) : Option Announcement :=
  (db.announcements.find? id).filter fun r => Sees scope' r.companyId

def updateAnnouncement (id : Id) (outcome : Outcome) : Except Failure (List Row × (Nat × Nat)) :=
  match announcement? scope' db id with
  | none => .error .missing
  | some r =>
    let r := increment outcome r
    .ok ([.announcement r], r.deliveredCount, r.failedCount)

def updateManyAnnouncements (id : Id) (where' status : AnnouncementStatus) (sentAt : Instant) :
    List Row × Nat :=
  match (announcement? scope' db id).filter fun r => r.status = where' with
  | none => ([], 0)
  | some r => ([.announcement { r with status := status, sentAt := some sentAt }], 1)

def run : (q : Query) → Except Failure (List Row × q.Ans)
  | .tenantFindUnique id =>
    .ok ([], (db.tenants.find? id).filter fun t => Sees scope' t.companyId)
  | .companyLineChannelFindUnique companyId =>
    .ok ([], db.channels.rows.find? fun c => Sees scope' c.companyId ∧ c.companyId = companyId)
  | .announcementIncrement id outcome => updateAnnouncement scope' db id outcome
  | .announcementUpdateMany id where' status sentAt =>
    .ok (updateManyAnnouncements scope' db id where' status sentAt)
  | .surroundings tenants channels => .ok ([.surroundings tenants channels], ())

end statements

@[reducible] def delivery : Sig where
  Stmt := Statement
  Ans s := s.query.Ans
  Err := Failure
  St := Db
  Write := Row
  Lock := Id
  Job := Empty

def engine : Engine delivery where
  exec s db := run s.scope' db s.query
  apply := Row.apply
  locks := Row.locks
  aborted := .aborted
  noSavepoint := .prisma "3B001" .null
  queueDown := .error "queue down"

def prisma (scope' : Option Id) (q : Query) : Prog delivery q.Ans :=
  @Prog.query delivery ⟨scope', q⟩

/-! ## The worker -/

/-- What `pushMessage` comes to. -/
inductive Push where
  | accepted
  /-- `LineMessagingPermanentError`. -/
  | permanent (status : Nat) (body : String)
  | transient (message : String)
  deriving DecidableEq, Repr

/-- What an attempt meets outside the tables: lookups that throw, the answer of
LINE, and the time. -/
structure Attempt where
  tenantLookup : Option String := none
  channelLookup : Option String := none
  push : Push
  now : Instant

/-- How BullMQ is done with a job. -/
inductive Report where
  | returned (skipped : Option String)
  | exhausted (attemptsMade : Nat)
  deriving DecidableEq, Repr

def Job.companyId : Job → Id
  | .invoice_issued c _ _ _ _ _ _ | .payment_approved c _ _ _ _ | .payment_rejected c _ _ _ _ _
  | .announcement c _ _ _ _ _ _ => c

def Job.tenantId : Job → Id
  | .invoice_issued _ _ t _ _ _ _ | .payment_approved _ _ t _ _ | .payment_rejected _ _ t _ _ _
  | .announcement _ _ t _ _ _ _ => t

def bumpAnnouncementCounter (companyId announcementId : Id) (totalRecipients : Nat)
    (outcome : Outcome) (now : Instant) : Prog delivery Unit := do
  let (deliveredCount, failedCount) ←
    prisma (some companyId) (.announcementIncrement announcementId outcome)
  if deliveredCount + failedCount < totalRecipients then pure ()
  else
    let terminalStatus := if deliveredCount > 0 then AnnouncementStatus.sent else .failed
    let _ ← prisma (some companyId)
      (.announcementUpdateMany announcementId .sending terminalStatus now)
    pure ()

section worker
variable (job : Dormitory.Job)

/-- For announcements, a transaction of its own; then `k`. Only a statement can
fail in it, and a failed one has lost the writes when its error is caught. -/
def recordAnnouncementOutcome (outcome : Outcome) (now : Instant) (k : Script delivery Report) :
    Script delivery Report :=
  match job with
  | .announcement companyId _ _ announcementId _ _ totalRecipients =>
    .tx (Prog.attempt
      (do
        bumpAnnouncementCounter companyId announcementId totalRecipients outcome now
        pure k)
      fun _ => pure k)
  | _ => k

def push (at' : Attempt) (k : Except Failure (Option String) → Script delivery Report) :
    Script delivery Report :=
  match at'.push with
  | .accepted => recordAnnouncementOutcome job .delivered at'.now (k (.ok none))
  | .permanent _ _ =>
    recordAnnouncementOutcome job .failed at'.now (k (.ok (some "line-permanent-error")))
  | .transient message => k (.error (.error message))

def findByCompanyIdUnscoped (at' : Attempt)
    (k : Except Failure (Option CompanyLineChannel) → Script delivery Report) :
    Script delivery Report :=
  match at'.channelLookup with
  | some message => k (.error (.error message))
  | none => .tx do
    let row ← prisma none (.companyLineChannelFindUnique (Job.companyId job))
    pure (k (.ok row))

/-- One attempt; `k` gets what `process` returned or threw. -/
def process (at' : Attempt) (k : Except Failure (Option String) → Script delivery Report) :
    Script delivery Report :=
  let skip (reason : String) :=
    recordAnnouncementOutcome job .failed at'.now (k (.ok (some reason)))
  match at'.tenantLookup with
  | some message => k (.error (.error message))
  | none => .tx do
    let tenant ← prisma (some (Job.companyId job)) (.tenantFindUnique (Job.tenantId job))
    match tenant with
    | none => pure (skip "tenant-missing")
    | some tenant =>
      if tenant.lineUserId.getD "" = "" then pure (skip "unbound-tenant")
      else if tenant.status ≠ .active then pure (skip "tenant-inactive")
      else pure (findByCompanyIdUnscoped job at' fun
        | .error err => k (.error err)
        | .ok none => skip "channel-missing"
        | .ok (some _) => push job at' k)

/-- The listener of the `failed` event; what it starts is not awaited by anyone. -/
def onFailed (attemptsMade maxAttempts : Nat) (now : Instant) (k : Script delivery Report) :
    Script delivery Report :=
  if attemptsMade < maxAttempts then k else recordAnnouncementOutcome job .failed now k

/-- BullMQ with `retries` attempts left after the next one. -/
def work (maxAttempts : Nat) (outside : Nat → Attempt) :
    (retries attemptsMade : Nat) → Script delivery Report
  | 0, attemptsMade => process job (outside attemptsMade) fun
    | .ok skipped => .done (.ok (.returned skipped))
    | .error _ => onFailed job (attemptsMade + 1) maxAttempts (outside attemptsMade).now
        (.done (.ok (.exhausted (attemptsMade + 1))))
  | retries + 1, attemptsMade => process job (outside attemptsMade) fun
    | .ok skipped => .done (.ok (.returned skipped))
    | .error _ => onFailed job (attemptsMade + 1) maxAttempts (outside attemptsMade).now
        (work maxAttempts outside retries (attemptsMade + 1))

end worker

/-- Who takes part: a job with its attempts, or another service. -/
inductive Part where
  | job (job : Dormitory.Job) (maxAttempts : Nat) (outside : Nat → Attempt)
  | other (tenants : Table Tenant) (channels : Table CompanyLineChannel)

def Part.script : Part → Script delivery Report
  | job j maxAttempts outside => work j maxAttempts outside (maxAttempts - 1) 0
  | other tenants channels => .tx do
    let _ ← prisma none (.surroundings tenants channels)
    pure (.done (.ok (.returned none)))

end Dormitory.LineNotificationProcessor
