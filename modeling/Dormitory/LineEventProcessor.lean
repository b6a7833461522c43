import Dormitory.LineWebhookService
import Dormitory.Txn.Attempts

/-!
# LineEventProcessor

`modules/line/line-event.processor.ts`, with the writes of
`webhook-event-state.service.ts` and the lookup of
`company-line-channel.service.ts`. What the handler sends to LINE is left out;
whether it returns is up to the outside.
-/

namespace Dormitory.LineEventProcessor
open Txn Line

/-- What `process` throws; `permanent` is `PermanentJobError`. -/
inductive JobError where
  | error (message : String)
  | permanent (message : String)
  deriving DecidableEq, Repr

def JobError.message : JobError → String
  | error message | permanent message => message

/-- `isPermanentJobError`. -/
def JobError.isPermanent : JobError → Bool
  | error _ => false
  | permanent _ => true

/-! ## Statements -/

/-- The `data` of an update; a failure comes with its error and retry count. -/
structure EventUpdate where
  status : WebhookEventStatus
  processedAt : Instant
  failure : Option (String × Nat) := none
  deriving DecidableEq

def EventUpdate.apply (data : EventUpdate) (r : WebhookEvent) : WebhookEvent :=
  { r with
    status := data.status
    processedAt := some data.processedAt
    processingError := (data.failure.map Prod.fst).or r.processingError
    retryCount := (data.failure.map Prod.snd).getD r.retryCount }

inductive Query where
  | webhookEventFindUnique (id : Id)
  | companyLineChannelFindUnique (companyId : Id)
  | webhookEventUpdate (id : Id) (data : EventUpdate)
  deriving DecidableEq

@[reducible] def Query.Ans : Query → Type
  | webhookEventFindUnique _ => Option (LineWebhookEvent × WebhookEventStatus)
  | companyLineChannelFindUnique _ => Option LineChannel
  | webhookEventUpdate _ _ => Unit

structure Statement where
  scope' : Option Id
  query : Query
  deriving DecidableEq

section statements
variable (scope' : Option Id) (db : Line.Db)

def webhookEvent? (id : Id) : Option WebhookEvent :=
  db.webhookEvents.rows.find? fun r => Tenancy.Sees scope' r.companyId ∧ r.id = id

/-- `P2025`. -/
def recordNotFound : JobError := .error "No record was found for an update."

def run : (q : Query) → Except JobError (List WebhookEvent × q.Ans)
  | .webhookEventFindUnique id =>
    .ok ([], (webhookEvent? scope' db id).map fun r => (r.payload, r.status))
  | .companyLineChannelFindUnique companyId =>
    .ok ([], db.channels.rows.find? fun c => Tenancy.Sees scope' c.companyId ∧
      c.companyId = companyId)
  | .webhookEventUpdate id data =>
    match webhookEvent? scope' db id with
    | none => .error recordNotFound
    | some r => .ok ([data.apply r], ())

end statements

/-- A call of the handler. -/
structure Handling where
  event : LineWebhookEvent
  channel : LineChannel
  deriving DecidableEq

@[reducible] def worker : Sig where
  Stmt := Statement
  Ans s := s.query.Ans
  Err := JobError
  St := Line.Db
  Write := WebhookEvent
  Lock := Id × String
  Job := Handling

def engine : Engine worker where
  exec s db := run s.scope' db s.query
  apply := Line.Row.apply
  locks r := [key r]
  aborted := .error "25P02"
  noSavepoint := .error "3B001"
  queueDown := .error ""

def prisma (scope' : Option Id) (q : Query) : Prog worker q.Ans :=
  @Prog.query worker ⟨scope', q⟩

/-! ## The worker -/

/-- What an attempt meets outside the tables: transactions that fail, the schema
and the key of its day, what the handler throws, and the time. -/
structure Attempt where
  hydrate : Option String := none
  parse : LineWebhookEvent → Except String LineWebhookEvent := .ok
  channelLookup : Option String := none
  decrypt : String → Option String
  handle : Option String := none
  markProcessed : Option String := none
  now : Instant

section process
variable (job : LineEventJob) (attempt : Attempt)

def markProcessed : Script worker Unit :=
  match attempt.markProcessed with
  | some message => .done (.error (.error message))
  | none => .tx do
    prisma (some job.companyId) (.webhookEventUpdate job.webhookEventRowId
      { status := .processed, processedAt := attempt.now })
    pure (.done (.ok ()))

def handle (event : LineWebhookEvent) (channel : LineChannel) : Script worker Unit :=
  .tx (.send ⟨event, channel⟩ fun _ => .ret <|
    match attempt.handle with
    | some message => .done (.error (.error message))
    | none => markProcessed job attempt)

def undecryptable (companyId : Id) : JobError :=
  .error ("LINE channel for company '" ++ toString companyId ++
    "' is configured but its credentials failed to decrypt")

def findByCompanyIdUnscoped (k : Option LineChannel → Script worker Unit) : Script worker Unit :=
  match attempt.channelLookup with
  | some message => .done (.error (.error message))
  | none => .tx do
    let row ← prisma none (.companyLineChannelFindUnique job.companyId)
    match row with
    | none => pure (k none)
    | some row =>
      match attempt.decrypt row.channelSecret, attempt.decrypt row.channelAccessToken with
      | some channelSecret, some channelAccessToken =>
        if channelSecret = "" ∨ channelAccessToken = "" then
          pure (.done (.error (undecryptable job.companyId)))
        else pure (k (some { row with
          channelSecret := channelSecret, channelAccessToken := channelAccessToken }))
      | _, _ => pure (.done (.error (undecryptable job.companyId)))

def payloadInvalid (message : String) : JobError :=
  .permanent ("LINE event payload failed Zod validation rowId=" ++
    toString job.webhookEventRowId ++ ": " ++ message)

def channelDisappeared : JobError :=
  .permanent ("LINE channel disappeared for company=" ++ toString job.companyId ++ " (rowId=" ++
    toString job.webhookEventRowId ++ ", channelId=" ++ job.channelId ++ ")")

/-- The attempt, once the event is read. -/
def dispatch (event : LineWebhookEvent) : Script worker Unit :=
  findByCompanyIdUnscoped job attempt fun
    | none => .done (.error (channelDisappeared job))
    | some channel => handle job attempt event channel

def process : Script worker Unit :=
  match attempt.hydrate with
  | some message => .done (.error (.error message))
  | none => .tx do
    let row ← prisma (some job.companyId) (.webhookEventFindUnique job.webhookEventRowId)
    match row with
    | none => pure (.done (.ok ()))
    | some (payload, status) =>
      if status = .processed then pure (.done (.ok ()))
      else match attempt.parse payload with
        | .error message => pure (.done (.error (payloadInvalid job message)))
        | .ok event => pure (dispatch job attempt event)

end process

/-! ## The listener -/

/-- The letters of an ANSI colour code at the front, behind its escape. -/
def ansiLength : List Char → Option Nat
  | '[' :: cs =>
    let digits := cs.takeWhile fun c => c.isDigit || c = ';'
    match cs.drop digits.length with
    | c :: _ => if c.isAlpha then some (digits.length + 2) else none
    | [] => none
  | _ => none

/-- Drops the next `skip` letters, and then every ANSI colour code. -/
def stripAnsi : (skip : Nat) → List Char → List Char
  | _, [] => []
  | skip + 1, _ :: cs => stripAnsi skip cs
  | 0, c :: cs =>
    if c = '\x1B' then
      match ansiLength cs with
      | some n => stripAnsi n cs
      | none => c :: stripAnsi 0 cs
    else c :: stripAnsi 0 cs

/-- The first `n` code units; half a letter is stored as `U+FFFD`. -/
def sliceUnits : Nat → List Char → List Char
  | _, [] => []
  | n, c :: cs =>
    let units := utf16Length (String.singleton c)
    if units ≤ n then c :: sliceUnits (n - units) cs
    else if n = 0 then [] else ['\uFFFD']

def processingErrorMaxChars : Nat := 1024

def truncateError (raw : String) : String :=
  let cleaned := String.ofList (stripAnsi 0 raw.toList)
  if utf16Length cleaned ≤ processingErrorMaxChars then cleaned
  else String.ofList (sliceUnits (processingErrorMaxChars - 1) cleaned.toList) ++ "…"

theorem sliceUnits_length (n : Nat) (cs : List Char) : (sliceUnits n cs).length ≤ n := by
  induction cs generalizing n with
  | nil => simp [sliceUnits]
  | cons c cs ih =>
    have wide : 1 ≤ utf16Length (String.singleton c) := by
      simp only [utf16Length, String.toList_singleton, List.map_cons, List.map_nil,
        List.sum_singleton]
      split <;> omega
    simp only [sliceUnits]
    split
    · have rest := ih (n - utf16Length (String.singleton c))
      simp only [List.length_cons]
      omega
    · split
      · simp
      · simp only [List.length_singleton]
        omega

/-- Every error fits its column, so no update of the row fails on it. -/
theorem truncateError_fits (raw : String) :
    (truncateError raw).length ≤ processingErrorMaxChars := by
  unfold truncateError
  simp only
  split
  · rename_i short
    exact (length_le_utf16Length _).trans short
  · have cut := sliceUnits_length (processingErrorMaxChars - 1)
      (String.ofList (stripAnsi 0 raw.toList)).toList
    have one : "…".length = 1 := by decide
    simp only [String.length_append, String.length_ofList, one]
    simp only [processingErrorMaxChars] at cut ⊢
    omega

/-- What has come of a failure: it is not terminal, its write is lost, or it is
on the row. -/
inductive Noted where
  | ignored | dropped | recorded
  deriving DecidableEq, Repr

/-- What a listener meets: a transaction that fails, and the time. -/
structure Listening where
  markFailed : Option String := none
  now : Instant

/-- An error of the write is logged and dropped. -/
def markFailed (job : LineEventJob) (outside : Listening) (err : JobError) (attemptsMade : Nat) :
    Script worker Noted :=
  match outside.markFailed with
  | some _ => .done (.ok .dropped)
  | none => .tx (Prog.attempt
    (do
      prisma (some job.companyId) (.webhookEventUpdate job.webhookEventRowId
        { status := .failed, processedAt := outside.now
          failure := some (truncateError err.message, attemptsMade) })
      pure (.done (.ok .recorded)))
    fun _ => pure (.done (.ok .dropped)))

def onFailed (job : LineEventJob) (outside : Listening) (err : JobError) (attemptsMade : Nat) :
    Script worker Noted :=
  let exhausted := job.attempts ≤ attemptsMade
  if ¬ err.isPermanent ∧ ¬ exhausted then .done (.ok .ignored)
  else markFailed job outside err attemptsMade

/-- The job as the queue runs it. Its row is nobody else's. -/
def processor (job : LineEventJob) :
    Processor worker Unit Noted Attempt Listening (Option WebhookEvent) where
  maxAttempts := job.attempts
  process := process job
  onFailed := onFailed job
  own db := webhookEvent? (some job.companyId) db job.webhookEventRowId

end Dormitory.LineEventProcessor
