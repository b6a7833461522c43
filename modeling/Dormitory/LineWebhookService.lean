import Dormitory.AuthService
import Dormitory.Digits

/-!
# LineWebhookService

`modules/line/line-webhook.service.ts`, with the lookup of
`company-line-channel.service.ts` and the table of the events. A delivery is one
transaction for the channel and one for each of its events; the job of an event
is added after its transaction.
-/

namespace Dormitory

/-! ## Events -/

/-- `event.source`, if it is truthy: its JSON, and the `userId` in it. -/
structure LineEventSource where
  json : String
  userId : Option String
  deriving DecidableEq, Repr

/-- What `lineWebhookEventSchema` admits; its last branch takes every type.
`rest` is the JSON of the fields that are passed through. -/
structure LineWebhookEvent where
  type : String
  timestamp : Nat
  webhookEventId : Option String
  source : Option LineEventSource
  rest : String
  named : type ≠ ""
  identified : ∀ id ∈ webhookEventId, id ≠ "" ∧ utf16Length id ≤ 128
  deriving DecidableEq

/-- `lineWebhookPayloadSchema`. -/
structure LineWebhookPayload where
  destination : String
  events : List LineWebhookEvent
  addressed : destination ≠ "" ∧ utf16Length destination ≤ 64
  bounded : events.length ≤ 100
  deriving DecidableEq

inductive WebhookEventStatus where
  | pending | processing | processed | failed
  deriving DecidableEq, Repr

structure WebhookEvent where
  id : Id
  companyId : Id
  eventId : String
  eventType : String
  channelId : String
  lineUserId : Option String
  payload : LineWebhookEvent
  eventTimestamp : Nat
  status : WebhookEventStatus
  processedAt : Option Instant
  processingError : Option String
  retryCount : Nat
  deriving DecidableEq

/-- A `company_line_channel` row; the last two columns are encrypted. -/
structure LineChannel extends CompanyLineChannel where
  channelId : String
  channelSecret : String
  channelAccessToken : String
  deriving DecidableEq

/-- `LineEventJobData` and its options. -/
structure LineEventJob where
  webhookEventRowId : Id
  companyId : Id
  channelId : String
  eventId : String
  eventType : String
  jobId : String
  attempts : Nat
  deriving DecidableEq

namespace Line
open Txn

/-! ## The database -/

/-- An event is stored under its unique index; `gen_random_uuid()` draws its
primary key, which is not in use. -/
instance : Keyed WebhookEvent (Id × String) := ⟨fun r => (r.companyId, r.eventId)⟩
instance : Keyed LineChannel Id := ⟨fun c => c.id⟩

@[simp] theorem key_event (r : WebhookEvent) : key r = (r.companyId, r.eventId) := rfl

structure Db where
  companies : Table Company := default
  /-- `company.status`. -/
  companyStatus : Id → CompanyStatus := fun _ => .active
  channels : Table LineChannel := default
  webhookEvents : Table WebhookEvent := default

inductive Query where
  | companyFindUnique (slug : String)
  | channelFindUnique (companyId : Id)
  | eventFindFirst (eventId : String)
  | eventCreate (data : WebhookEvent)
  deriving DecidableEq

@[reducible] def Query.Ans : Query → Type
  | companyFindUnique _ => Option (Id × CompanyStatus)
  | channelFindUnique _ => Option LineChannel
  | eventFindFirst _ => Option WebhookEvent
  | eventCreate _ => WebhookEvent

structure Statement where
  scope' : Option Id
  query : Query
  deriving DecidableEq

/-- A stored event, and the entry of the unique index that it takes. -/
abbrev Row := WebhookEvent

def Row.apply (db : Db) (r : Row) : Db := { db with webhookEvents := db.webhookEvents.put r }

/-- The largest time of a `Date`. -/
def maxDate : Nat := 8640000000000000

section statements
variable (stores : WebhookEvent → Bool) (db : Db)

/-- The row fits its columns. `stores` is what else Postgres asks of it. -/
def Fits (r : WebhookEvent) : Prop :=
  r.eventId.length ≤ 64 ∧ r.eventType.length ≤ 32 ∧ r.channelId.length ≤ 32 ∧
    (∀ u ∈ r.lineUserId, u.length ≤ 64) ∧ r.eventTimestamp ≤ maxDate ∧ stores r

instance (r : WebhookEvent) : Decidable (Fits stores r) :=
  inferInstanceAs (Decidable (_ ∧ _ ∧ _ ∧ _ ∧ _ ∧ _))

def createEvent (r : WebhookEvent) : Except ApiError (List Row × WebhookEvent) :=
  if ¬ Fits stores r then .error Tenancy.tooLong
  else if (db.webhookEvents.find? (key r)).isSome then .error (.prisma "P2002" .null)
  else if (db.companies.find? r.companyId).isNone then .error Tenancy.foreignKey
  else .ok ([r], r)

/-- One statement. -/
def run (scope' : Option Id) : (q : Query) → Except ApiError (List Row × q.Ans)
  | .companyFindUnique slug =>
    .ok ([], (db.companies.rows.find? fun c => c.slug = slug).map fun c =>
      (c.id, db.companyStatus c.id))
  | .channelFindUnique companyId =>
    .ok ([], db.channels.rows.find? fun c => c.companyId = companyId)
  | .eventFindFirst eventId =>
    .ok ([], db.webhookEvents.rows.find? fun r =>
      Tenancy.Sees scope' r.companyId ∧ r.eventId = eventId)
  | .eventCreate data => createEvent stores db data

end statements

@[reducible] def line : Sig where
  Stmt := Statement
  Ans s := s.query.Ans
  Err := ApiError
  St := Db
  Write := Row
  Lock := Id × String
  Job := LineEventJob

def engine (stores : WebhookEvent → Bool) : Engine line where
  exec s db := run stores db s.scope' s.query
  apply := Row.apply
  locks r := [key r]
  aborted := .prisma "25P02" .null
  noSavepoint := .prisma "3B001" .null
  queueDown := .prisma "" .null

def prisma (scope' : Option Id) (q : Query) : Prog line q.Ans :=
  @Prog.query line ⟨scope', q⟩

/-! ## The service -/

/-- What the service calls: pgcrypto, the check of the HMAC, and `JSON.parse`
with the schema. -/
structure Webhook where
  decrypt : String → Option String
  verifyLineSignature (rawBody : String) (signatureHeader : Option String)
    (channelSecret : String) : Bool
  parse (rawBody : String) : Except String LineWebhookPayload

/-- The arguments of a call, and the primary keys that it draws. -/
structure Delivery where
  companySlug : String
  rawBody : String
  signatureHeader : Option String
  draw : Nat → Id

structure Ack where
  processed : Nat
  deduped : Nat
  deriving DecidableEq, Repr

inductive Persisted where
  | enqueued | duplicate
  deriving DecidableEq, Repr

def Persisted.count (a : Ack) : Persisted → Ack
  | enqueued => { a with processed := a.processed + 1 }
  | duplicate => { a with deduped := a.deduped + 1 }

/-- The code units of a string. -/
def charCodes (s : String) : List Nat :=
  s.toList.flatMap fun c =>
    if c.toNat < 0x10000 then [c.toNat]
    else [0xD800 + (c.toNat - 0x10000) / 0x400, 0xDC00 + (c.toNat - 0x10000) % 0x400]

/-- `(hash * 33) ^ code`, in 32 bits. -/
def djb2 (raw : String) : BitVec 32 :=
  (charCodes raw).foldl (fun hash code => (hash * 33) ^^^ BitVec.ofNat 32 code) 5381

def syntheticEventId (event : LineWebhookEvent) : String :=
  let sourceKey := (event.source.map LineEventSource.json).getD "no-source"
  let raw := numberText event.timestamp ++ ":" ++ event.type ++ ":" ++ sourceKey
  "synth-" ++ String.ofList (Nat.toDigits 16 (djb2 raw).toNat) ++ "-" ++ numberText event.timestamp

def extractLineUserId (event : LineWebhookEvent) : Option String :=
  event.source.bind LineEventSource.userId

def eventIdOf (event : LineWebhookEvent) : String :=
  event.webhookEventId.getD (syntheticEventId event)

def isWebhookEventDuplicate : ApiError → Bool
  | .prisma code _ => code = "P2002"
  | _ => false

namespace LineWebhookService

def channelNotConfigured (companySlug : String) : ApiError :=
  .http 404 "LineChannelNotConfigured"
    ("No active LINE channel found for company '" ++ companySlug ++ "'")

def invalidSignature : ApiError :=
  .http 401 "InvalidLineSignature" "x-line-signature verification failed"

def invalidBody (message : String) : ApiError :=
  .http 400 "InvalidWebhookBody" ("LINE webhook body failed validation: " ++ message)

def undecryptable (slug : String) : ApiError :=
  .http 500 "" ("LINE channel for company '" ++ slug ++
    "' is configured but its credentials failed to decrypt")

/-- The row of an event. -/
def pendingRow (companyId : Id) (channelId : String) (newId : Id) (event : LineWebhookEvent) :
    WebhookEvent where
  id := newId
  companyId := companyId
  eventId := eventIdOf event
  eventType := event.type
  channelId := channelId
  lineUserId := extractLineUserId event
  payload := event
  eventTimestamp := event.timestamp
  status := .pending
  processedAt := none
  processingError := none
  retryCount := 0

/-- The job of a row. -/
def eventJob (r : WebhookEvent) : LineEventJob where
  webhookEventRowId := r.id
  companyId := r.companyId
  channelId := r.channelId
  eventId := r.eventId
  eventType := r.eventType
  jobId := toString r.companyId ++ ":" ++ r.eventId
  attempts := 5

/-- An error of the queue is logged and dropped. -/
def enqueue (job : LineEventJob) (next : Persisted → Script line Ack) : Script line Ack :=
  .tx (.send job fun _ => .ret (next .enqueued))

def persistAndEnqueue (companyId : Id) (channelId : String) (newId : Id)
    (event : LineWebhookEvent) (next : Persisted → Script line Ack) : Script line Ack :=
  .tx do
    let existing ← prisma (some companyId) (.eventFindFirst (eventIdOf event))
    match existing with
    | some _ => pure (next .duplicate)
    | none =>
      Prog.attempt
        (do
          let row ← prisma (some companyId)
            (.eventCreate (pendingRow companyId channelId newId event))
          pure (enqueue (eventJob row) next))
        fun err => if isWebhookEventDuplicate err then pure (next .duplicate) else Prog.throw err

/-- The loop over the events from the `n`-th on. -/
def eachEvent (companyId : Id) (channelId : String) (draw : Nat → Id) :
    Nat → Ack → List LineWebhookEvent → Script line Ack
  | _, ack, [] => .done (.ok ack)
  | n, ack, event :: events =>
    persistAndEnqueue companyId channelId (draw n) event fun result =>
      eachEvent companyId channelId draw (n + 1) (result.count ack) events

/-- The row, with its secrets still encrypted. -/
def findByCompanySlugUnscoped (slug : String) : Prog line (Option LineChannel) := do
  let company ← prisma none (.companyFindUnique slug)
  match company with
  | none => pure none
  | some (id, status) => if status ≠ .active then pure none else prisma none (.channelFindUnique id)

variable (W : Webhook)

/-- The call, once the channel is known. -/
def acceptDelivery (delivery : Delivery) (channel : LineChannel) : Script line Ack :=
  match W.decrypt channel.channelSecret, W.decrypt channel.channelAccessToken with
  | some channelSecret, some channelAccessToken =>
    if channelSecret = "" ∨ channelAccessToken = "" then
      .done (.error (undecryptable delivery.companySlug))
    else if ¬ W.verifyLineSignature delivery.rawBody delivery.signatureHeader channelSecret then
      .done (.error invalidSignature)
    else match W.parse delivery.rawBody with
      | .error message => .done (.error (invalidBody message))
      | .ok payload =>
        eachEvent channel.companyId channel.channelId delivery.draw 0 ⟨0, 0⟩ payload.events
  | _, _ => .done (.error (undecryptable delivery.companySlug))

def handleWebhook (delivery : Delivery) : Script line Ack :=
  .tx do
    let channel ← findByCompanySlugUnscoped delivery.companySlug
    match channel with
    | none => pure (.done (.error (channelNotConfigured delivery.companySlug)))
    | some channel => pure (acceptDelivery W delivery channel)

end LineWebhookService
end Line
end Dormitory
