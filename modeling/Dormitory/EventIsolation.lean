import Dormitory.Txn.Performs
import Dormitory.WebhookDedup

/-!
# The events of one delivery

An exception that `persistAndEnqueue` throws ends the loop over the events. What
the columns refuse and the schema admits, such as an id of more than 64 letters,
keeps the events behind it out as well.
-/

namespace Dormitory.Line
open Txn LineWebhookService

/-- The rows of the events, from the `n`-th on. -/
def deliveredRows (channel : LineChannel) (draw : Nat → Id) :
    Nat → List LineWebhookEvent → List WebhookEvent
  | _, [] => []
  | n, event :: events =>
    pendingRow channel.companyId channel.channelId (draw n) event ::
      deliveredRows channel draw (n + 1) events

/-- The delivery gets as far as its events. -/
structure Admitted (W : Webhook) (db : Db) (delivery : Delivery) (channel : LineChannel)
    (payload : LineWebhookPayload) : Prop where
  known : db.channelBySlug? delivery.companySlug = some channel
  signed : ∃ channelSecret channelAccessToken,
    W.decrypt channel.channelSecret = some channelSecret ∧
    W.decrypt channel.channelAccessToken = some channelAccessToken ∧
    channelSecret ≠ "" ∧ channelAccessToken ≠ "" ∧
    W.verifyLineSignature delivery.rawBody delivery.signatureHeader channelSecret = true
  parsed : W.parse delivery.rawBody = .ok payload

section isolation
variable (stores : WebhookEvent → Bool) (db : Db)

/-- The row's event is recorded when its turn comes: before the call, or as one
of the rows `pre` before it. -/
def Seen (pre : List WebhookEvent) (r : WebhookEvent) : Prop :=
  (∃ r₁, db.webhookEvents.find? (key r) = some r₁) ∨ ∃ r₁ ∈ pre, Fits stores r₁ ∧ key r₁ = key r

/-- A new row that does not fit stands before a new one that does. -/
def Blocked (rows : List WebhookEvent) : Prop :=
  ∃ pre r post, rows = pre ++ r :: post ∧ ¬ Fits stores r ∧ ¬ Seen stores db pre r ∧
    ∃ r' ∈ post, Fits stores r' ∧ ¬ Seen stores db pre r'

/-- Every row that fits is stored, and if it is new its job was handed to the
queue. -/
def Isolated (rows : List WebhookEvent) (db' : Db) (sent : List (LineEventJob × Bool)) : Prop :=
  ∀ r ∈ rows, Fits stores r → ∃ r₁, db'.webhookEvents.find? (key r) = some r₁ ∧
    (db.webhookEvents.find? (key r) = none → ∃ taken, (eventJob r₁, taken) ∈ sent)

end isolation

/-! ## One event -/

section event
variable {stores : WebhookEvent → Bool} {db db' : Db} {r : Except ApiError Ack}
  {sent : List (LineEventJob × Bool)} {companyId newId : Id} {channelId : String}
  {event : LineWebhookEvent} {next : Persisted → Script line Ack}

/-- The lookup of an event under its company. -/
theorem eventFindFirst_eq (db : Db) (companyId : Id) (eventId : String) :
    (db.webhookEvents.rows.find? fun r =>
      Tenancy.Sees (some companyId) r.companyId ∧ r.eventId = eventId) =
        db.webhookEvents.find? (companyId, eventId) := by
  unfold Table.find?
  congr 1
  funext r
  simp [Tenancy.Sees, Prod.ext_iff, eq_comm]

theorem persist_eq : persistAndEnqueue companyId channelId newId event next =
    .tx (@Prog.sql line _ ⟨some companyId, .eventFindFirst (eventIdOf event)⟩ fun
      | .ok (some _) => .ret (next .duplicate)
      | .ok none => @Prog.sql line _
          ⟨some companyId, .eventCreate (pendingRow companyId channelId newId event)⟩ fun
        | .ok row => .ret (enqueue (eventJob row) next)
        | .error e =>
          if isWebhookEventDuplicate e then .ret (next .duplicate) else .fail e
      | .error e => .fail e) := by
  unfold persistAndEnqueue
  rw [prisma_bind]
  congr 2
  funext found
  cases found with
  | error e => rfl
  | ok found =>
    cases found with
    | some r => rfl
    | none =>
      refine (insert_eq (fun row => enqueue (eventJob row) next) _).trans ?_
      change Prog.sql _ _ = Prog.sql _ _
      congr 1
      funext created
      cases created <;> rfl

theorem enqueue_performs {job : LineEventJob} :
    (enqueue job next).Performs (engine stores) db r db' sent ↔
      ∃ taken later, sent = (job, taken) :: later ∧
        (next .enqueued).Performs (engine stores) db r db' later := by
  rw [enqueue, Script.performs_tx]
  constructor
  · rintro ⟨queueUp, resumes⟩
    obtain ⟨later, rfl, rest⟩ := Prog.resumes_send.1 resumes
    exact ⟨queueUp 0, later, rfl, (Prog.resumes_ret rfl).1 rest⟩
  · rintro ⟨taken, later, rfl, rest⟩
    exact ⟨fun _ => taken, Prog.resumes_send.2 ⟨later, rfl, (Prog.resumes_ret rfl).2 rest⟩⟩

theorem eventFindFirst_exec (stores : WebhookEvent → Bool) {found : Option WebhookEvent}
    (looked : db.webhookEvents.find? (companyId, eventIdOf event) = found) :
    (engine stores).exec ⟨some companyId, .eventFindFirst (eventIdOf event)⟩ db =
      .ok ([], found) := by
  rw [← looked, ← eventFindFirst_eq]
  rfl

theorem persist_seen {r₁ : WebhookEvent}
    (seen : db.webhookEvents.find? (companyId, eventIdOf event) = some r₁) :
    (persistAndEnqueue companyId channelId newId event next).Performs (engine stores) db r db'
        sent ↔
      (next .duplicate).Performs (engine stores) db r db' sent := by
  have looked := eventFindFirst_exec stores seen
  rw [persist_eq, Script.performs_tx]
  refine (exists_congr fun queueUp => ?_).trans (exists_const (Nat → Bool))
  refine (Prog.resumes_ok rfl looked).trans ?_
  exact Prog.resumes_ret rfl

theorem persist_new (new : db.webhookEvents.find? (companyId, eventIdOf event) = none)
    (fits : Fits stores (pendingRow companyId channelId newId event))
    (company : ∃ c, db.companies.find? companyId = some c) :
    (persistAndEnqueue companyId channelId newId event next).Performs (engine stores) db r db'
        sent ↔
      ∃ taken later,
        sent = (eventJob (pendingRow companyId channelId newId event), taken) :: later ∧
        (next .enqueued).Performs (engine stores)
          (Row.apply db (pendingRow companyId channelId newId event)) r db' later := by
  obtain ⟨c, company⟩ := company
  have looked := eventFindFirst_exec stores new
  have created : (engine stores).exec
      ⟨some companyId, .eventCreate (pendingRow companyId channelId newId event)⟩ db =
      .ok ([pendingRow companyId channelId newId event],
        pendingRow companyId channelId newId event) := by
    change createEvent stores db _ = _
    unfold createEvent
    rw [if_neg (not_not.2 fits), if_neg (by simpa [pendingRow] using new),
      if_neg (by simp [pendingRow, company])]
  rw [persist_eq, Script.performs_tx, ← enqueue_performs]
  refine (exists_congr fun queueUp => ?_).trans (exists_const (Nat → Bool))
  refine (Prog.resumes_ok rfl looked).trans ?_
  refine (Prog.resumes_ok rfl created).trans ?_
  exact Prog.resumes_ret rfl

theorem persist_unfit (new : db.webhookEvents.find? (companyId, eventIdOf event) = none)
    (unfit : ¬ Fits stores (pendingRow companyId channelId newId event)) :
    (persistAndEnqueue companyId channelId newId event next).Performs (engine stores) db r db'
        sent ↔
      r = .error Tenancy.tooLong ∧ db' = db ∧ sent = [] := by
  have looked := eventFindFirst_exec stores new
  have refused : (engine stores).exec
      ⟨some companyId, .eventCreate (pendingRow companyId channelId newId event)⟩ db =
      .error Tenancy.tooLong := by
    change createEvent stores db _ = _
    unfold createEvent
    rw [if_pos unfit]
  rw [persist_eq, Script.performs_tx]
  refine (exists_congr fun queueUp => ?_).trans (exists_const (Nat → Bool))
  refine (Prog.resumes_ok rfl looked).trans ?_
  refine (Prog.resumes_error rfl refused).trans ?_
  exact Prog.resumes_fail

end event

/-! ## The loop -/

section loop
variable {stores : WebhookEvent → Bool} {db db' : Db} {pre : List WebhookEvent}
  {sent : List (LineEventJob × Bool)} {row : WebhookEvent}

/-- What the loop leaves behind when it has gone through the rows `pre`. -/
structure Passed (stores : WebhookEvent → Bool) (db : Db) (pre : List WebhookEvent) (db' : Db)
    (sent : List (LineEventJob × Bool)) : Prop where
  kept : ∀ {k r}, db.webhookEvents.find? k = some r → db'.webhookEvents.find? k = some r
  isolated : Isolated stores db pre db' sent
  only : ∀ {r r₁}, db'.webhookEvents.find? (key r) = some r₁ → Seen stores db pre r
  /-- None of them stopped it. -/
  unstopped : ∀ {before r after}, pre = before ++ r :: after →
    Fits stores r ∨ Seen stores db before r

theorem Passed.nil : Passed stores db [] db sent where
  kept found := found
  isolated r mem := by cases mem
  only found := .inl ⟨_, found⟩
  unstopped split := by simp at split

/-- A row that is recorded already. -/
theorem Passed.seen {r₁ : WebhookEvent} (found : db.webhookEvents.find? (key row) = some r₁)
    (passed : Passed stores db pre db' sent) : Passed stores db (row :: pre) db' sent where
  kept := passed.kept
  isolated r mem fits := by
    rcases List.mem_cons.1 mem with rfl | mem
    · exact ⟨r₁, passed.kept found, fun new => by cases new.symm.trans found⟩
    · exact passed.isolated r mem fits
  only stored := by
    rcases passed.only stored with before | ⟨r₂, mem, seen⟩
    · exact .inl before
    · exact .inr ⟨r₂, List.mem_cons_of_mem _ mem, seen⟩
  unstopped {before r after} split := by
    cases before with
    | nil =>
      obtain ⟨rfl, rfl⟩ := List.cons_eq_cons.1 split
      exact .inr (.inl ⟨r₁, found⟩)
    | cons r₀ before =>
      obtain ⟨rfl, rfl⟩ := List.cons_eq_cons.1 split
      rcases passed.unstopped rfl with fits | seen | ⟨r₂, mem, seen⟩
      · exact .inl fits
      · exact .inr (.inl seen)
      · exact .inr (.inr ⟨r₂, List.mem_cons_of_mem _ mem, seen⟩)

/-- What is recorded once the row is stored. -/
theorem seen_put (fits : Fits stores row) {before : List WebhookEvent} {r : WebhookEvent} :
    Seen stores (Row.apply db row) before r ↔ Seen stores db (row :: before) r := by
  have put : ∀ k, (Row.apply db row).webhookEvents.find? k =
      if k = key row then some row else db.webhookEvents.find? k :=
    fun k => Table.find?_put db.webhookEvents row k
  unfold Seen
  rw [put]
  by_cases own : key r = key row
  · rw [if_pos own]
    exact iff_of_true (.inl ⟨row, rfl⟩) (.inr ⟨row, List.mem_cons_self, fits, own.symm⟩)
  · rw [if_neg own]
    constructor
    · rintro (found | ⟨r₂, mem, seen⟩)
      · exact .inl found
      · exact .inr ⟨r₂, List.mem_cons_of_mem _ mem, seen⟩
    · rintro (found | ⟨r₂, mem, seen⟩)
      · exact .inl found
      · rcases List.mem_cons.1 mem with rfl | mem
        · exact absurd seen.2.symm own
        · exact .inr ⟨r₂, mem, seen⟩

/-- A row that is stored. -/
theorem Passed.put {taken : Bool} (new : db.webhookEvents.find? (key row) = none)
    (fits : Fits stores row) (passed : Passed stores (Row.apply db row) pre db' sent) :
    Passed stores db (row :: pre) db' ((eventJob row, taken) :: sent) := by
  have put : ∀ k, (Row.apply db row).webhookEvents.find? k =
      if k = key row then some row else db.webhookEvents.find? k :=
    fun k => Table.find?_put db.webhookEvents row k
  have own : db'.webhookEvents.find? (key row) = some row := passed.kept (by rw [put, if_pos rfl])
  constructor
  · intro k r found
    have other : k ≠ key row := by
      rintro rfl
      cases new.symm.trans found
    exact passed.kept (by rw [put, if_neg other]; exact found)
  · intro r mem fits'
    by_cases same : key r = key row
    · rw [same]
      exact ⟨row, own, fun _ => ⟨taken, List.mem_cons_self⟩⟩
    · have mem : r ∈ pre := by
        rcases List.mem_cons.1 mem with rfl | mem
        · exact absurd rfl same
        · exact mem
      obtain ⟨r₁, found, enqueued⟩ := passed.isolated r mem fits'
      refine ⟨r₁, found, fun new => ?_⟩
      obtain ⟨taken, mem⟩ := enqueued (by rw [put, if_neg same]; exact new)
      exact ⟨taken, List.mem_cons_of_mem _ mem⟩
  · exact fun stored => (seen_put fits).1 (passed.only stored)
  · intro before r after split
    cases before with
    | nil =>
      obtain ⟨rfl, rfl⟩ := List.cons_eq_cons.1 split
      exact .inl fits
    | cons r₀ before =>
      obtain ⟨rfl, rfl⟩ := List.cons_eq_cons.1 split
      exact (passed.unstopped rfl).imp id (seen_put fits).1

theorem Passed.stored (passed : Passed stores db pre db' sent) {r : WebhookEvent}
    (seen : Seen stores db pre r) : ∃ r₁, db'.webhookEvents.find? (key r) = some r₁ ∧
      (db.webhookEvents.find? (key r) = none → ∃ taken, (eventJob r₁, taken) ∈ sent) := by
  rcases seen with ⟨r₁, found⟩ | ⟨r₁, mem, fits, same⟩
  · exact ⟨r₁, passed.kept found, fun new => by cases new.symm.trans found⟩
  · rw [← same]
    exact passed.isolated r₁ mem fits

/-- The loop ends with the rows, or in front of a new one that does not fit. -/
def Stops (stores : WebhookEvent → Bool) (db' : Db) (post : List WebhookEvent) : Prop :=
  ∀ row ∈ post.head?, ¬ Fits stores row ∧ db'.webhookEvents.find? (key row) = none

theorem loop_passes {channel : LineChannel} {draw : Nat → Id} {n : Nat} {ack : Ack}
    {events : List LineWebhookEvent} {r : Except ApiError Ack}
    (company : ∃ c, db.companies.find? channel.companyId = some c)
    (performs : (eachEvent channel.companyId channel.channelId draw n ack events).Performs
      (engine stores) db r db' sent) :
    ∃ pre post, deliveredRows channel draw n events = pre ++ post ∧
      Passed stores db pre db' sent ∧ Stops stores db' post := by
  induction events generalizing n ack db sent with
  | nil => exact ⟨[], [], rfl, by
      obtain ⟨-, rfl, -⟩ := Script.performs_done.1 performs
      exact .nil, fun row mem => by cases mem⟩
  | cons event events ih =>
    have keys : key (pendingRow channel.companyId channel.channelId (draw n) event) =
        (channel.companyId, eventIdOf event) := rfl
    rw [eachEvent] at performs
    cases looked : db.webhookEvents.find? (channel.companyId, eventIdOf event) with
    | some r₁ =>
      obtain ⟨pre, post, split, passed, stops⟩ := ih company ((persist_seen looked).1 performs)
      exact ⟨_ :: pre, post, by rw [deliveredRows, split]; rfl, passed.seen (keys ▸ looked), stops⟩
    | none =>
      by_cases fits : Fits stores (pendingRow channel.companyId channel.channelId (draw n) event)
      · obtain ⟨taken, later, rfl, rest⟩ := (persist_new looked fits company).1 performs
        have still : ∃ c, (Row.apply db (pendingRow channel.companyId channel.channelId (draw n)
          event)).companies.find? channel.companyId = some c := company
        obtain ⟨pre, post, split, passed, stops⟩ := ih still rest
        exact ⟨_ :: pre, post, by rw [deliveredRows, split]; rfl, passed.put (keys ▸ looked) fits,
          stops⟩
      · obtain ⟨-, rfl, rfl⟩ := (persist_unfit looked fits).1 performs
        refine ⟨[], _, rfl, .nil, ?_⟩
        rintro row ⟨⟩
        exact ⟨fits, looked⟩

/-- The loop ends, whatever the queue does. -/
theorem loop_performs {channel : LineChannel} {draw : Nat → Id} {n : Nat} {ack : Ack}
    {events : List LineWebhookEvent}
    (company : ∃ c, db.companies.find? channel.companyId = some c) :
    ∃ r db' sent, (eachEvent channel.companyId channel.channelId draw n ack events).Performs
      (engine stores) db r db' sent := by
  induction events generalizing n ack db with
  | nil => exact ⟨_, _, _, .done⟩
  | cons event events ih =>
    rw [eachEvent]
    cases looked : db.webhookEvents.find? (channel.companyId, eventIdOf event) with
    | some r₁ =>
      obtain ⟨r, db', sent, performs⟩ := @ih db (n + 1) _ company
      exact ⟨r, db', sent, (persist_seen looked).2 performs⟩
    | none =>
      by_cases fits : Fits stores (pendingRow channel.companyId channel.channelId (draw n) event)
      · obtain ⟨r, db', sent, performs⟩ := @ih (Row.apply db _) (n + 1) _ company
        exact ⟨r, db', _, (persist_new looked fits company).2 ⟨true, sent, rfl, performs⟩⟩
      · exact ⟨_, _, _, (persist_unfit looked fits).2 ⟨rfl, rfl, rfl⟩⟩

/-- **Isolation of what the loop left behind.** -/
theorem Passed.isolated_iff {post : List WebhookEvent} (passed : Passed stores db pre db' sent)
    (stops : Stops stores db' post) :
    Isolated stores db (pre ++ post) db' sent ↔ ¬ Blocked stores db (pre ++ post) := by
  constructor
  · rintro isolated ⟨before, r, after, split, unfit, new, r', mem, fits, new'⟩
    rcases List.append_eq_append_iff.1 split with ⟨more, rfl, rfl⟩ | ⟨more, rfl, rest⟩
    · have inside : r' ∈ pre ++ (more ++ r :: after) := by simp [mem]
      obtain ⟨r₁, found, -⟩ := isolated r' inside fits
      rcases passed.only found with before | ⟨r₂, mem, seen⟩
      · exact new' (.inl before)
      · exact new' (.inr ⟨r₂, List.mem_append_left _ mem, seen⟩)
    · cases more with
      | nil =>
        have inside : r' ∈ (before ++ []) ++ post := by
          rw [List.nil_append] at rest
          simp [← rest, mem]
        obtain ⟨r₁, found, -⟩ := isolated r' inside fits
        rw [List.append_nil] at passed
        exact new' (passed.only found)
      | cons r₀ more =>
        obtain ⟨rfl, rfl⟩ := List.cons_eq_cons.1 rest
        rcases passed.unstopped rfl with fits | seen
        · exact unfit fits
        · exact new seen
  · intro unblocked r mem fits
    refine passed.stored ?_
    rcases List.mem_append.1 mem with mem | mem
    · exact .inr ⟨r, mem, fits, rfl⟩
    · cases post with
      | nil => cases mem
      | cons row post =>
        obtain ⟨unfit, missing⟩ := stops row rfl
        have later : r ∈ post := by
          rcases List.mem_cons.1 mem with rfl | mem
          · exact absurd fits unfit
          · exact mem
        by_contra new
        refine unblocked ⟨pre, row, post, rfl, unfit, fun seen => ?_, r, later, fits, new⟩
        obtain ⟨r₁, found, -⟩ := passed.stored seen
        cases missing.symm.trans found

end loop

/-! ## The call -/

section call
variable {W : Webhook} {stores : WebhookEvent → Bool} {db db' : Db} {delivery : Delivery}
  {channel : LineChannel} {payload : LineWebhookPayload} {r : Except ApiError Ack}
  {sent : List (LineEventJob × Bool)}

theorem Admitted.company (admitted : Admitted W db delivery channel payload) :
    ∃ c, db.companies.find? channel.companyId = some c := by
  obtain ⟨c, known, found⟩ := Option.bind_eq_some_iff.1 admitted.known
  obtain ⟨looked, -⟩ := Option.filter_eq_some_iff.1 known
  have owner : channel.companyId = c.id := by simpa using List.find?_some found
  exact ⟨c, by rw [owner]; exact Table.find?_of_mem (List.mem_of_find?_eq_some looked)⟩

/-- The call does with the database what its loop does. -/
theorem handle_performs (admitted : Admitted W db delivery channel payload) :
    (handleWebhook W delivery).Performs (engine stores) db r db' sent ↔
      (eachEvent channel.companyId channel.channelId delivery.draw 0 ⟨0, 0⟩
        payload.events).Performs (engine stores) db r db' sent := by
  obtain ⟨c, known, found⟩ := Option.bind_eq_some_iff.1 admitted.known
  obtain ⟨looked, active⟩ := Option.filter_eq_some_iff.1 known
  have company : (engine stores).exec ⟨none, .companyFindUnique delivery.companySlug⟩ db =
      .ok ([], some (c.id, db.companyStatus c.id)) := by
    change Except.ok _ = _
    rw [looked]
    rfl
  have own : (engine stores).exec ⟨none, .channelFindUnique c.id⟩ db = .ok ([], some channel) := by
    rw [← found]
    rfl
  have accepts : acceptDelivery W delivery channel =
      eachEvent channel.companyId channel.channelId delivery.draw 0 ⟨0, 0⟩ payload.events := by
    obtain ⟨secret, token, opened, opened', full, full', signed⟩ := admitted.signed
    simp [acceptDelivery, opened, opened', full, full', signed, admitted.parsed]
  rw [handleWebhook, Script.performs_tx, ← accepts]
  refine (exists_congr fun queueUp => ?_).trans (exists_const (Nat → Bool))
  unfold findByCompanySlugUnscoped
  rw [Prog.bind_assoc, prisma_bind]
  refine (Prog.resumes_ok rfl company).trans ?_
  rw [Prog.uncaught_ok, Prog.bind_ret]
  simp only
  rw [if_neg (not_not.2 (of_decide_eq_true active)), prisma_bind]
  refine (Prog.resumes_ok rfl own).trans ?_
  rw [Prog.uncaught_ok, Prog.bind_ret]
  exact Prog.resumes_ret rfl

end call

/-- **Events of one delivery.** A call always ends, and however it ends, every row
of the delivery that fits has been stored and enqueued just when no new row that
does not fit stood before a new one that does. -/
theorem events_isolated_iff (W : Webhook) (stores : WebhookEvent → Bool) (db : Db)
    (delivery : Delivery) (channel : LineChannel) (payload : LineWebhookPayload)
    (admitted : Admitted W db delivery channel payload) :
    (∃ r db' sent, (handleWebhook W delivery).Performs (engine stores) db r db' sent) ∧
    ∀ r db' sent, (handleWebhook W delivery).Performs (engine stores) db r db' sent →
      (Isolated stores db (deliveredRows channel delivery.draw 0 payload.events) db' sent ↔
        ¬ Blocked stores db (deliveredRows channel delivery.draw 0 payload.events)) := by
  constructor
  · obtain ⟨r, db', sent, performs⟩ := @loop_performs stores db channel delivery.draw 0 ⟨0, 0⟩
      payload.events admitted.company
    exact ⟨r, db', sent, (handle_performs admitted).2 performs⟩
  · intro r db' sent performs
    obtain ⟨pre, post, split, passed, stops⟩ :=
      loop_passes admitted.company ((handle_performs admitted).1 performs)
    rw [split]
    exact passed.isolated_iff stops

/-- Rows that fit, and then rows that do not. -/
theorem unblocked_of_last {stores : WebhookEvent → Bool} {db : Db} {rows : List WebhookEvent}
    (last : rows.Pairwise fun r r' => Fits stores r' → Fits stores r) :
    ¬ Blocked stores db rows := by
  rintro ⟨pre, r, post, rfl, unfit, -, r', mem, fits, -⟩
  obtain ⟨-, last, -⟩ := List.pairwise_append.1 last
  exact unfit ((List.pairwise_cons.1 last).1 r' mem fits)

namespace Demo

/-- An id that the schema admits and the column does not. -/
def oversized : LineWebhookEvent where
  type := "message"
  timestamp := 1767225602000
  webhookEventId := some "01H810YF0000000000000000000000000000000000000000000000000000000000"
  source := some ⟨"\x7b\"type\":\"user\",\"userId\":\"U1\"\x7d", some "U1"⟩
  rest := "\"message\":\x7b\"type\":\"text\",\"id\":\"2\",\"text\":\"again\"\x7d"
  named := hello.named
  identified := by decide

/-- Two bodies, with the oversized event first and last. -/
def oversizedWebhook : Webhook where
  decrypt cipher := some cipher
  verifyLineSignature _ signatureHeader channelSecret := signatureHeader = some channelSecret
  parse rawBody :=
    if rawBody = "first" then .ok ⟨"1656892461", [oversized, hello], batch.addressed, batch.bounded⟩
    else .ok ⟨"1656892461", [hello, oversized], batch.addressed, batch.bounded⟩

def signed (rawBody : String) : Delivery where
  companySlug := "siam-court"
  rawBody := rawBody
  signatureHeader := some "enc:secret"
  draw n := n

end Demo

/-- With the oversized event last, the message is stored. -/
theorem events_isolated_last : ∃ r db' sent,
    (handleWebhook Demo.oversizedWebhook (Demo.signed "last")).Performs (engine fun _ => true)
      Demo.siamCourt r db' sent ∧
    Isolated (fun _ => true) Demo.siamCourt (deliveredRows
      ⟨⟨5, 1⟩, "1656892461", "enc:secret", "enc:token"⟩ (Demo.signed "last").draw 0
      [Demo.hello, Demo.oversized]) db' sent := by
  have admitted : Admitted Demo.oversizedWebhook Demo.siamCourt (Demo.signed "last")
      ⟨⟨5, 1⟩, "1656892461", "enc:secret", "enc:token"⟩
      ⟨"1656892461", [Demo.hello, Demo.oversized], by decide, by decide⟩ :=
    ⟨by decide, ⟨"enc:secret", "enc:token", by decide⟩, by decide⟩
  obtain ⟨⟨r, db', sent, performs⟩, isolated⟩ :=
    events_isolated_iff _ (fun _ => true) _ _ _ _ admitted
  refine ⟨r, db', sent, performs, (isolated r db' sent performs).2 (unblocked_of_last ?_)⟩
  decide

/-- With the oversized event first, the call throws and the message is lost. -/
theorem oversized_event_blocks : ∃ sent,
    (handleWebhook Demo.oversizedWebhook (Demo.signed "first")).Performs (engine fun _ => true)
      Demo.siamCourt (.error Tenancy.tooLong) Demo.siamCourt sent ∧
    ¬ Isolated (fun _ => true) Demo.siamCourt (deliveredRows
      ⟨⟨5, 1⟩, "1656892461", "enc:secret", "enc:token"⟩ (Demo.signed "first").draw 0
      [Demo.oversized, Demo.hello]) Demo.siamCourt sent := by
  have admitted : Admitted Demo.oversizedWebhook Demo.siamCourt (Demo.signed "first")
      ⟨⟨5, 1⟩, "1656892461", "enc:secret", "enc:token"⟩
      ⟨"1656892461", [Demo.oversized, Demo.hello], by decide, by decide⟩ :=
    ⟨by decide, ⟨"enc:secret", "enc:token", by decide⟩, by decide⟩
  refine ⟨[], (handle_performs admitted).2 ((persist_unfit ?_ ?_).2 ⟨rfl, rfl, rfl⟩), ?_⟩
  · decide
  · decide
  · intro isolated
    obtain ⟨r, found, -⟩ := isolated _ (List.mem_cons_of_mem _ List.mem_cons_self) (by decide)
    cases found

end Dormitory.Line
